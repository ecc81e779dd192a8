import ScriptPack.Proofs.Operations

/-!
Conditions over integer and flag counters. A condition is a chain of questions, each a flag or a
comparison, negated any number of times; a clause is one that asks of counters and literals as they
stand. It becomes commands that prepare temporaries and frames that test scores. What the frames test is stated
exactly; where differences do not overflow, literals are not rounded and flags are zero or one, it
is the condition, and the test of an `else` is its negation.
-/

namespace ScriptPack

open Token

open Int32 (maxValue minValue toInt_inj)

variable {board : Scoreboard} {scores : Scores}

namespace CompareOp

/-- No integer lies beyond the value in the direction in which the operator or its negation is
strict. -/
def saturates (op : CompareOp) (value : Int32) : Bool :=
  match op with
  | lt | ge => value == minValue
  | le | gt => value == maxValue
  | eq | ne => false

/-- The operator itself is strict there. -/
def sticksAt (op : CompareOp) (value : Int32) : Bool :=
  match op with
  | lt => value == minValue
  | gt => value == maxValue
  | eq | ne | le | ge => false

theorem saturates_inverted (op : CompareOp) (value : Int32) :
    op.inverted.saturates value = op.saturates value := by
  cases op <;> rfl

theorem holds_inverted (op : CompareOp) (order : Ordering) :
    op.inverted.holds order = !op.holds order := by
  cases op <;> cases order <;> rfl

end CompareOp

namespace BuildM

theorem toInt_limits (value : Int32) : (minValue.toInt = -2147483648 ∧
    maxValue.toInt = 2147483647) ∧ -2147483648 ≤ value.toInt ∧ value.toInt ≤ 2147483647 :=
  ⟨by decide, value.minValue_le_toInt, value.toInt_le⟩

theorem toInt_stepUp (value : Int32) :
    (stepUp value).toInt = min (value.toInt + 1) maxValue.toInt := by
  have limits := toInt_limits value
  unfold stepUp
  split
  · next last =>
    rw [last]
    omega
  · next notLast =>
    have bound : value.toInt ≠ maxValue.toInt := fun same => notLast (toInt_inj.1 same)
    have one : (1 : Int32).toInt = 1 := by decide
    rw [Int32.toInt_add, one, Int.bmod_eq_of_le (by omega) (by omega)]
    omega

theorem toInt_stepDown (value : Int32) :
    (stepDown value).toInt = max (value.toInt - 1) minValue.toInt := by
  have limits := toInt_limits value
  unfold stepDown
  split
  · next first =>
    rw [first]
    omega
  · next notFirst =>
    have bound : value.toInt ≠ minValue.toInt := fun same => notFirst (toInt_inj.1 same)
    have one : (1 : Int32).toInt = 1 := by decide
    rw [Int32.toInt_sub, one, Int.bmod_eq_of_le (by omega) (by omega)]
    omega

/-- What a range tests is what the operator says, but for a strict one at the limit of its
direction, where the limit itself is let through. -/
theorem contains_rangeFor_eq (op : CompareOp) (value score : Int32) :
    (rangeFor op value).contains score =
      (op.holds (compare score.toInt value.toInt) || score == value && op.sticksAt value) := by
  have order : compare score.toInt value.toInt =
      if score.toInt < value.toInt then .lt else if score.toInt = value.toInt then .eq else .gt :=
    rfl
  have equal (left right : Int32) : (left == right) = decide (left.toInt = right.toInt) := by
    rw [beq_eq_decide, decide_eq_decide, toInt_inj]
  have limits := toInt_limits value
  have bounds := toInt_limits score
  cases op <;>
    simp only [rangeFor, Range.contains, Range.admits, Range.exactly, Range.invert, Range.atMost,
      Range.atLeast, Option.all_some, Option.all_none, Int32.le_iff_toInt_le, CompareOp.holds,
      CompareOp.sticksAt, order, equal, toInt_stepDown, toInt_stepUp] <;>
    grind

theorem contains_rangeFor {op : CompareOp} {value : Int32} (inRange : op.saturates value = false)
    (score : Int32) :
    (rangeFor op value).contains score = op.holds (compare score.toInt value.toInt) := by
  have free : op.sticksAt value = false := by
    cases op with
    | lt | gt => exact inRange
    | _ => rfl
  rw [contains_rangeFor_eq, free, Bool.and_false, Bool.or_false]

/-- Two scores whose difference does not overflow compare as the difference does with zero. -/
theorem contains_rangeFor_sub {left right : Int32}
    (lower : minValue.toInt ≤ left.toInt - right.toInt)
    (upper : left.toInt - right.toInt ≤ maxValue.toInt) (op : CompareOp) :
    (rangeFor op 0).contains (left - right) = op.holds (compare left.toInt right.toInt) := by
  have notLimit : op.saturates 0 = false := by cases op <;> decide
  have limits := toInt_limits 0
  have zero : (0 : Int32).toInt = 0 := by decide
  have exact_ : (left - right).toInt = left.toInt - right.toInt := by
    rw [Int32.toInt_sub]
    exact Int.bmod_eq_of_le (by omega) (by omega)
  have order : compare (left.toInt - right.toInt) 0 = compare left.toInt right.toInt := by
    rcases lt_trichotomy left.toInt right.toInt with less | same | greater
    · rw [compare_lt_iff_lt.2 less, compare_lt_iff_lt]
      omega
    · rw [compare_eq_iff_eq.2 same, compare_eq_iff_eq]
      omega
    · rw [compare_gt_iff_gt.2 greater, compare_gt_iff_gt]
      omega
  rw [contains_rangeFor notLimit, exact_, zero, order]

end BuildM

open List

/-- An operand after a number of negations, alone or compared with another. -/
structure Question (α : Type) where
  negations : Nat
  left : α
  comparison : Option (CompareOp × α)
deriving DecidableEq

namespace Question

variable {α β γ δ : Type}

def isNegated (question : Question α) : Bool :=
  question.negations % 2 == 1

def operands (question : Question α) : List α :=
  question.left :: match question.comparison with
    | none => []
    | some (_, right) => [right]

def comparisonParts (operand : α → β) (mark : TokenKind → β) : Option (CompareOp × α) → List β
  | none => []
  | some (op, right) => [mark (.compare op), operand right]

/-- The parts of a question, given those of its operands and of the tokens between them. -/
def parts (operand : α → β) (mark : TokenKind → β) (question : Question α) : List β :=
  replicate question.negations (mark .negation) ++ operand question.left ::
    comparisonParts operand mark question.comparison

def joined (operand : α → β) (mark : TokenKind → β) : List (Question α) → List β
  | [] => []
  | [question] => question.parts operand mark
  | question :: rest => question.parts operand mark ++ mark .both :: joined operand mark rest

/-- What the question says of the values of its operands. An operand alone is a flag. -/
def holds (value : α → Int32) (question : Question α) : Bool :=
  let affirmed := match question.comparison with
    | none => value question.left == 1
    | some (op, right) => op.holds (compare (value question.left).toInt (value right).toInt)
  affirmed != question.isNegated

/-- Questions whose parts correspond have corresponding parts when they are joined. -/
theorem forall₂_joined {R : β → δ → Prop} {operand : α → β} {mark : TokenKind → β}
    {otherOperand : γ → δ} {otherMark : TokenKind → δ} {questions : List (Question α)}
    {others : List (Question γ)} (both : R (mark .both) (otherMark .both))
    (each : Forall₂ (fun question other =>
      Forall₂ R (question.parts operand mark) (other.parts otherOperand otherMark)) questions others) :
    Forall₂ R (joined operand mark questions) (joined otherOperand otherMark others) := by
  induction each with
  | nil => exact .nil
  | cons first rest ih =>
    cases rest with
    | nil => exact first
    | cons second later => exact rel_append first (.cons both ih)

end Question

open Question

def Value.isScore : Value → Bool
  | int _ | bool _ => true
  | _ => false

namespace Operand

def written : Operand → TokenKind
  | literal value => .literal value
  | counter accessor => .word accessor

/-- An integer, a truth value, or a counter that no temporary can take the place of. -/
def IsHeld (board : Scoreboard) : Operand → Prop
  | literal value => value.isScore = true
  | counter accessor => ∃ counter, board.Holds accessor counter

def counterIn (board : Scoreboard) : Operand → Counter
  | literal _ => ⟨"", .int⟩
  | counter accessor => board.counterOf accessor

end Operand

/-- A question of the operands as they are written. -/
abbrev Clause := Question Operand

namespace Clause

/-- A flag, or a comparison of a counter with an operand. -/
structure IsHeld (board : Scoreboard) (clause : Clause) : Prop where
  isCounter : ∃ accessor, clause.left = .counter accessor
  operands : ∀ operand ∈ clause.operands, operand.IsHeld board

def toComparison (board : Scoreboard) (clause : Clause) : Comparison where
  test := match clause.comparison with
    | none => .flag (clause.left.counterIn board)
    | some (op, other) => .value (clause.left.counterIn board) op other
  negated := clause.isNegated

/-- The scores are such that the frame tests what the clause says: a flag is zero or one, a
difference does not overflow, and a literal is neither rounded nor at a limit. -/
def IsExact (board : Scoreboard) (scores : Scores) (clause : Clause) : Prop :=
  let score := clause.left.valueIn board scores
  match clause.comparison with
  | none => score = 0 ∨ score = 1
  | some (op, .literal literal) =>
      (Number.Binary.ofInt32 literal.score : Number.Single).roundInt32 = literal.score ∧
        op.saturates literal.score = false
  | some (_, .counter accessor) =>
      minValue.toInt ≤ score.toInt - (board.scoreOf scores accessor).toInt ∧
        score.toInt - (board.scoreOf scores accessor).toInt ≤ maxValue.toInt

end Clause

namespace Comparison

variable {first : Token} {others rest : List Token} {test : Test} {accessor : String}
  {counter : Counter}

theorem readTest_value {board : Scoreboard} {first second third : Token} {rest : List Token}
    {accessor : String} {counter : Counter} {op : CompareOp} {operand : Operand}
    (isCounter : first.kind = .counter accessor) (found : board.get? accessor = some counter)
    (secondKind : second.kind = .compare op) (thirdKind : third.kind = operand.kind) :
    readTest board (first :: second :: third :: rest) = .ok (.value counter op operand, rest) := by
  have gets : board.get accessor = .ok counter := by rw [Scoreboard.get, found]
  have isNext : View.comparison.isNext (second :: third :: rest) = true := by
    simp [View.isNext, View.admits, View.comparison, secondKind]
  have takesOp : View.comparison.take (second :: third :: rest) = .ok (op, third :: rest) := by
    simp [View.take, View.comparison, secondKind]
  have takesOperand : View.operand.take (third :: rest) = .ok (operand, rest) := by
    simp [View.take, View.operand_eq_some_iff.2 thirdKind]
  simp only [readTest, isCounter, gets, isNext, Bool.not_true, Bool.false_eq_true, and_false,
    if_false, takesOp]
  change (View.operand.take (third :: rest) >>= _) = _
  rw [takesOperand]
  rfl

theorem readTest_alone (isCounter : first.kind = .counter accessor)
    (found : board.get? accessor = some counter)
    (ends : ∀ op later, others.map Token.kind ≠ .compare op :: later)
    (read : readTest board (first :: others) = .ok (test, rest)) :
    test = .flag counter ∧ rest = others := by
  have gets : board.get accessor = .ok counter := by rw [Scoreboard.get, found]
  have notView {token : Token} {later : List Token} (same : others = token :: later) :
      View.comparison.view? token.kind = none := by
    cases kind : token.kind with
    | compare op => exact absurd (by rw [same, map_cons, kind]) (ends op (later.map Token.kind))
    | _ => rfl
  simp only [readTest, isCounter, gets] at read
  split at read
  · cases read
    exact ⟨rfl, rfl⟩
  · cases others with
    | nil => cases read
    | cons token later =>
      simp only [View.take, notView rfl] at read
      cases read

theorem readChain_negation {negated : Bool} {first : Token}
    {others : List Token} (kind : first.kind = .negation) :
    readChain board negated (first :: others) = readChain board (!negated) others := by
  obtain ⟨_, line⟩ := first
  cases kind
  rw [readChain]

theorem readChain_negations {board : Scoreboard} (count : Nat) {negated : Bool}
    {tokens : List Token} {kinds : List TokenKind}
    (spelled : tokens.map kind = replicate count .negation ++ kinds) :
    ∃ rest, rest.map kind = kinds ∧
      readChain board negated tokens = readChain board (negated != (count % 2 == 1)) rest := by
  induction count generalizing negated tokens with
  | zero => exact ⟨tokens, spelled, by simp⟩
  | succ count ih =>
    obtain ⟨first, others, rfl, kind, otherKinds⟩ := map_eq_cons_iff.1 spelled
    obtain ⟨rest, restKinds, same⟩ := @ih (!negated) others otherKinds
    refine ⟨rest, restKinds, ?_⟩
    rw [readChain_negation kind, same]
    congr 1
    rcases Nat.mod_two_eq_zero_or_one count with even | odd
    · have next : (count + 1) % 2 = 1 := by omega
      rw [even, next]
      cases negated <;> rfl
    · have next : (count + 1) % 2 = 0 := by omega
      rw [odd, next]
      cases negated <;> rfl

theorem readChain_eq_ok_iff {negated : Bool} {first : Token} {others : List Token}
    {chain : List Comparison} (notNegation : first.kind ≠ .negation) :
    readChain board negated (first :: others) = .ok chain ↔
      ∃ test rest, readTest board (first :: others) = .ok (test, rest) ∧
        (rest = [] ∧ chain = [⟨test, negated⟩] ∨ ∃ joint later tail, rest = joint :: later ∧
          joint.kind = .both ∧ readChain board false later = .ok tail ∧
          chain = ⟨test, negated⟩ :: tail) := by
  rw [readChain]
  · split
    · simp_all
    · rename_i test found
      simp [found, eq_comm]
    · rename_i test joint later found
      rw [found]
      split
      · rename_i isJoint
        cases readTail : readChain board false later <;>
          simp [readTail, isJoint, bind, Except.bind, pure, Except.pure, eq_comm]
      · simp_all
  · rintro line rfl
    exact notNegation rfl

/-! ## Questions read

Tokens that stand for the parts of questions are read one question at a time. -/

section Joined

variable {α β : Type} {operand : α → β} {mark : TokenKind → β} {Stands : TokenKind → β → Prop}
  (marks : ∀ {kind other}, Stands kind (mark other) → kind = other)

include marks

theorem exists_of_negations {count : Nat} {kinds : List TokenKind} {parts : List β}
    (stand : Forall₂ Stands kinds (replicate count (mark .negation) ++ parts)) :
    ∃ rest, kinds = replicate count .negation ++ rest ∧ Forall₂ Stands rest parts := by
  induction count generalizing kinds with
  | zero => exact ⟨kinds, rfl, stand⟩
  | succ count ih =>
    obtain ⟨first, others, stands, othersStand, rfl⟩ := forall₂_cons_right_iff.1 stand
    obtain ⟨rest, rfl, restStand⟩ := ih othersStand
    exact ⟨rest, by rw [marks stands]; rfl, restStand⟩

theorem readChain_joined {questions : List (Question α)} {Reads : Question α → Comparison → Prop}
    (operands : ∀ {kind value}, Stands kind (operand value) → kind ≠ .negation)
    (reads : ∀ question ∈ questions, ∀ {first others test rest} {tail : List β},
      Stands (kind first) (operand question.left) →
      Forall₂ Stands (others.map kind)
        (comparisonParts operand mark question.comparison ++ tail) →
      (∀ part later, tail = part :: later → part = mark .both) →
      readTest board (first :: others) = .ok (test, rest) →
      Forall₂ Stands (rest.map kind) tail ∧ Reads question ⟨test, question.isNegated⟩)
    {tokens : List Token} {chain : List Comparison} (nonempty : questions ≠ [])
    (stand : Forall₂ Stands (tokens.map kind) (joined operand mark questions))
    (read : readChain board false tokens = .ok chain) : Forall₂ Reads questions chain := by
  induction questions generalizing tokens chain with
  | nil => contradiction
  | cons question questions ih =>
    obtain ⟨readsFirst, readsOthers⟩ := forall_mem_cons.1 reads
    -- the parts of this question, and what stands after them
    obtain ⟨tail, isTail, split⟩ : ∃ tail : List β,
        tail = (if questions = [] then [] else mark .both :: joined operand mark questions) ∧
        joined operand mark (question :: questions) = question.parts operand mark ++ tail := by
      cases questions with
      | nil => exact ⟨[], rfl, (append_nil _).symm⟩
      | cons next later => exact ⟨_, rfl, rfl⟩
    have ends : ∀ part later, tail = part :: later → part = mark .both := by
      rintro part later rfl
      split at isTail
      · cases isTail
      · exact (cons.inj isTail).1
    rw [split, parts, append_assoc] at stand
    obtain ⟨kinds, spelled, operandStands⟩ := exists_of_negations marks stand
    obtain ⟨remaining, remainingKinds, same⟩ :=
      @readChain_negations board question.negations false _ _ spelled
    rw [same, Bool.false_bne] at read
    obtain ⟨_, _, leftStands, othersStand, rfl⟩ := forall₂_cons_right_iff.1 operandStands
    obtain ⟨first, others, rfl, rfl, rfl⟩ := map_eq_cons_iff.1 remainingKinds
    obtain ⟨test, rest, readFirst, continued⟩ := (readChain_eq_ok_iff (operands leftStands)).1 read
    obtain ⟨tailStands, readsQuestion⟩ := readsFirst leftStands othersStand ends readFirst
    rw [isTail] at tailStands
    cases questions with
    | nil =>
      rcases continued with ⟨-, rfl⟩ | ⟨joint, later, chain, rfl, -, -⟩
      · exact .cons readsQuestion .nil
      · cases tailStands
    | cons next later =>
      obtain ⟨_, _, -, laterStand, kinds⟩ := forall₂_cons_right_iff.1 tailStands
      rcases continued with ⟨rfl, -⟩ | ⟨joint, rest, chain, rfl, -, readRest, rfl⟩
      · cases kinds
      · cases kinds
        exact .cons readsQuestion (ih readsOthers nofun laterStand readRest)

end Joined

theorem readTest_clause {clause : Clause} (held : clause.IsHeld board)
    {tail : List TokenKind} (isLeft : first.kind = clause.left.kind)
    (spelled : others.map kind =
      comparisonParts Operand.kind id clause.comparison ++ tail)
    (ends : ∀ part later, tail = part :: later → part = .both)
    (read : readTest board (first :: others) = .ok (test, rest)) :
    rest.map kind = tail ∧ (clause.toComparison board).test = test := by
  obtain ⟨negations, _, comparison⟩ := clause
  obtain ⟨⟨accessor, rfl⟩, operands⟩ := held
  obtain ⟨counter, holds⟩ := operands _ mem_cons_self
  have same : board.counterOf accessor = counter := by
    rw [Scoreboard.counterOf, holds.found]
    rfl
  rcases comparison with _ | ⟨op, other⟩
  · have noComparison : ∀ op later, others.map kind ≠ .compare op :: later := by
      intro op later isTail
      cases ends _ later (spelled.symm.trans isTail)
    obtain ⟨rfl, rfl⟩ := readTest_alone isLeft holds.found noComparison read
    exact ⟨spelled, congrArg Test.flag same⟩
  · obtain ⟨second, _, rfl, secondKind, restKinds⟩ := map_eq_cons_iff.1 spelled
    obtain ⟨third, later, rfl, thirdKind, restKinds⟩ := map_eq_cons_iff.1 restKinds
    cases read.symm.trans (readTest_value isLeft holds.found secondKind thirdKind)
    exact ⟨restKinds, congrArg (Test.value · op other) same⟩

/-- Clauses are read as the comparisons that they spell. -/
theorem readChain_clauses {clauses : List Clause} {tokens : List Token} {chain : List Comparison}
    (nonempty : clauses ≠ []) (held : ∀ clause ∈ clauses, clause.IsHeld board)
    (spelled : tokens.map kind = joined Operand.kind id clauses)
    (read : readChain board false tokens = .ok chain) :
    clauses.map (Clause.toComparison board) = chain := by
  rw [← forall₂_eq_eq_eq] at spelled
  have reads := @readChain_joined board _ _ Operand.kind id Eq id clauses
    (fun clause comparison => Clause.toComparison board clause = comparison)
    (fun {kind value} isOperand => by cases value <;> simp [isOperand, Operand.kind])
    (fun clause member first others test rest tail isLeft stand ends read => by
      rw [forall₂_eq_eq_eq] at stand ⊢
      obtain ⟨kinds, rfl⟩ := readTest_clause (held clause member) isLeft stand ends read
      exact ⟨kinds, rfl⟩) tokens chain nonempty spelled read
  exact forall₂_eq_eq_eq ▸ forall₂_map_left_iff.2 reads

end Comparison

end ScriptPack
