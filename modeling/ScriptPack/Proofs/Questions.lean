import ScriptPack.Proofs.Branches

/-!
Conditions over integer expressions. The operands of a condition are evaluated before it is tested,
each into a number that was written, a counter or a temporary. The condition is then read as
comparisons of these, and its frames test what the operands are worth.
-/

namespace ScriptPack

open Atom Comparison Counter List Option TokenKind

variable {board : Scoreboard} {scores : Scores} {kind : TokenKind}

namespace Number

theorem roundQuotient_mul (quotient : Nat) {denominator : Nat} (positive : denominator ≠ 0) :
    roundQuotient (quotient * denominator) denominator = quotient := by
  simp [roundQuotient, Nat.mul_div_cancel _ (Nat.pos_of_ne_zero positive), Ne.symm positive]

theorem twoTo_succ (places : Nat) : twoTo (places + 1) = 2 * twoTo places :=
  Nat.pow_succ'

theorem log2_mul_twoTo {value : Nat} (positive : value ≠ 0) (places : Nat) :
    (value * twoTo places).log2 = value.log2 + places := by
  induction places with
  | zero => simp [twoTo]
  | succ places ih =>
    have unit : twoTo places ≠ 0 := (Nat.two_pow_pos places).ne'
    rw [twoTo_succ, Nat.mul_left_comm, Nat.log2_two_mul (Nat.mul_ne_zero positive unit), ih,
      Nat.add_assoc]

theorem clampInt32_toInt (value : Int32) : clampInt32 value.toInt = value := by
  unfold clampInt32
  split
  · rename_i low
    exact Int32.toInt_inj.1 (le_antisymm value.minValue_le_toInt low)
  · split
    · rename_i high
      exact Int32.toInt_inj.1 (le_antisymm high value.toInt_le)
    · exact Int32.ofInt_toInt value

namespace Binary

theorem ofRatio_exact (negative : Bool) {value mantissa : Nat} {exponent : Int}
    (full : 2 ^ 23 ≤ mantissa) (small : mantissa < 2 ^ 24) (range : exponent ≤ 104)
    (same : value * twoTo (-exponent).toNat = mantissa * twoTo exponent.toNat) :
    (ofRatio negative value 1 : Single) = .finite negative mantissa exponent := by
  have unit (places : Nat) : twoTo places ≠ 0 := (Nat.two_pow_pos places).ne'
  have positive : value ≠ 0 := by
    rintro rfl
    simp [unit] at same
    omega
  have bits : mantissa.log2 = 23 := (Nat.log2_eq_iff (by omega)).2 ⟨full, small⟩
  have log := congrArg Nat.log2 same
  rw [log2_mul_twoTo positive, log2_mul_twoTo (by omega), bits] at log
  have one : Nat.log2 1 = 0 := by decide
  have format : BinaryFormat.single = ⟨24, -149, 104⟩ := rfl
  have estimate : max (-149 : Int) ((value.log2 : Int) - (0 : Nat) - (24 : Nat)) = exponent - 1 := by
    omega
  have quotient : twoTo 24 ≤ value * twoTo (-(exponent - 1)).toNat /
      (1 * twoTo (exponent - 1).toNat) := by
    have doubled : value * twoTo (-(exponent - 1)).toNat =
        2 * mantissa * twoTo (exponent - 1).toNat := by
      obtain below | above := le_or_gt exponent 0
      · have up : (-(exponent - 1)).toNat = (-exponent).toNat + 1 := by omega
        have down : (exponent - 1).toNat = exponent.toNat := by omega
        rw [up, down, twoTo_succ, Nat.mul_left_comm, same, Nat.mul_assoc]
      · have up : (-(exponent - 1)).toNat = (-exponent).toNat := by omega
        have down : exponent.toNat = (exponent - 1).toNat + 1 := by omega
        rw [up, same, down, twoTo_succ, Nat.mul_left_comm, Nat.mul_assoc]
    rw [doubled, Nat.one_mul, Nat.mul_div_cancel _ (Nat.pos_of_ne_zero (unit _))]
    change 2 ^ 24 ≤ _
    omega
  have fits : mantissa ≠ twoTo 24 := small.ne
  have rounded : roundQuotient (value * twoTo (-exponent).toNat) (1 * twoTo exponent.toNat) =
      mantissa := by
    rw [same, Nat.one_mul, roundQuotient_mul _ (unit _)]
  simp only [ofRatio, format, one, estimate, if_pos quotient, Int.sub_add_cancel, rounded,
    beq_eq_false_iff_ne.2 fits, beq_eq_false_iff_ne.2 positive, Bool.false_or]
  simp [range]

theorem ofRatio_one (negative : Bool) {magnitude : Nat} (positive : magnitude ≠ 0)
    (small : magnitude < 2 ^ 24) :
    (ofRatio negative magnitude 1 : Single) =
      .finite negative (magnitude * 2 ^ (23 - magnitude.log2)) (magnitude.log2 - 23 : Int) := by
  have bits : magnitude.log2 < 24 := (Nat.log2_lt positive).2 small
  have up : (-((magnitude.log2 : Int) - 23)).toNat = 23 - magnitude.log2 := by omega
  have down : ((magnitude.log2 : Int) - 23).toNat = 0 := by omega
  apply ofRatio_exact negative
  · calc 2 ^ 23 = 2 ^ magnitude.log2 * 2 ^ (23 - magnitude.log2) := by
          rw [← pow_add, Nat.add_sub_cancel' (by omega)]
      _ ≤ magnitude * 2 ^ (23 - magnitude.log2) :=
        Nat.mul_le_mul_right _ (Nat.log2_self_le positive)
  · calc magnitude * 2 ^ (23 - magnitude.log2) <
          2 ^ (magnitude.log2 + 1) * 2 ^ (23 - magnitude.log2) :=
          Nat.mul_lt_mul_of_pos_right Nat.lt_log2_self (Nat.two_pow_pos _)
      _ = 2 ^ 24 := by rw [← pow_add]; congr 1; omega
  · omega
  · rw [up, down]
    simp [twoTo]

theorem nearest_scaled (negative : Bool) (magnitude places : Nat) :
    nearest negative (magnitude * 2 ^ places) (-places : Int) =
      if negative then -(magnitude : Int) else magnitude := by
  have unit : 0 < 2 ^ places := Nat.two_pow_pos places
  have rounded : (2 * (magnitude * 2 ^ places) + 2 ^ places) / (2 * 2 ^ places) = magnitude := by
    rw [← Nat.mul_assoc, Nat.mul_comm 2 magnitude, Nat.mul_assoc, Nat.add_comm,
      Nat.add_mul_div_right _ _ (by omega), Nat.div_eq_of_lt (by omega), Nat.zero_add]
  simp [nearest, twoTo, rounded]

/-- Integers up to the first that single precision skips are compared as they are. -/
theorem roundInt32_ofInt32 {value : Int32} (small : value.toInt.natAbs ≤ 2 ^ 24) :
    (ofInt32 value : Single).roundInt32 = value := by
  have magnitude := value.toInt.natAbs_eq
  by_cases zero : value.toInt.natAbs = 0
  · have isZero : value = 0 := Int32.toInt_inj.1 (by simpa using zero)
    rw [isZero]
    decide
  by_cases last : value.toInt.natAbs = 2 ^ 24
  · rw [last] at magnitude
    rcases magnitude with above | below
    · rw [show value = 16777216 from Int32.toInt_inj.1 above]
      decide
    · rw [show value = -16777216 from Int32.toInt_inj.1 below]
      decide
  have exponent : (value.toInt.natAbs.log2 - 23 : Int) = -((23 - value.toInt.natAbs.log2 : Nat) : Int) := by
    have bits : value.toInt.natAbs.log2 < 24 := (Nat.log2_lt zero).2 (by omega)
    omega
  have signed : (if value.toInt < 0 then -(value.toInt.natAbs : Int) else value.toInt.natAbs) =
      value.toInt := by
    split <;> omega
  rw [ofInt32, ofInt, ofRatio_one _ zero (by omega), roundInt32, exponent, nearest_scaled]
  simp only [decide_eq_true_eq, signed]
  exact clampInt32_toInt value

end Binary

end Number

namespace Question

def phrases : List (Question (Expression Atom .sum)) → List (Phrase Atom) :=
  joined .operand .mark

def answer? (board : Scoreboard) (scores : Scores) (question : Question (Expression Atom .sum)) :
    Option (Question Quantity) := do
  let left ← question.left.quantity? (quantity board scores)
  match question.comparison with
  | none => return { question with left, comparison := none }
  | some (op, right) =>
      let right ← right.quantity? (quantity board scores)
      return { question with left, comparison := some (op, right) }

/-- A flag is zero or one, a literal on the right is not rounded, and the difference from any other
right side does not overflow. -/
def IsExact (question : Question Quantity) : Prop :=
  match question.comparison with
  | none => question.left.value = 0 ∨ question.left.value = 1
  | some (_, right) =>
      if right.source = .constant then right.value.toInt.natAbs ≤ 2 ^ 24
      else
        Int32.minValue.toInt ≤ question.left.value.toInt - right.value.toInt ∧
          question.left.value.toInt - right.value.toInt ≤ Int32.maxValue.toInt

end Question

/-- A counter that the quantity is the score of can be none of the temporaries. -/
def Quantity.IsHeld (board : Scoreboard) (quantity : Quantity) : Prop :=
  ∀ accessor, quantity.source = .counter accessor → ∃ counter, board.Holds accessor counter

/-- An evaluated operand that is no literal is a counter that no later temporary replaces. -/
theorem TokenKind.Denotes.exists_counter {quantity : Quantity}
    (denotes : kind.Denotes board scores (.quantity quantity)) (held : quantity.IsHeld board)
    (scored : quantity.source ≠ .constant) :
    ∃ accessor counter, kind = .counter accessor ∧ board.Names accessor counter ∧
      counter.IsOld board.nextTemporary ∧ scores counter.name = quantity.value := by
  cases denotes with
  | literal value => contradiction
  | @counter accessor counter names =>
    obtain ⟨other, holds⟩ := held accessor rfl
    cases some.inj (names.found.symm.trans holds.found)
    exact ⟨accessor, counter, rfl, names, holds.isOld _, rfl⟩
  | @computed index kind names =>
    have earlier : index < board.nextTemporary := by
      by_contra later
      exact names.name_old index (Nat.le_of_not_lt later) rfl
    refine ⟨_, _, rfl, names, ?_, rfl⟩
    exact isOld_of_isIntegerLike names.simple (Scoreboard.not_isScratch_temporaryObjective earlier)

theorem TokenKind.Denotes.eq_literal {value : Int32}
    (denotes : kind.Denotes board scores (.quantity ⟨value, .constant⟩)) :
    kind = .literal (.int value) := by
  cases denotes with
  | literal value => rfl

namespace Comparison

variable {others rest : List Token} {chain : List Comparison} {first : Token} {test : Test}
  {questions : List (Question Quantity)}

/-- A comparison that is tested as the question is answered. -/
structure Answers (board : Scoreboard) (scores : Scores) (question : Question Quantity)
    (comparison : Comparison) : Prop where
  settled : comparison.IsSettled board
  passes : comparison.passes board scores = question.holds Quantity.value

section

variable {board : Scoreboard} {scores : Scores} {left : Quantity} {counter : Counter}
  (simple : counter.kind.isIntegerLike = true) (old : counter.IsOld board.nextTemporary)
  (score : scores counter.name = left.value) (negations : Nat)

include simple old score

theorem answers_flag (isTruth : left.value = 0 ∨ left.value = 1) :
    Answers board scores ⟨negations, left, none⟩ ⟨.flag counter, negations % 2 == 1⟩ where
  settled := old.name simple
  passes := by
    simp only [passes, score]
    exact flag_passes isTruth _

theorem answers_literal (op : CompareOp) {value : Int32} (small : value.toInt.natAbs ≤ 2 ^ 24) :
    Answers board scores ⟨negations, left, some (op, ⟨value, .constant⟩)⟩
      ⟨.value counter op (.literal (.int value)), negations % 2 == 1⟩ where
  settled := ⟨old, rfl⟩
  passes := by
    have limits := BuildM.toInt_limits value
    have inside : value ≠ Int32.minValue ∧ value ≠ Int32.maxValue := by
      constructor <;>
      · rintro rfl
        omega
    have unsaturated : op.saturates value = false := by
      cases op <;> simp [CompareOp.saturates, inside]
    rw [passes_literal simple _ rfl rfl (Number.Binary.roundInt32_ofInt32 small) unsaturated, score]
    rfl

theorem answers_counter (op : CompareOp) {accessor : String} {right : Quantity} {other : Counter}
    (names : board.Names accessor other) (otherOld : other.IsOld board.nextTemporary)
    (otherScore : scores other.name = right.value)
    (lower : Int32.minValue.toInt ≤ left.value.toInt - right.value.toInt)
    (upper : left.value.toInt - right.value.toInt ≤ Int32.maxValue.toInt) :
    Answers board scores ⟨negations, left, some (op, right)⟩
      ⟨.value counter op (.counter accessor), negations % 2 == 1⟩ where
  settled := isSettled_counter old names.finds otherOld op _
  passes := by
    rw [← score, ← otherScore] at lower upper
    rw [passes_counter simple _ names lower upper, score, otherScore]
    rfl

end

theorem readTest_answers {question : Question Quantity} {tail : List Symbol}
    (held : ∀ quantity ∈ question.operands, quantity.IsHeld board) (isExact : question.IsExact)
    (denotes : first.kind.Denotes board scores (.quantity question.left))
    (othersDenote : Forall₂ (Denotes board scores) (others.map Token.kind)
      (Question.comparisonParts .quantity .mark question.comparison ++ tail))
    (ends : ∀ part later, tail = part :: later → part = .mark .both)
    (read : readTest board (first :: others) = .ok (test, rest)) :
    Forall₂ (Denotes board scores) (rest.map Token.kind) tail ∧
      Answers board scores question ⟨test, question.isNegated⟩ := by
  obtain ⟨negations, left, comparison⟩ := question
  by_cases written : left.source = .constant
  · -- a literal cannot be tested
    obtain ⟨value, source⟩ := left
    cases written
    simp only [readTest, denotes.eq_literal] at read
    cases read
  obtain ⟨accessor, counter, isCounter, names, old, score⟩ :=
    denotes.exists_counter (held left mem_cons_self) written
  have simple := names.simple
  rcases comparison with _ | ⟨op, right⟩
  · have noComparison : ∀ op later, others.map Token.kind ≠ .compare op :: later := by
      intro op later same
      rw [same] at othersDenote
      obtain ⟨symbol, symbols, opDenotes, -, isTail⟩ := forall₂_cons_left_iff.1 othersDenote
      cases opDenotes with
      | mark isMark => cases ends _ symbols isTail
    obtain ⟨rfl, rfl⟩ := readTest_alone isCounter names.found noComparison read
    exact ⟨othersDenote, answers_flag simple old score negations isExact⟩
  · obtain ⟨secondKind, _, opDenotes, thirdDenotes, kinds⟩ := forall₂_cons_right_iff.1 othersDenote
    obtain ⟨second, _, rfl, rfl, rfl⟩ := map_eq_cons_iff.1 kinds
    obtain ⟨thirdKind, _, rightDenotes, tailDenotes, kinds⟩ :=
      forall₂_cons_right_iff.1 thirdDenotes
    obtain ⟨third, later, rfl, rfl, rfl⟩ := map_eq_cons_iff.1 kinds
    have isOp := opDenotes.eq_mark
    by_cases constant : right.source = .constant
    · obtain ⟨value, source⟩ := right
      cases constant
      have value := @readTest_value board first second third later accessor counter op
        (.literal (.int value)) isCounter names.found isOp rightDenotes.eq_literal
      cases read.symm.trans value
      exact ⟨tailDenotes, answers_literal simple old score negations op isExact⟩
    · simp only [Question.IsExact, constant, if_false] at isExact
      obtain ⟨otherAccessor, other, isOther, otherNames, otherOld, otherScore⟩ :=
        rightDenotes.exists_counter (held right (by simp [Question.operands])) constant
      have value := @readTest_value board first second third later accessor counter op
        (.counter otherAccessor) isCounter names.found isOp isOther
      cases read.symm.trans value
      exact ⟨tailDenotes, answers_counter simple old score negations op otherNames otherOld
        otherScore isExact.1 isExact.2⟩

/-- A condition whose operands have been evaluated is read as comparisons that answer its
questions. -/
theorem readChain_answers {tokens : List Token} (nonempty : questions ≠ [])
    (held : ∀ question ∈ questions, ∀ quantity ∈ question.operands, quantity.IsHeld board)
    (isExact : ∀ question ∈ questions, question.IsExact)
    (denote : Forall₂ (Denotes board scores) (tokens.map Token.kind)
      (Question.joined .quantity .mark questions))
    (read : readChain board false tokens = .ok chain) :
    Forall₂ (Answers board scores) questions chain := by
  refine readChain_joined (fun stands => stands.eq_mark) (fun stands isNegation => ?_)
    (fun question member => readTest_answers (held question member) (isExact question member))
    nonempty denote read
  rw [isNegation] at stands
  cases stands

theorem passAll_of_answers (answers : Forall₂ (Answers board scores) questions chain) :
    (∀ comparison ∈ chain, comparison.IsSettled board) ∧
      passAll board chain scores = questions.all (Question.holds Quantity.value) := by
  induction answers with
  | nil => exact ⟨forall_mem_nil _, rfl⟩
  | cons first _ ih =>
    refine ⟨forall_mem_cons.2 ⟨first.settled, ih.1⟩, ?_⟩
    rw [passAll, all_cons, all_cons, first.passes, ← ih.2, passAll]

end Comparison

namespace Expression

variable {level : Level}

theorem isHeld_of_quantity? {e : Expression Atom level}
    {quantity : Quantity} (known : e.quantity? (Atom.quantity board scores) = some quantity)
    (held : ∀ atom ∈ e.leaves, atom.IsHeld board) : quantity.IsHeld board := by
  obtain ⟨value, -, rfl⟩ := map_eq_some_iff.1 known
  intro accessor isCounter
  obtain ⟨atom, member, isSource⟩ := exists_leaf_of_source isCounter
  cases atom with
  | number value => cases isSource
  | counter other =>
    cases isSource
    exact held _ member

end Expression

namespace Question

variable {α β : Type} {operand : α → β} {mark : TokenKind → β} {questions : List (Question α)}

theorem forall_mem_joined {P : β → Prop}
    (operands : ∀ question ∈ questions, ∀ value ∈ question.operands, P (operand value))
    (negation : P (mark .negation)) (compare : ∀ op, P (mark (.compare op))) (both : P (mark .both)) :
    ∀ part ∈ joined operand mark questions, P part := by
  have each (question : Question α) (all : ∀ value ∈ question.operands, P (operand value)) :
      ∀ part ∈ question.parts operand mark, P part := by
    obtain ⟨negations, left, comparison⟩ := question
    obtain ⟨first, others⟩ := forall_mem_cons.1 all
    refine forall_mem_append.2 ⟨?_, forall_mem_cons.2 ⟨first, ?_⟩⟩
    · intro part member
      rw [eq_of_mem_replicate member]
      exact negation
    · rcases comparison with _ | ⟨op, right⟩
      · exact forall_mem_nil _
      · exact forall_mem_cons.2 ⟨compare op, forall_mem_singleton.2 (others right mem_cons_self)⟩
  induction questions with
  | nil => exact forall_mem_nil _
  | cons question questions ih =>
    obtain ⟨first, others⟩ := forall_mem_cons.1 operands
    cases questions with
    | nil => exact each question first
    | cons next later =>
      exact forall_mem_append.2 ⟨each question first, forall_mem_cons.2 ⟨both, ih others⟩⟩

section

variable {board : Scoreboard} {scores : Scores} {question : Question (Expression Atom .sum)}
  {answer : Question Quantity} (answered : question.answer? board scores = some answer)

include answered

theorem parts_of_answer? :
    Forall₂ (fun (phrase : Phrase Atom) (symbol : Symbol) =>
        phrase.result? (quantity board scores) = some symbol)
      (question.parts .operand .mark) (answer.parts .quantity .mark) := by
  have negated (count : Nat) : Forall₂ (fun (phrase : Phrase Atom) (symbol : Symbol) =>
      phrase.result? (quantity board scores) = some symbol)
      (replicate count (.mark .negation)) (replicate count (.mark .negation)) := by
    induction count with
    | zero => exact .nil
    | succ count ih => exact .cons rfl ih
  obtain ⟨negations, left, comparison⟩ := question
  obtain ⟨first, known, answered⟩ := bind_eq_some_iff.1 answered
  have result {e : Expression Atom .sum} {quantity : Quantity}
      (known : e.quantity? (Atom.quantity board scores) = some quantity) :
      (Phrase.operand e).result? (Atom.quantity board scores) = some (.quantity quantity) := by
    rw [Phrase.result?, known]
    rfl
  rcases comparison with _ | ⟨op, right⟩
  · cases answered
    exact rel_append (negated negations) (.cons (result known) .nil)
  · obtain ⟨second, otherKnown, answered⟩ := bind_eq_some_iff.1 answered
    cases answered
    have compared : (Phrase.mark (.compare op)).result? (quantity board scores) =
        some (.mark (.compare op)) := rfl
    exact rel_append (negated negations)
      (.cons (result known) (.cons compared (.cons (result otherKnown) .nil)))

theorem isHeld_of_answer? (held : ∀ e ∈ question.operands, ∀ atom ∈ e.leaves, atom.IsHeld board) :
    ∀ quantity ∈ answer.operands, quantity.IsHeld board := by
  obtain ⟨negations, left, comparison⟩ := question
  obtain ⟨first, known, answered⟩ := bind_eq_some_iff.1 answered
  obtain ⟨leftHeld, others⟩ := forall_mem_cons.1 held
  have firstHeld := Expression.isHeld_of_quantity? known leftHeld
  rcases comparison with _ | ⟨op, right⟩
  · cases answered
    exact forall_mem_singleton.2 firstHeld
  · obtain ⟨second, otherKnown, answered⟩ := bind_eq_some_iff.1 answered
    cases answered
    refine forall_mem_cons.2 ⟨firstHeld, forall_mem_singleton.2 ?_⟩
    exact Expression.isHeld_of_quantity? otherKnown (others right mem_cons_self)

end

theorem isHeld_of_answers
    {questions : List (Question (Expression Atom .sum))} {answers : List (Question Quantity)}
    (answered : Forall₂ (fun question answer =>
      question.answer? board scores = some answer) questions answers)
    (held : ∀ question ∈ questions, ∀ e ∈ question.operands, ∀ atom ∈ e.leaves, atom.IsHeld board) :
    ∀ answer ∈ answers, ∀ quantity ∈ answer.operands, quantity.IsHeld board := by
  induction answered with
  | nil => exact forall_mem_nil _
  | cons first _ ih =>
    obtain ⟨firstHeld, othersHeld⟩ := forall_mem_cons.1 held
    exact forall_mem_cons.2 ⟨isHeld_of_answer? first firstHeld, ih othersHeld⟩

end Question

end ScriptPack
