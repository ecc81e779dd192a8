import Mathlib.Data.Int.ModEq
import ScriptPack.Proofs.Preparation

/-!
Assignments of integer expressions. Whatever the expression and the operator, the commands of the
statement leave in the counter what the operator makes of its old score and the value of the
expression, and change no other score but those of temporaries.
-/

namespace ScriptPack

open ArithOp Assignment Atom BuildM Counter CounterKind CounterM List Option Scores

open Scoreboard (temporaryObjective)

variable {scores : Scores} {board : Scoreboard} {result : Int32} {op : Option ArithOp}
  {accessor : String} {limit : Nat} {kind : CounterKind}
variable {target : Counter} {objective name : String} {value : Int32}

def assigned (op : Option ArithOp) (old value : Int32) : Option Int32 :=
  match op with
  | none => some value
  | some op => op.compute? old value

/-- Commands that give a score a value and change nothing else but new temporaries. -/
structure Assigns (limit : Nat) (objective : String) (commands : List Command)
    (scores final : Scores) (result : Int32) : Prop where
  replayed : ∀ calls, replayAll? calls commands scores = some final
  stored : final objective = result
  kept : ∀ other, other ≠ objective →
    (∀ index, limit ≤ index → other ≠ temporaryObjective index) →
    final other = scores other

theorem Assigns.of_put {command : Command}
    (replays : ∀ calls, command.replay? calls scores = some (scores.put objective result)) :
    Assigns limit objective [command] scores (scores.put objective result) result where
  replayed := fun calls => by rw [replayAll?_singleton, replays]
  stored := put_same _ _ _
  kept := fun _ different _ => put_other different

theorem Reaches.assigns {middleLimit : Nat} {first second : List Command} {middle final : Scores}
    (le : limit ≤ middleLimit) (early : Reaches limit first scores middle)
    (late : Assigns middleLimit objective second middle final result) :
    Assigns limit objective (first ++ second) scores final result where
  replayed := fun calls => by
    rw [replayAll?_append, early.replayed, bind_some, late.replayed]
  stored := late.stored
  kept := fun other different old => by
    rw [late.kept other different fun index bound => old index (le.trans bound),
      early.agrees other old]

namespace Counter

theorem replay?_change (calls : Calls) (scores : Scores) (objective : String) (amount : Int32) :
    (change selfTarget objective amount).replay? calls scores =
      some (scores.put objective (scores objective + amount)) := by
  unfold change
  split
  · simp only [Command.replay?, if_true, compute?_sub, map_some]
    rw [Int32.sub_neg]
  · simp only [Command.replay?, if_true, compute?_add, map_some]

theorem assigns_combine {left right : String}
    (computed : assigned op (scores left) (scores right) = some result) :
    Assigns limit left [combine selfTarget left op right] scores (scores.put left result) result := by
  apply Assigns.of_put
  intro calls
  cases op with
  | none =>
    cases computed
    exact replay?_copy calls left right
  | some op =>
    rw [replay?_combine]
    exact congrArg (Option.map (scores.put left)) computed

theorem assigns_held {index : Nat} (le : limit ≤ index) {left : String}
    {op : ArithOp} {value : Int32} (different : left ≠ temporaryObjective index)
    (computed : op.compute? (scores left) value = some result) :
    ∃ final, Assigns limit left
      [.scoreSet selfTarget (temporaryObjective index) value,
        combine selfTarget left (some op) (temporaryObjective index)]
      scores final result := by
  let held := scores.put (temporaryObjective index) value
  have holds : Reaches limit [.scoreSet selfTarget (temporaryObjective index) value] scores held :=
    ⟨fun calls => by rw [replayAll?_singleton, replay?_scoreSet], agreesBelow_put le scores value⟩
  have heldLeft : held left = scores left := put_other different
  have heldRight : held (temporaryObjective index) = value := put_same _ _ _
  have computedHeld : assigned (some op) (held left)
      (held (temporaryObjective index)) = some result := by
    rw [heldLeft, heldRight]
    exact computed
  exact ⟨_, holds.assigns le_rfl (assigns_combine computedHeld)⟩

end Counter

def CounterKind.isInteger : CounterKind → Bool
  | int | time => true
  | _ => false

theorem CounterKind.isIntegerLike_of_isInteger
    (integer : kind.isInteger = true) : kind.isIntegerLike = true := by
  cases kind <;> simp_all [isInteger, isIntegerLike]

theorem Counter.setLiteral_of_isInteger (integer : kind.isInteger = true) (value : Int32) :
    (⟨name, kind⟩ : Counter).setLiteral selfTarget (.int value) =
      [.scoreSet selfTarget name value] := by
  cases kind <;> simp_all [isInteger, setLiteral]

theorem Counter.assignLiteral_sum (simple : kind.isIntegerLike = true) {op : ArithOp}
    (isSum : op = .add ∨ op = .sub) (target : String) (value : Int32) :
    assignLiteral target ⟨name, kind⟩ (some op) (.int value) =
      if value = Int32.minValue then throw .overflow
      else pure [change target name (if op = .add then value else -value)] := by
  obtain rfl | rfl := isSum <;>
    cases kind <;> simp_all [assignLiteral, ofLiteral?, isIntegerLike, amount]

theorem Counter.change_amount {number : Int32} (hasOpposite : number ≠ Int32.minValue)
    (target objective : String) :
    ∃ amount, 0 ≤ amount ∧ (change target objective number = .scoreAdd target objective amount ∨
      change target objective number = .scoreRemove target objective amount) := by
  unfold change
  split
  next negative =>
    refine ⟨-number, ?_, .inr rfl⟩
    have low := number.le_toInt
    have limit : Int32.minValue.toInt = -2147483648 := rfl
    rw [Ne, ← Int32.toInt_inj, limit] at hasOpposite
    rw [Int32.lt_iff_toInt_lt, Int32.toInt_zero] at negative
    rw [Int32.le_iff_toInt_le, Int32.toInt_zero, Int32.toInt_neg, Int.bmod_def]
    split <;> omega
  next positive => exact ⟨number, Int32.not_lt.1 positive, .inl rfl⟩

/-- Adding a written integer to a simple counter, or taking it away, is one command with an amount that
is not negative, and changes the score by exactly the integer, around 32 bits. The least integer alone
has no opposite to find the amount with, and the assignment fails. -/
theorem Counter.literal_sums_exact {counter : Counter} (simple : counter.kind.isIntegerLike = true)
    {op : ArithOp} (isSum : op = .add ∨ op = .sub) (value : Int32) (board : Scoreboard) :
    (value = Int32.minValue → ∀ target,
      assignLiteral target counter (some op) (.int value) board = .error .overflow board) ∧
    (value ≠ Int32.minValue → ∃ sum : String → Command,
      (∀ target, assignLiteral target counter (some op) (.int value) board = .ok [sum target] board ∧
        ∃ amount, 0 ≤ amount ∧ (sum target = .scoreAdd target counter.name amount ∨
          sum target = .scoreRemove target counter.name amount)) ∧
      ∀ calls scores, ∃ result,
        (sum selfTarget).replay? calls scores = some (scores.put counter.name result) ∧
        Int.ModEq (2 ^ 32) result.toInt ((scores counter.name).toInt +
          if op = .add then value.toInt else -value.toInt)) := by
  obtain ⟨name, kind⟩ := counter
  refine ⟨fun least target => ?_, fun other => ?_⟩
  · rw [assignLiteral_sum simple isSum, if_pos least]
    rfl
  · refine ⟨fun target => change target name (if op = .add then value else -value), fun target => ⟨?_, ?_⟩,
      fun calls scores => ⟨_, replay?_change calls scores name _, ?_⟩⟩
    · rw [assignLiteral_sum simple isSum, if_neg other]
      rfl
    · refine change_amount ?_ target name
      split
      · exact other
      · grind
    · split
      · rw [Int32.toInt_add]
        exact Int.bmod_emod
      · rw [← Int32.sub_eq_add_neg, Int32.toInt_sub]
        exact Int.bmod_emod

/-- Taking the second least integer away adds the greatest one; the least cannot be taken away. -/
theorem Counter.literal_sums_exact_least :
    int.isIntegerLike = true ∧
    assignLiteral "@s" ⟨"a", .int⟩ (some .sub) (.int Int32.minValue) {} = .error .overflow {} ∧
    ∃ sum : String → Command, ∀ target,
      assignLiteral target ⟨"a", .int⟩ (some .sub) (.int (-2147483647)) {} = .ok [sum target] {} := by
  have sums := fun value => @literal_sums_exact ⟨"a", .int⟩ rfl .sub (.inr rfl) value {}
  obtain ⟨sum, emitted, -⟩ := (sums (-2147483647)).2 (by decide)
  exact ⟨rfl, (sums Int32.minValue).1 rfl "@s", sum, fun target => (emitted target).1⟩

theorem Counter.assignLiteral_product (integer : kind.isInteger = true) {op : ArithOp}
    (high : op.isHighTier = true) (value : Int32) :
    let held := temporaryObjective board.nextTemporary
    assignLiteral selfTarget ⟨name, kind⟩ (some op) (.int value) board =
      .ok [.scoreSet selfTarget held value, combine selfTarget name (some op) held]
        (board.temporary kind).2 := by
  intro held
  have combined : assign selfTarget ⟨name, kind⟩ (some op) ⟨held, kind⟩ =
      pure [combine selfTarget name (some op) held] :=
    assign_of_isIntegerLike selfTarget (some op)
      (isIntegerLike_of_isInteger integer)
      (isIntegerLike_of_isInteger integer)
  have loaded : (⟨held, kind⟩ : Counter).setLiteral selfTarget (.int value) = _ :=
    setLiteral_of_isInteger integer value
  have chosen : assignLiteral selfTarget ⟨name, kind⟩ (some op) (.int value) = do
      let temporary ← temporary kind
      let commands ← assign selfTarget ⟨name, kind⟩ (some op) temporary
      return temporary.setLiteral selfTarget (.int value) ++ commands := by
    cases kind <;> cases op <;> simp_all [isInteger, isHighTier] <;> rfl
  rw [chosen]
  change (assign selfTarget ⟨name, kind⟩ (some op) ⟨held, kind⟩ >>= fun commands =>
    pure ((⟨held, kind⟩ : Counter).setLiteral selfTarget (.int value) ++ commands) :
      CounterM (List Command)) (board.temporary kind).2 = _
  rw [combined, loaded]
  rfl

theorem Counter.assignLiteral_assigns {later : Scoreboard} {commands : List Command}
    (integer : target.kind.isInteger = true)
    (old : target.name ≠ temporaryObjective board.nextTemporary)
    (run : assignLiteral selfTarget target op (.int value) board = .ok commands later)
    (computed : assigned op (scores target.name) value = some result) :
    ∃ final, Assigns board.nextTemporary target.name commands scores final result := by
  obtain ⟨name, kind⟩ := target
  cases op with
  | none =>
    have written : commands = [.scoreSet selfTarget name value] := by
      rw [← setLiteral_of_isInteger integer value]
      cases run
      rfl
    cases computed
    rw [written]
    exact ⟨_, .of_put fun calls => replay?_scoreSet calls name _⟩
  | some op =>
    have product (high : op.isHighTier = true) :
        ∃ final, Assigns board.nextTemporary name commands scores final result := by
      rw [assignLiteral_product integer high] at run
      cases run
      exact assigns_held le_rfl old computed
    have sum (isSum : op = .add ∨ op = .sub) :
        ∃ final, Assigns board.nextTemporary name commands scores final result := by
      rw [assignLiteral_sum (isIntegerLike_of_isInteger integer) isSum] at run
      split at run
      · cases run
      · cases run
        have stored : scores name + (if op = .add then value else -value) = result := by
          obtain rfl | rfl := isSum
          · rw [assigned, compute?_add] at computed
            exact some.inj computed
          · rw [assigned, compute?_sub, Int32.sub_eq_add_neg] at computed
            exact some.inj computed
        exact ⟨_, .of_put fun calls => stored ▸ replay?_change calls scores name _⟩
    cases op with
    | add => exact sum (.inl rfl)
    | sub => exact sum (.inr rfl)
    | mul => exact product rfl
    | div => exact product rfl
    | mod => exact product rfl

namespace Assignment

variable {operand : Operand}

theorem commands_assigns {later : Scoreboard} {commands : List Command}
    (names : board.Names accessor target) (integer : target.kind.isInteger = true)
    (run : (⟨accessor, op, operand⟩ : Assignment).commands board = .ok commands later)
    {quantity : Quantity} (denotes : operand.kind.Denotes board scores (.quantity quantity))
    (computed : assigned op (scores target.name) quantity.value = some result) :
    ∃ final, Assigns board.nextTemporary target.name commands scores final result := by
  have found := get_of_some names.found
  cases operand with
  | literal value =>
    cases denotes with | literal value => ?_
    have literal : assignLiteral selfTarget target op (.int value) board = .ok commands later := by
      rw [← run]
      unfold Assignment.commands
      rw [bind_of_ok found]
    exact assignLiteral_assigns integer (names.name_old _ le_rfl) literal computed
  | counter other =>
    have simple := isIntegerLike_of_isInteger integer
    obtain ⟨counter, otherNames, value, -⟩ := denotes.counter_value
    have written : commands = [combine selfTarget target.name op counter.name] := by
      unfold Assignment.commands at run
      rw [bind_of_ok found] at run
      dsimp only at run
      rw [bind_of_ok (get_of_some otherNames.found),
        assign_of_isIntegerLike selfTarget op simple otherNames.simple] at run
      cases run
      rfl
    rw [value] at computed
    rw [written]
    exact ⟨_, assigns_combine computed⟩

theorem read_of_kinds {first second third : Token} (firstKind : first.kind = .counter accessor)
    (secondKind : second.kind = .assign op) (thirdKind : third.kind = operand.kind) :
    read [first, second, third] = .ok ⟨accessor, op, operand⟩ := by
  obtain ⟨_, firstLine⟩ := first
  obtain ⟨_, secondLine⟩ := second
  obtain ⟨_, thirdLine⟩ := third
  cases firstKind
  cases secondKind
  cases thirdKind
  cases operand <;> rfl

end Assignment

theorem BuildM.runOperation_eq_ok {tokens : List Token} {before after : Build}
    (run : runOperation tokens before = .ok () after) :
    ∃ assignment commands board, read tokens = .ok assignment ∧
      assignment.commands before.scoreboard = .ok commands board ∧
      emitAllSelected commands "operation" { before with scoreboard := board } = .ok () after := by
  obtain ⟨assignment, read, continued⟩ := bind_ofExcept_eq_ok_iff.1 run
  obtain ⟨commands, board, computed, emitted⟩ := bind_counters_eq_ok_iff.1 continued
  exact ⟨assignment, commands, board, read, computed, emitted⟩

/-- A token that stands for a counter as it was written is that counter. -/
theorem TokenKind.Denotes.eq_counter {kind : TokenKind}
    (denotes : kind.Denotes board scores (.quantity ⟨value, .counter accessor⟩)) :
    kind = .counter accessor := by
  cases denotes with
  | counter names => rfl

theorem TokenKind.Denotes.eq_mark {kind other : TokenKind}
    (denotes : kind.Denotes board scores (.mark other)) : kind = other := by
  cases denotes with
  | mark isMark => rfl

namespace Assignment

def phrases (accessor : String) (op : Option ArithOp) (e : Expression Atom .sum) :
    List (Phrase Atom) :=
  [.operand (.product (.factor (.leaf (.counter accessor)))), .mark (.assign op), .operand e]

theorem kinds_phrases (accessor : String) (op : Option ArithOp) (e : Expression Atom .sum) :
    (phrases accessor op e).flatMap (Phrase.kinds written) =
      .word accessor :: .assign op :: e.kinds written := by
  simp [phrases, Phrase.kinds, Expression.kinds, written]

theorem phrases_isHeld {e : Expression Atom .sum} (holds : board.Holds accessor target)
    (operands : ∀ atom ∈ e.leaves, atom.IsHeld board) :
    ∀ phrase ∈ phrases accessor op e, phrase.IsHeld board := by
  have first : ∀ atom ∈ [counter accessor], atom.IsHeld board :=
    forall_mem_singleton.2 ⟨target, holds⟩
  simp only [phrases, mem_cons, not_mem_nil, or_false, forall_eq_or_imp, forall_eq]
  exact ⟨first, rfl, operands⟩

/-- Evaluated tokens of an assignment are the counter, the operator and an operand. -/
theorem read_of_denote {tokens : List Token} {old : Int32} {quantity : Quantity}
    (denote : DenoteAll board scores tokens
      [.quantity ⟨old, .counter accessor⟩, .mark (.assign op), .quantity quantity]) :
    ∃ operand, read tokens = .ok ⟨accessor, op, operand⟩ ∧
      operand.kind.Denotes board scores (.quantity quantity) := by
  obtain ⟨first, _, firstDenotes, others, rfl⟩ := forall₂_cons_right_iff.1 denote
  obtain ⟨second, _, secondDenotes, last, rfl⟩ := forall₂_cons_right_iff.1 others
  obtain ⟨third, _, thirdDenotes, nothing, rfl⟩ := forall₂_cons_right_iff.1 last
  cases nothing
  obtain ⟨operand, view⟩ := thirdDenotes.operand_of_quantity
  have thirdKind := View.operand_eq_some_iff.1 view
  rw [thirdKind] at thirdDenotes
  exact ⟨operand, read_of_kinds firstDenotes.eq_counter secondDenotes.eq_mark thirdKind,
    thirdDenotes⟩

end Assignment

/-- The assignment that evaluated tokens make, for the executing entity without frames. -/
theorem BuildM.runOperation_assigns {tokens : List Token} {before after : Build} {accessor : String}
    {target : Counter} {op : Option ArithOp} (self : before.active = .self)
    (noFrames : before.frames = []) (names : before.scoreboard.Names accessor target)
    (integer : target.kind.isInteger = true) (run : runOperation tokens before = .ok () after) :
    ∃ commands board, after = { before with
        scoreboard := board
        file := before.file.append (commands.map .plain) } ∧
      ∀ scores old quantity result, DenoteAll before.scoreboard scores tokens
          [.quantity ⟨old, .counter accessor⟩, .mark (.assign op), .quantity quantity] →
        assigned op (scores target.name) quantity.value = some result →
        ∃ final, Assigns before.scoreboard.nextTemporary target.name commands scores final
          result := by
  obtain ⟨assignment, commands, board, read, computes, emits⟩ := runOperation_eq_ok run
  rw [@emitAllSelected_self { before with scoreboard := board } self noFrames commands] at emits
  cases emits
  refine ⟨commands, board, rfl, ?_⟩
  intro scores old quantity result denote computed
  obtain ⟨operand, operandRead, operandDenotes⟩ := read_of_denote denote
  rw [read] at operandRead
  cases operandRead
  exact commands_assigns names integer computes operandDenotes computed

section

variable {run : Runner} {statement : Statement} {before after : Build}
  {accessor : String} {target : Counter} {op : Option ArithOp} {e : Expression Atom .sum}

theorem BuildM.runStatement_assigns (isOperation : statement.kind = .operation)
    (spelled : statement.tokens.map Token.kind = .word accessor :: .assign op :: e.kinds written)
    (self : before.active = .self) (noFrames : before.frames = [])
    (holds : before.scoreboard.Holds accessor target) (integer : target.kind.isInteger = true)
    (operands : ∀ atom ∈ e.leaves, atom.IsHeld before.scoreboard)
    (ran : runStatement run statement (before.enter statement) = .ok () after) :
    ∃ commands, after.file = before.file.append (commands.map .plain) ∧ after.pack = before.pack ∧
      ∀ scores value result, e.value (Atom.value before.scoreboard scores) = some value →
        assigned op (scores target.name) value = some result →
        ∃ final, Assigns before.scoreboard.nextTemporary target.name commands scores final
          result := by
  simp only [runStatement, isOperation] at ran
  obtain ⟨tokens, prepared, prepares, operates⟩ := bind_eq_ok_iff.1 ran
  have entered : (before.enter statement).scoreboard.Holds accessor target := holds.pushScope
  rw [← kinds_phrases] at spelled
  obtain ⟨evaluation, lowers, replay⟩ := prepare_spelled (by simp [isOperation]) spelled
    (phrases_isHeld entered fun atom member => (operands atom member).pushScope) self noFrames prepares
  obtain ⟨commands, board, written, assigns⟩ := runOperation_assigns (lowers.active.trans self)
    (lowers.frames.trans noFrames) (entered.names.extend lowers.board) integer operates
  rw [written]
  refine ⟨evaluation ++ commands, ?_, lowers.pack, ?_⟩
  · have plain : (before.enter statement).framed = Line.plain := Build.framed_self self noFrames
    change prepared.file.append _ = _
    rw [lowers.file, plain, CommandFile.append_append, ← map_append]
    rfl
  · intro scores value result valued computed
    have quantity : e.quantity? (quantity (before.enter statement).scoreboard scores) =
        some ⟨value, e.source source⟩ :=
      congrArg (Option.map _) ((congrArg e.value (Atom.value_pushScope _ scores)).trans valued)
    obtain ⟨later, reaches, denote⟩ := replay scores
      [.quantity ⟨before.scoreboard.scoreOf scores accessor, .counter accessor⟩,
        .mark (.assign op), .quantity ⟨value, e.source source⟩]
      (.cons rfl (.cons rfl (.cons (congrArg (Option.map Symbol.quantity) quantity) .nil)))
    rw [← reaches.agrees _ entered.names.name_old] at computed
    obtain ⟨final, assigns⟩ := assigns later _ _ result denote computed
    exact ⟨final, reaches.assigns lowers.board.next_le assigns⟩

end

/-- An assignment `target op= e`, run for the executing entity without frames. Where no division by
zero occurs, replaying its commands leaves in the target what the operator makes of its old score
and the value of the expression, and every other score but those of temporaries as it was. -/
theorem assignment_replay {run : List Statement → BuildM Unit} {statement : Statement}
    {before after : Build} {accessor : String} {target : Counter} {op : Option ArithOp}
    {e : Expression Atom .sum} (isOperation : statement.kind = .operation)
    (spelled : statement.tokens.map Token.kind =
      .word accessor :: .assign op :: e.kinds Atom.written)
    (self : before.active = .self) (noFrames : before.frames = [])
    (holds : before.scoreboard.Holds accessor target) (integer : target.kind.isInteger = true)
    (operands : ∀ atom ∈ e.leaves, atom.IsHeld before.scoreboard)
    (compiled : BuildM.runScoped run statement before = .ok () after) :
    ∃ commands, after.file = before.file.append (commands.map .plain) ∧ after.pack = before.pack ∧
      ∀ calls scores value result,
        e.value (Atom.value before.scoreboard scores) = some value →
        assigned op (scores target.name) value = some result →
        ∃ final, replayAll? calls commands scores = some final ∧ final target.name = result ∧
          ∀ objective, objective ≠ target.name →
            (∀ index, objective ≠ Scoreboard.temporaryObjective index) →
            final objective = scores objective := by
  obtain ⟨middle, unreachable, ran, rfl⟩ := runScoped_eq_ok compiled
  obtain ⟨commands, file, pack, assigns⟩ := runStatement_assigns isOperation spelled self
    noFrames holds integer operands ran
  refine ⟨commands, (Build.settlePops_file _).trans file, (Build.settlePops_pack _).trans pack, ?_⟩
  intro calls scores value result valued computed
  obtain ⟨final, whole⟩ := assigns scores value result valued computed
  exact ⟨final, whole.replayed calls, whole.stored, fun objective different free =>
    whole.kept objective different fun index _ => free index⟩

namespace Assignment

def defining (names : List String) : Build :=
  { Build.start {} "main" {} with
    scoreboard := names.foldl (fun board name => board.addCounter ⟨name, .int⟩) {} }

def sample : Expression Atom .sum :=
  .product (.times
    (.times
      (.factor (.group (.plus (.product (.factor (.leaf (.counter "a")))) .add rfl
        (.factor (.leaf (.number 7))))))
      .mul rfl (.leaf (.counter "b")))
    .mod rfl (.leaf (.number 4)))

def statementOf (accessor : String) (op : Option ArithOp) (e : Expression Atom .sum) : Statement where
  kind := .operation
  tokens := (.word accessor :: .assign op :: e.kinds written).map fun kind => ⟨kind, 1⟩
  line := 1
  source := ""

end Assignment

/-- The remainder of `(3 + 7) * 3` by 4 is subtracted from 9, and the operands stay. -/
theorem assignment_replay_remainder :
    ∃ after, BuildM.runScoped (fun _ => pure ()) (Assignment.statementOf "r" (some .sub)
        Assignment.sample) (Assignment.defining ["r", "a", "b"]) = .ok () after ∧
      ∃ commands final, after.file.lines = commands.map .plain ∧
        replayAll? (fun _ _ => none) commands
          (fun objective => if objective = "r" then 9 else 3) = some final ∧
        final "r" = 7 ∧ final "a" = 3 ∧ final "b" = 3 := by
  have success : succeeds (runScoped (fun _ => pure ())
      (statementOf "r" (some .sub) sample)
      (defining ["r", "a", "b"])) = true := by decide +kernel
  obtain ⟨_, after, ran⟩ := exists_ok_of_succeeds success
  have target : (defining ["r", "a", "b"]).scoreboard.Holds "r" ⟨"r", .int⟩ :=
    ⟨by decide, rfl, by decide, by decide⟩
  have operands : ∀ atom ∈ sample.leaves, atom.IsHeld (defining ["r", "a", "b"]).scoreboard := by
    simp only [sample, Expression.leaves, cons_append, nil_append,
      mem_cons, not_mem_nil, or_false, forall_eq_or_imp, forall_eq]
    exact ⟨⟨⟨"a", .int⟩, by decide, rfl, by decide, by decide⟩, trivial,
      ⟨⟨"b", .int⟩, by decide, rfl, by decide, by decide⟩, trivial⟩
  obtain ⟨commands, file, -, replay⟩ := assignment_replay rfl rfl rfl rfl target rfl operands ran
  obtain ⟨final, replayed, stored, kept⟩ := replay (fun _ _ => none)
    (fun objective => if objective = "r" then 9 else 3) 2 7 (by decide) (by decide)
  refine ⟨after, ran, commands, final, by rw [file]; rfl, replayed, stored, ?_, ?_⟩
  · exact kept "a" (by decide) (Scoreboard.ne_temporaryObjective (by decide))
  · exact kept "b" (by decide) (Scoreboard.ne_temporaryObjective (by decide))

def Assignment.sampleSum (accessor : String) : Expression Atom .sum :=
  .plus (.product (.times (.factor (.leaf (.counter accessor))) .mul rfl (.leaf (.number 2)))) .add
    rfl (.times (.factor (.leaf (.counter accessor))) .mul rfl (.leaf (.number 3)))

/-- A score after an assignment that is run on its own, if it compiles and can be replayed. -/
def Assignment.scoreAfter (names : List String) (statement : Statement) (scores : Scores)
    (objective : String) : Option Int32 :=
  match runScoped (fun _ => pure ()) statement (defining names) with
  | .ok _ after => (replayLines? (fun _ _ => none) after.file.lines scores).map (· objective)
  | .error _ _ => none

/-- A name that starts like those of temporaries in another case is taken for one. As an operand,
it is read as the temporary that holds the 2; as a target, it keeps its score. -/
theorem assignment_taken_for_temporary :
    let ones : Scores := fun objective => if objective = "_MCC_TMP0" then 1 else 0
    "_MCC_TMP0".startsWith Scoreboard.temporaryName = false ∧
      (Assignment.sampleSum "_MCC_TMP0").value
        (Atom.value (Assignment.defining ["r", "_MCC_TMP0"]).scoreboard ones) = some 5 ∧
      Assignment.scoreAfter ["r", "_MCC_TMP0"]
        (Assignment.statementOf "r" none (Assignment.sampleSum "_MCC_TMP0")) ones "r" = some 8 ∧
      Assignment.scoreAfter ["a", "_MCC_TMP0"]
        (Assignment.statementOf "_MCC_TMP0" (some .add) (Assignment.sampleSum "a"))
        (fun _ => 1) "_MCC_TMP0" = some 1 := by
  decide +kernel

end ScriptPack
