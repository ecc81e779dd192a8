import ScriptPack.Proofs.Comparisons

/-!
Flags. A condition on a boolean counter tests whether its score is one, and its else whether it is
zero, so they decide between them only while the score is one or the other. Literals are reduced to
that, but the scores of other counters are copied, added and multiplied as they are. Main result:
which scores are zero or one after any changes of counters.
-/

namespace ScriptPack

open Comparison Counter CounterKind Option

def IsBit (value : Int32) : Prop :=
  value = 0 ∨ value = 1

/-- When an operation on a flag leaves zero or one, by what is known of both sides: never a sum or a
difference, and a remainder by any number. -/
structure KeepsBit (op : Option ArithOp) (left right : Prop) : Prop where
  noSum : op ≠ some .add ∧ op ≠ some .sub
  left : op = none ∨ left
  right : op = some .mod ∨ right

theorem KeepsBit.imp {op : Option ArithOp} {left right other another : Prop} (keeps : KeepsBit op left right)
    (ofLeft : left → other) (ofRight : right → another) : KeepsBit op other another :=
  ⟨keeps.noSum, keeps.left.imp_right ofLeft, keeps.right.imp_right ofRight⟩

theorem ArithOp.isBit_compute? {op : ArithOp} {left right value : Int32}
    (keeps : KeepsBit (some op) (IsBit left) (IsBit right))
    (computed : op.compute? left right = some value) : IsBit value := by
  have isLeft := keeps.left.resolve_left nofun
  cases op with
  | add => exact absurd rfl keeps.noSum.1
  | sub => exact absurd rfl keeps.noSum.2
  | mul | div =>
    obtain rfl | rfl := keeps.right.resolve_left nofun <;> obtain rfl | rfl := isLeft <;> cases computed
    all_goals first | exact .inl rfl | exact .inr rfl
  | mod =>
    obtain ⟨-, ⟨⟩⟩ := ite_none_left_eq_some.1 computed
    obtain rfl | rfl := isLeft
    · exact .inl (by rw [show (0 : Int32).toInt = 0 from rfl, Int.zero_tmod]; rfl)
    · have nonneg : 0 ≤ (1 : Int).tmod right.toInt := Int.tmod_nonneg _ (by decide)
      have small : ((1 : Int).tmod right.toInt).natAbs ≤ 1 := Int.natAbs_tmod _ _ ▸ Nat.mod_le _ _
      obtain none | one : (1 : Int).tmod right.toInt = 0 ∨ (1 : Int).tmod right.toInt = 1 := by omega
      · exact .inl (congrArg Int32.ofInt none)
      · exact .inr (congrArg Int32.ofInt one)

theorem Counter.setLiteral_bool {name target : String} {literal : Value}
    (numeric : (ofLiteral? literal).isSome = true) : ∃ value, IsBit value ∧
      (⟨name, .bool⟩ : Counter).setLiteral target literal = [.scoreSet target name value] := by
  have isBit (value : Int32) : IsBit (parity value) :=
    (Int.emod_two_eq_zero_or_one value.toInt).imp (congrArg Int32.ofInt) (congrArg Int32.ofInt)
  cases literal with
  | int value => exact ⟨_, isBit value, rfl⟩
  | float value => exact ⟨_, isBit value.roundInt32, rfl⟩
  | bool value => exact ⟨_, by cases value <;> simp [IsBit], rfl⟩
  | _ => cases numeric

/-- A change of a counter by an operand, for which temporaries are taken from `board`. -/
structure CounterChange where
  board : Scoreboard
  left : Counter
  op : Option ArithOp
  operand : Operand

namespace CounterChange

def outcome (change : CounterChange) : EStateM.Result CounterError Scoreboard (List Command) :=
  match change.operand with
  | .literal value => assignLiteral selfTarget change.left change.op value change.board
  | .counter accessor =>
      (CounterM.get accessor >>= assign selfTarget change.left change.op) change.board

/-- An assignment is the change of the counter that it names. -/
theorem outcome_of_assignment {board : Scoreboard} {left : Counter} {assignment : Assignment}
    (found : board.get? assignment.accessor = some left) :
    outcome ⟨board, left, assignment.op, assignment.operand⟩ = assignment.commands board := by
  rw [Assignment.commands, CounterM.bind_of_ok (CounterM.get_of_some found)]
  cases assignment.operand <;> rfl

/-- A value that is passed to a parameter or returned changes the counter for it. -/
theorem outcome_of_passing (board : Scoreboard) (left : Counter) (operand : Operand) :
    outcome ⟨board, left, none, operand⟩ = assignOperand selfTarget left operand board := by
  cases operand <;> rfl

/-- Whether the operand of a flag is zero or one, by the scores that are known to be so. -/
def HasBit (change : CounterChange) (flags : String → Prop) : Prop :=
  match change.operand with
  | .literal value => (ofLiteral? value).isSome = true
  | .counter accessor => ∃ name, change.board.get? accessor = some ⟨name, .bool⟩ ∧ flags name

/-- The scores that are known to be zero or one after a change, by those that were before it. -/
def known (flags : String → Prop) (change : CounterChange) (name : String) : Prop :=
  change.left = ⟨name, .bool⟩ ∧ KeepsBit change.op (flags name) (change.HasBit flags) ∨
    flags name ∧ ¬Counter.Assignable change.board.nextTemporary change.left.name name

/-- One change after the other, as long as no divisor is zero. -/
def replayAll? (calls : Calls) : List CounterChange → Scores → Option Scores
  | [], scores => some scores
  | change :: rest, scores =>
      match change.outcome with
      | .ok commands _ =>
          (ScriptPack.replayAll? calls commands scores).bind (replayAll? calls rest)
      | .error _ _ => none

variable {flags : String → Prop} {change : CounterChange} {calls : Calls} {scores final : Scores}
  {name : String} {op : Option ArithOp} {board later : Scoreboard} {commands : List Command}

theorem outcome_counter {left : Counter} {accessor : String}
    (ran : outcome ⟨board, left, op, .counter accessor⟩ = .ok commands later) :
    ∃ right, board.get? accessor = some right ∧
      assign selfTarget left op right board = .ok commands later := by
  obtain ⟨right, _, got, assigns⟩ := CounterM.bind_eq_ok_iff.1 ran
  obtain ⟨found, rfl⟩ := CounterM.get_eq_ok_iff.1 got
  exact ⟨right, found, assigns⟩

theorem allWrite_of_outcome (ran : change.outcome = .ok commands later) :
    AllWrite (Counter.Assignable change.board.nextTemporary change.left.name) commands := by
  obtain ⟨board, left, op, literal | accessor⟩ := change
  · exact (assignLiteral_writes ran).2
  · obtain ⟨right, -, assigns⟩ := outcome_counter ran
    exact (assign_writes assigns).2

theorem isBit_combine {right : String}
    (keeps : KeepsBit op (IsBit (scores name)) (IsBit (scores right)))
    (replayed : (combine selfTarget name op right).replay? calls scores = some final) :
    IsBit (final name) := by
  cases op with
  | none =>
    rw [replay?_copy] at replayed
    cases replayed
    rw [Scores.put_same]
    exact keeps.right.resolve_left nofun
  | some op =>
    rw [replay?_combine] at replayed
    obtain ⟨value, computed, rfl⟩ := map_eq_some_iff.1 replayed
    rw [Scores.put_same]
    exact ArithOp.isBit_compute? keeps computed

theorem isBit_literal {literal : Value}
    (keeps : KeepsBit op (IsBit (scores name)) ((ofLiteral? literal).isSome = true))
    (ran : assignLiteral selfTarget ⟨name, .bool⟩ op literal board = .ok commands later)
    (replayed : ScriptPack.replayAll? calls commands scores = some final) : IsBit (final name) := by
  cases op with
  | none =>
    obtain ⟨value, isBit, written⟩ := @setLiteral_bool name selfTarget literal
      (keeps.right.resolve_left nofun)
    cases ran
    rw [written, replayAll?_singleton, replay?_scoreSet] at replayed
    cases replayed
    rwa [Scores.put_same]
  | some op =>
    -- the literal is held in a temporary, which is a flag as well
    let held := Scoreboard.temporaryObjective board.nextTemporary
    have computed : (ofLiteral? literal).isSome = true ∧ commands =
        (⟨held, .bool⟩ : Counter).setLiteral selfTarget literal ++
          [combine selfTarget name (some op) held] := by
      unfold assignLiteral at ran
      cases known : ofLiteral? literal with
      | none =>
        rw [known] at ran
        cases ran
      | some kind =>
        rw [known] at ran
        cases op with
        | add => exact absurd rfl keeps.noSum.1
        | sub => exact absurd rfl keeps.noSum.2
        | mul | div | mod =>
          cases ran
          exact ⟨rfl, rfl⟩
    obtain ⟨value, isBit, written⟩ := @setLiteral_bool held selfTarget literal computed.1
    rw [computed.2, written, List.singleton_append, replayAll?_cons, replay?_scoreSet,
      bind_some, replayAll?_singleton] at replayed
    refine isBit_combine (keeps.imp (fun isLeft => ?_) fun _ => ?_) replayed
    · unfold Scores.put
      split
      · exact isBit
      · exact isLeft
    · rwa [Scores.put_same]

/-- What one change leaves of what is known. -/
theorem isBit_of_known (bits : ∀ name, flags name → IsBit (scores name))
    (ran : change.outcome = .ok commands later)
    (replayed : ScriptPack.replayAll? calls commands scores = some final)
    (known : change.known flags name) : IsBit (final name) := by
  obtain ⟨isFlag, keeps⟩ | ⟨flag, apart⟩ := known
  · obtain ⟨board, left, op, literal | accessor⟩ := change
    · cases isFlag
      exact isBit_literal (keeps.imp (bits name) id) ran replayed
    · cases isFlag
      obtain ⟨⟨rightName, kind⟩, found, assigns⟩ := outcome_counter ran
      -- of a decimal the whole part is read, which is only known to be a number
      obtain ⟨right, rfl, isRight⟩ : ∃ right, commands = [combine selfTarget name op right] ∧
          (kind = .bool → right = rightName) := by
        cases kind with
        | record => cases assigns
        | int | time | bool | decimal =>
          cases assigns
          exact ⟨_, rfl, by rintro ⟨⟩ <;> rfl⟩
      rw [replayAll?_singleton] at replayed
      refine isBit_combine (keeps.imp (bits name) ?_) replayed
      rintro ⟨other, isOther, flag⟩
      cases some.inj (found.symm.trans isOther)
      rw [isRight rfl]
      exact bits _ flag
  · rw [(allWrite_of_outcome ran).agrees replayed name apart]
    exact bits name flag

theorem isBit_of_replayAll? {changes : List CounterChange}
    (bits : ∀ name, flags name → IsBit (scores name))
    (replayed : replayAll? calls changes scores = some final)
    (isKnown : changes.foldl known flags name) : IsBit (final name) := by
  induction changes generalizing flags scores with
  | nil =>
    cases replayed
    exact bits name isKnown
  | cons change rest ih =>
    rw [replayAll?] at replayed
    split at replayed
    · next commands later ran =>
      obtain ⟨middle, first, continued⟩ := bind_eq_some_iff.1 replayed
      exact ih (fun _ => isBit_of_known bits ran first) continued isKnown
    · cases replayed

end CounterChange

/-- After any changes of counters, the score of a counter is zero or one where it is known to be so, and
a condition on the counter holds just where its else does not. A flag stays known while it is set to literals and to flags,
multiplied and divided by them, and reduced by remainders; a copy, product or quotient of another number,
a sum and a difference may leave any number. -/
theorem flags_after_changes {flags : String → Prop} {changes : List CounterChange} {calls : Calls}
    {scores final : Scores} (bits : ∀ name, flags name → IsBit (scores name))
    (replayed : CounterChange.replayAll? calls changes scores = some final) {counter : Counter}
    (isKnown : changes.foldl CounterChange.known flags counter.name) (board : Scoreboard) :
    IsBit (final counter.name) ∧
    Comparison.failAny board [⟨.flag counter, false⟩] final =
      !Comparison.passAll board [⟨.flag counter, false⟩] final := by
  have isBit := CounterChange.isBit_of_replayAll? bits replayed isKnown
  refine ⟨isBit, ?_⟩
  obtain none | one := isBit
  · simp [failAny, passAll, negate, passes, none]
  · simp [failAny, passAll, negate, passes, one]

namespace Flags

def changes : List CounterChange :=
  [⟨{}, ⟨"f", .bool⟩, none, .literal (.int 3)⟩, ⟨{}, ⟨"f", .bool⟩, some .mul, .literal (.int 5)⟩]

end Flags

/-- After `f = 3` and `f *= 5` the flag is zero or one. -/
theorem flags_after_changes_reduced :
    ∃ final, CounterChange.replayAll? (fun _ _ => none) Flags.changes (fun _ => 0) = some final ∧
      IsBit (final "f") := by
  obtain ⟨final, replayed⟩ : ∃ final,
      CounterChange.replayAll? (fun _ _ => none) Flags.changes (fun _ => 0) = some final := ⟨_, rfl⟩
  have isKnown : Flags.changes.foldl CounterChange.known (fun _ => False) "f" :=
    .inl ⟨rfl, by decide, .inr (.inl ⟨rfl, by decide, .inl rfl, .inr rfl⟩), .inr rfl⟩
  obtain ⟨isBit, -⟩ :=
    @flags_after_changes _ _ _ _ _ (fun _ => False.elim) replayed ⟨"f", .bool⟩ isKnown {}
  exact ⟨final, replayed, isBit⟩

end ScriptPack
