import Mathlib.Tactic.Linarith
import Mathlib.Tactic.Ring
import ScriptPack.Proofs.FixedPoint

/-!
Assignments to decimals. A decimal of precision `p` is its whole part times `10 ^ p` plus its
decimals; where nothing overflows and no divisor is zero, `=`, `+=`, `-=`, `*=`, `/=` and `%=` are
the operations of fixed-point arithmetic on that number. The right side may be the decimal itself,
since both sides are loaded before anything of the left side is written.
-/

namespace ScriptPack

open CounterM Number Option

open Scores (put_other put_put put_same)

namespace Counter

open Scoreboard (temporaryObjective)

/-- What fixed-point arithmetic makes of a number times `10 ^ precision` and a counter. Products and
quotients with an integer need no power of ten. -/
def fixedResult (right : Counter) (precision : Nat) (scores : Scores) (op : Option ArithOp)
    (left : Int) : Int :=
  let other := right.scaled precision scores
  match op, right.kind with
  | none, _ => other
  | some .add, _ => left + other
  | some .sub, _ => left - other
  | some .mul, .decimal _ => (left * other).tdiv (10 ^ precision)
  | some .mul, _ => left * (scores right.name).toInt
  | some .div, .decimal _ => (left * 10 ^ precision).tdiv other
  | some .div, _ => left.tdiv (scores right.name).toInt
  | some .mod, _ => left.tmod other

/-- What an operation over the integers gives that was possible. -/
def onInt : ArithOp → Int → Int → Int
  | .add, left, right => left + right
  | .sub, left, right => left - right
  | .mul, left, right => left * right
  | .div, left, right => left.tdiv right
  | .mod, left, right => left.tmod right

theorem eq_onInt_of_onInt? {op : ArithOp} {left right value : Int}
    (computed : op.onInt? left right = some value) : value = onInt op left right := by
  cases op with
  | add | sub | mul => exact (some.inj computed).symm
  | div | mod =>
    rw [ArithOp.onInt?, ite_none_left_eq_some] at computed
    exact (some.inj computed.2).symm

section Operation

variable {board : Scoreboard} {fixed unit : String} {right : Counter} {precision : Nat}
  {op : Option ArithOp} {calls : Calls} {scores final : Scores}

/-- The fixed-point score after the operation; besides, only new temporaries are written. -/
structure Operates (board : Scoreboard) (fixed : String) (right : Counter) (precision : Nat)
    (op : Option ArithOp) (scores final : Scores) : Prop where
  value : (final fixed).toInt = right.fixedResult precision scores op (scores fixed).toInt
  kept : ∀ objective, objective ≠ fixed →
    (∀ index, board.nextTemporary ≤ index → objective ≠ temporaryObjective index) →
    final objective = scores objective

theorem Operates.of_put {middle : Scores} {value : Int32}
    (agrees : Scores.AgreesBelow board.nextTemporary scores middle)
    (result : value.toInt = right.fixedResult precision scores op (scores fixed).toInt) :
    Operates board fixed right precision op scores (middle.put fixed value) := by
  refine ⟨by rw [put_same, result], fun objective different old => ?_⟩
  rw [put_other different, agrees objective old]

end Operation

section Operation

variable {board : Scoreboard} {fixed unit : String} {right : Counter} {precision : Nat}

theorem fixedOperation_exact (op : Option ArithOp) (smallOwn : right.kind.precision < 10)
    (small : precision < 10)
    (unitOld : ∀ index, board.nextTemporary ≤ index → unit ≠ temporaryObjective index)
    (fixedOld : ∀ index, board.nextTemporary ≤ index → fixed ≠ temporaryObjective index)
    (unitApart : unit ≠ fixed) :
    ∃ commands later,
      fixedOperation selfTarget fixed unit op right (toFixed selfTarget right precision unit) board =
        .ok commands later ∧ board.Extends later ∧
      ∀ calls scores final, (scores unit).toInt = 10 ^ precision →
        replayExact? calls commands scores = some final →
        Operates board fixed right precision op scores final := by
  have otherApart := (fixedOld _ le_rfl).symm
  obtain ⟨later, loads, extension, -⟩ := toFixed_eq right precision unit board
  have loaded {calls : Calls} {scores final : Scores} {tail : List Command}
      (holdsUnit : (scores unit).toInt = 10 ^ precision)
      (replayed : replayExact? calls
        (right.loadCommands precision unit board.nextTemporary ++ tail) scores = some final) :
      ∃ middle, replayExact? calls tail middle = some final ∧
        (middle (temporaryObjective board.nextTemporary)).toInt = right.scaled precision scores ∧
        middle fixed = scores fixed ∧ (middle unit).toInt = 10 ^ precision ∧
        Scores.AgreesBelow board.nextTemporary scores middle := by
    rw [replayExact?_append] at replayed
    obtain ⟨middle, replayedLoad, continued⟩ := bind_eq_some_iff.1 replayed
    obtain ⟨value, agrees⟩ := loadCommands_exact unitOld smallOwn small holdsUnit replayedLoad
    refine ⟨middle, continued, value, agrees fixed fixedOld, ?_, agrees⟩
    rw [agrees unit unitOld, holdsUnit]
  obtain ⟨name, kind⟩ := right
  cases op with
  | none =>
    refine ⟨_, later, bind_of_ok loads, extension, ?_⟩
    intro calls scores final holdsUnit replayed
    obtain ⟨middle, replayed, value, -, -, agrees⟩ := loaded holdsUnit replayed
    rw [replayExact?_copy] at replayed
    cases replayed
    exact .of_put agrees value
  | some op =>
    cases op with
    | add | sub | mod =>
      refine ⟨_, later, bind_of_ok loads, extension, ?_⟩
      intro calls scores final holdsUnit replayed
      obtain ⟨middle, replayed, value, same, -, agrees⟩ := loaded holdsUnit replayed
      obtain ⟨result, computed, ended⟩ := replayExact?_combine replayed
      cases ended
      rw [same, value] at computed
      exact .of_put agrees (eq_onInt_of_onInt? computed)
    | mul | div =>
      cases kind with
      | decimal own =>
        refine ⟨_, later, bind_of_ok loads, extension, ?_⟩
        intro calls scores final holdsUnit replayed
        obtain ⟨middle, replayed, value, same, held, agrees⟩ := loaded holdsUnit replayed
        obtain ⟨product, multiplied, replayed⟩ := replayExact?_combine replayed
        obtain ⟨result, divided, ended⟩ := replayExact?_combine replayed
        cases ended
        simp only [same, value, held, put_same, put_other unitApart,
          put_other otherApart] at multiplied divided
        rw [put_put]
        refine .of_put agrees ?_
        rw [eq_onInt_of_onInt? divided, eq_onInt_of_onInt? multiplied]
        rfl
      | int | time | bool | record =>
        refine ⟨_, board, rfl, .refl board, ?_⟩
        intro calls scores final _ replayed
        obtain ⟨result, computed, ended⟩ := replayExact?_combine replayed
        cases ended
        exact .of_put (.refl _ _) (eq_onInt_of_onInt? computed)

end Operation

/-- The decimals after an assignment: an integer has none, sums with one leave them as they are, and
any other result is cut off toward zero. -/
def placesAfter (right : Counter) (precision : Nat) (op : Option ArithOp) (before value : Int) : Int :=
  match right.kind, op with
  | .decimal _, _ => value.tmod (10 ^ precision)
  | _, none => 0
  | _, some .add | _, some .sub => before
  | _, _ => value.tmod (10 ^ precision)

/-- What an assignment to a decimal does: its number changes as in fixed-point arithmetic, and
besides its scores only new temporaries are written. -/
structure AssignsDecimal (board : Scoreboard) (left right : Counter) (precision : Nat)
    (op : Option ArithOp) (scores final : Scores) : Prop where
  value : left.scaled precision final =
    right.fixedResult precision scores op (left.scaled precision scores)
  kept : ∀ objective, objective ≠ left.whole → objective ≠ left.part →
    (∀ index, board.nextTemporary ≤ index → objective ≠ temporaryObjective index) →
    final objective = scores objective
  places : (final left.part).toInt = right.placesAfter precision op (scores left.part).toInt
    (left.scaled precision final)

section Assignment

variable {board : Scoreboard} {left right : Counter} {precision : Nat}

theorem whole_ne_part (counter : Counter) : counter.whole ≠ counter.part := by
  intro same
  have different : ":w" ≠ ":d" := by decide
  exact different ((String.append_right_inj _).1 same)

theorem fixedResult_congr (notRecord : ∀ name fields, right.kind ≠ .record name fields)
    {scores later : Scores}
    (same : ∀ objective ∈ right.objectives, later objective = scores objective)
    (precision : Nat) (op : Option ArithOp) (value : Int) :
    right.fixedResult precision later op value = right.fixedResult precision scores op value := by
  have scaled := (forms_congr notRecord same).1 precision
  obtain ⟨name, kind⟩ := right
  cases kind with
  | record record fields => exact absurd rfl (notRecord record fields)
  | decimal own =>
    cases op with
    | none => exact scaled
    | some op => cases op <;> simp only [fixedResult, scaled]
  | int | time | bool =>
    have score := same name List.mem_cons_self
    cases op with
    | none => exact scaled
    | some op => cases op <;> simp only [fixedResult, scaled, score]

/-- The commands that split a fixed-point score into the two of a decimal. -/
def splitCommands (left : Counter) (fixed unit : String) : List Command :=
  [combine selfTarget left.whole none fixed, combine selfTarget left.whole (some .div) unit,
    combine selfTarget left.part none fixed, combine selfTarget left.part (some .mod) unit]

theorem splitCommands_exact (isDecimal : left.kind = .decimal precision) (fixed unit : Nat)
    {calls : Calls} {scores final : Scores}
    (holdsUnit : (scores (temporaryObjective unit)).toInt = 10 ^ precision)
    (replayed : replayExact? calls
      (left.splitCommands (temporaryObjective fixed) (temporaryObjective unit)) scores = some final) :
    left.scaled precision final = (scores (temporaryObjective fixed)).toInt ∧
      (final left.part).toInt = (scores (temporaryObjective fixed)).toInt.tmod (10 ^ precision) ∧
      ∀ objective, objective ≠ left.whole → objective ≠ left.part →
        final objective = scores objective := by
  have wholeApart (index : Nat) := (left.ne_temporaryObjective index).1.symm
  have partApart (index : Nat) := (left.ne_temporaryObjective index).2.symm
  rw [splitCommands, replayExact?_copy] at replayed
  obtain ⟨quotient, divided, replayed⟩ := replayExact?_combine replayed
  rw [replayExact?_copy] at replayed
  obtain ⟨remainder, reduced, ended⟩ := replayExact?_combine replayed
  cases ended
  rw [put_same, put_other (wholeApart unit), holdsUnit] at divided
  rw [put_same, put_put, put_other (wholeApart fixed),
    put_other (partApart unit), put_other (wholeApart unit), holdsUnit] at reduced
  refine ⟨?_, ?_, fun objective notWhole notPart => ?_⟩
  · rw [scaled_decimal isDecimal, put_same, put_put, put_put,
      put_other left.whole_ne_part, put_same, eq_onInt_of_onInt? divided,
      eq_onInt_of_onInt? reduced, onInt, onInt]
    have joined := Int.mul_tdiv_add_tmod (scores (temporaryObjective fixed)).toInt (10 ^ precision)
    linarith
  · rw [put_same, eq_onInt_of_onInt? reduced, onInt]
  · rw [put_put, put_put, put_other notPart, put_other notWhole]

/-- Through fixed-point scores: both sides are loaded, combined and split again. -/
theorem assignFixed_exact (isDecimal : left.kind = .decimal precision) (small : precision < 10)
    (smallOwn : right.kind.precision < 10) (apart : right.IsApart board.nextTemporary)
    {op : Option ArithOp}
    (cut : ∀ before value, right.placesAfter precision op before value = value.tmod (10 ^ precision)) :
    ∃ commands later, assignFixed selfTarget left precision op right board = .ok commands later ∧
      ∀ calls scores final, replayExact? calls commands scores = some final →
        AssignsDecimal board left right precision op scores final := by
  let unit := temporaryObjective board.nextTemporary
  let fixed := temporaryObjective (board.nextTemporary + 1)
  let held := (board.temporary .int).2
  have heldNext : held.nextTemporary = board.nextTemporary + 1 := board.nextTemporary_temporary .int
  obtain ⟨loaded, loads, loadExtends, loadedNext⟩ := toFixed_eq left precision unit held
  rw [heldNext] at loads loadedNext
  have unitOld : ∀ index, board.nextTemporary + 1 ≤ index → unit ≠ temporaryObjective index :=
    fun index bound => temporaryObjective_ne (by omega)
  have fixedOld : ∀ index, loaded.nextTemporary ≤ index → fixed ≠ temporaryObjective index :=
    fun index bound => temporaryObjective_ne (by omega)
  have unitApart : unit ≠ fixed := temporaryObjective_ne (by omega)
  obtain ⟨operation, later, operates, operationExtends, spec⟩ :=
    @fixedOperation_exact loaded fixed unit right precision op smallOwn small
      (fun index bound => unitOld index (by omega)) fixedOld unitApart
  refine ⟨[.scoreSet selfTarget unit (tenPower precision)] ++
    left.loadCommands precision unit (board.nextTemporary + 1) ++ operation ++
    left.splitCommands fixed unit, later, ?_, ?_⟩
  · have constants : constant selfTarget (tenPower precision) board =
        .ok (unit, [.scoreSet selfTarget unit (tenPower precision)]) held := rfl
    exact (bind_of_ok constants).trans ((bind_of_ok loads).trans ((bind_of_ok operates).trans rfl))
  · intro calls scores final replayed
    rw [List.append_assoc, List.append_assoc, List.singleton_append, replayExact?_scoreSet,
      replayExact?_append] at replayed
    obtain ⟨first, replayedLoad, replayed⟩ := bind_eq_some_iff.1 replayed
    rw [replayExact?_append] at replayed
    obtain ⟨second, replayedOperation, replayed⟩ := bind_eq_some_iff.1 replayed
    -- the left side is loaded and combined with the right side as both are in the scores before
    have started := Scores.agreesBelow_put (Nat.le_refl board.nextTemporary) scores
      (tenPower precision)
    have unitValue : (scores.put unit (tenPower precision) unit).toInt = 10 ^ precision := by
      rw [put_same, toInt_tenPower small]
    obtain ⟨leftValue, leftAgrees⟩ := loadCommands_exact unitOld (by rw [isDecimal]; exact small) small
      unitValue replayedLoad
    have agrees := started.trans (Nat.le_succ _) leftAgrees
    rw [← leftAgrees unit unitOld] at unitValue
    obtain ⟨result, kept⟩ := spec calls first second unitValue replayedOperation
    have leftSame : left.scaled precision (scores.put unit (tenPower precision)) =
        left.scaled precision scores :=
      ((isApart_of_decimal isDecimal board.nextTemporary).congr started).1 precision
    rw [leftValue, leftSame, fixedResult_congr apart.notRecord
      fun objective member => agrees objective (apart.old objective member)] at result
    have unitKept : second unit = first unit :=
      kept unit unitApart fun index bound => unitOld index (by omega)
    rw [← unitKept] at unitValue
    obtain ⟨splitValue, places, splitKept⟩ := splitCommands_exact isDecimal _ _ unitValue replayed
    refine ⟨splitValue.trans result, fun objective notWhole notPart old => ?_, ?_⟩
    · rw [splitKept objective notWhole notPart, kept objective (old _ (Nat.le_succ _))
        fun index bound => old index (by omega), agrees objective old]
    · rw [cut, splitValue, places]

/-- Setting a decimal to an integer, and adding or subtracting one, leaves its decimals or clears
them. -/
theorem assign_exact (isDecimal : left.kind = .decimal precision) (small : precision < 10)
    (smallOwn : right.kind.precision < 10) (apart : right.IsApart board.nextTemporary)
    (op : Option ArithOp) :
    ∃ commands later, assign selfTarget left op right board = .ok commands later ∧
      ∀ calls scores final, replayExact? calls commands scores = some final →
        AssignsDecimal board left right precision op scores final := by
  have isAssignment : assign selfTarget left op right =
      assignDecimal selfTarget left precision op right := by
    obtain ⟨name, kind⟩ := left
    obtain ⟨rightName, rightKind⟩ := right
    cases isDecimal
    cases rightKind with
    | record record fields => exact absurd rfl (apart.notRecord record fields)
    | _ => rfl
  rw [isAssignment]
  have throughFixed := @assignFixed_exact _ _ _ _ isDecimal small smallOwn apart op
  have wholeApart := left.whole_ne_part
  obtain ⟨name, kind⟩ := right
  cases kind with
  | record record fields => exact absurd rfl (apart.notRecord record fields)
  | decimal own => exact throughFixed fun _ _ => rfl
  | int | time | bool =>
    cases op with
    | none =>
      refine ⟨_, board, rfl, ?_⟩
      intro calls scores final replayed
      rw [replayExact?_copy, replayExact?_scoreSet] at replayed
      cases replayed
      refine ⟨?_, fun objective notWhole notPart _ => ?_, ?_⟩
      · rw [scaled_decimal isDecimal, put_same, put_other wholeApart, put_same]
        exact Int.add_zero _
      · rw [put_other notPart, put_other notWhole]
      · rw [put_same]
        rfl
    | some op =>
      cases op with
      | add | sub =>
        refine ⟨_, board, rfl, ?_⟩
        intro calls scores final replayed
        obtain ⟨value, computed, ended⟩ := replayExact?_combine replayed
        cases ended
        refine ⟨?_, fun objective notWhole _ _ => put_other notWhole,
          congrArg _ (put_other wholeApart.symm)⟩
        rw [scaled_decimal isDecimal, scaled_decimal isDecimal, put_same,
          put_other wholeApart.symm, ← some.inj computed]
        simp only [fixedResult, scaled]
        ring
      | mul | div | mod => exact throughFixed fun _ _ => rfl

end Assignment

end Counter

/-- Assignments to a decimal of up to six places from any number, be it the decimal itself: where
nothing overflows and no divisor is zero, its number becomes what fixed-point arithmetic gives. -/
theorem decimal_assignment_exact {board : Scoreboard} {left right : Counter} {precision : Nat}
    (isDecimal : left.kind = .decimal precision) (bound : precision ≤ Value.greatestPrecision)
    (rightBound : right.kind.precision ≤ Value.greatestPrecision)
    (apart : right.IsApart board.nextTemporary) (op : Option ArithOp) :
    ∃ commands later, Counter.assign selfTarget left op right board = .ok commands later ∧
      ∀ calls scores final, replayExact? calls commands scores = some final →
        replayAll? calls commands scores = some final ∧
        left.scaled precision final =
          right.fixedResult precision scores op (left.scaled precision scores) ∧
        ∀ objective, objective ≠ left.whole → objective ≠ left.part →
          (∀ index, board.nextTemporary ≤ index → objective ≠ Scoreboard.temporaryObjective index) →
          final objective = scores objective := by
  have six : Value.greatestPrecision = 6 := rfl
  obtain ⟨commands, later, assigned, spec⟩ :=
    Counter.assign_exact isDecimal (by omega) (by omega) apart op
  refine ⟨commands, later, assigned, ?_⟩
  intro calls scores final replayed
  obtain ⟨value, kept⟩ := spec calls scores final replayed
  exact ⟨replayAll?_of_exact replayed, value, kept⟩

def Decimals.scores : Scores := fun objective =>
  if objective = "a:w" then 7 else if objective = "a:d" then 50
  else if objective = "b:d" then 305 else 0

/-- Whether what an assignment has written can be replayed without overflow. -/
def Decimals.replaysExactly (outcome : EStateM.Result CounterError Scoreboard (List Command))
    (scores : Scores) : Bool :=
  match outcome with
  | .ok commands _ => (replayExact? (fun _ _ => none) commands scores).isSome
  | .error _ _ => false

/-- `7.50 / 0.305`: the third place of the divisor is cut off, and the quotient is `25.00`. -/
theorem decimal_assignment_exact_quotient :
    ∃ commands later final,
      Counter.assign selfTarget ⟨"a", .decimal 2⟩ (some .div) ⟨"b", .decimal 3⟩ {} =
        .ok commands later ∧
      replayAll? (fun _ _ => none) commands Decimals.scores = some final ∧
      Counter.scaled ⟨"a", .decimal 2⟩ 2 final = 2500 := by
  obtain ⟨commands, later, assigned, spec⟩ :=
    @decimal_assignment_exact {} ⟨"a", .decimal 2⟩ ⟨"b", .decimal 3⟩ 2 rfl (by decide) (by decide)
      (Counter.isApart_of_decimal rfl _) (some .div)
  have exactly : Decimals.replaysExactly (Counter.assign selfTarget ⟨"a", .decimal 2⟩ (some .div)
      ⟨"b", .decimal 3⟩ {}) Decimals.scores = true := by
    decide
  rw [assigned] at exactly
  obtain ⟨final, replayed⟩ := isSome_iff_exists.1 exactly
  obtain ⟨replayedAll, value, -⟩ := spec _ _ final replayed
  refine ⟨commands, later, final, assigned, replayedAll, value.trans ?_⟩
  decide

end ScriptPack
