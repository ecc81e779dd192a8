import Mathlib.Tactic.IntervalCases
import Mathlib.Tactic.Positivity
import ScriptPack.Proofs.Lowering
import ScriptPack.Proofs.Writes

/-!
Counters as fixed-point numbers. A replay is exact where every result is the one over the integers,
so that nothing overflows and no divisor is zero. The commands that bring a counter into one score
then leave its value times a power of ten there; without that restriction they leave what remains
of it at 32 bits, as long as no places are cut off.
-/

namespace ScriptPack

open CounterM List Number Option Scoreboard Scores

variable {later scores : Scores} {counter : Counter} {limit precision own : Nat} {calls : Calls}

def ArithOp.onInt? (op : ArithOp) (left right : Int) : Option Int :=
  match op with
  | add => some (left + right)
  | sub => some (left - right)
  | mul => some (left * right)
  | div => if right = 0 then none else some (left.tdiv right)
  | mod => if right = 0 then none else some (left.tmod right)

def ArithOp.isExact (op : ArithOp) (left right : Int32) : Bool :=
  (op.compute? left right).map Int32.toInt == op.onInt? left.toInt right.toInt

/-- Whether the command's arithmetic, if it has any, does not overflow. -/
def Command.isExact (command : Command) (scores : Scores) : Bool :=
  match command with
  | scoreAdd _ objective value => ArithOp.add.isExact (scores objective) value
  | scoreRemove _ objective value => ArithOp.sub.isExact (scores objective) value
  | operation _ objective (.arith op) _ other => op.isExact (scores objective) (scores other)
  | _ => true

def replayExact? (calls : Calls) : List Command → Scores → Option Scores
  | [], scores => some scores
  | command :: rest, scores =>
      if command.isExact scores then
        (command.replay? calls scores).bind (replayExact? calls rest)
      else none

section Exact

variable {calls : Calls} {scores later : Scores} {rest : List Command}

theorem replayExact?_cons (calls : Calls) (command : Command) (rest : List Command)
    (scores : Scores) : replayExact? calls (command :: rest) scores =
      if command.isExact scores then
        (command.replay? calls scores).bind (replayExact? calls rest)
      else none :=
  rfl

theorem replayExact?_append (calls : Calls) (first second : List Command) (scores : Scores) :
    replayExact? calls (first ++ second) scores =
      (replayExact? calls first scores).bind (replayExact? calls second) := by
  induction first generalizing scores with
  | nil => rfl
  | cons command rest ih =>
    rw [cons_append, replayExact?_cons, replayExact?_cons]
    split
    · rw [bind_assoc]
      exact congrArg _ (funext ih)
    · rfl

theorem replayAll?_of_exact {commands : List Command}
    (replayed : replayExact? calls commands scores = some later) :
    replayAll? calls commands scores = some later := by
  induction commands generalizing scores with
  | nil => exact replayed
  | cons command rest ih =>
    rw [replayExact?_cons, ite_none_right_eq_some] at replayed
    obtain ⟨middle, executed, continued⟩ := bind_eq_some_iff.1 replayed.2
    rw [replayAll?_cons, executed, bind_some, ih continued]

theorem replayExact?_copy (left right : String) :
    replayExact? calls (Counter.combine selfTarget left none right :: rest) scores =
      replayExact? calls rest (scores.put left (scores right)) := by
  rw [replayExact?_cons, replay?_copy, bind_some]
  exact if_pos rfl

theorem replayExact?_scoreSet (objective : String) (value : Int32) :
    replayExact? calls (.scoreSet selfTarget objective value :: rest) scores =
      replayExact? calls rest (scores.put objective value) := by
  rw [replayExact?_cons, replay?_scoreSet, bind_some]
  exact if_pos rfl

theorem replayExact?_combine {left right : String} {op : ArithOp} (replayed : replayExact? calls
      (Counter.combine selfTarget left (some op) right :: rest) scores = some later) :
    ∃ value : Int32, op.onInt? (scores left).toInt (scores right).toInt = some value.toInt ∧
      replayExact? calls rest (scores.put left value) = some later := by
  rw [replayExact?_cons, ite_none_right_eq_some, replay?_combine] at replayed
  obtain ⟨isExact, replayed⟩ := replayed
  obtain ⟨middle, executed, continued⟩ := bind_eq_some_iff.1 replayed
  obtain ⟨value, computed, rfl⟩ := map_eq_some_iff.1 executed
  have same : (op.compute? (scores left) (scores right)).map Int32.toInt =
      op.onInt? (scores left).toInt (scores right).toInt := beq_iff_eq.1 isExact
  rw [computed] at same
  exact ⟨value, same.symm, continued⟩

end Exact

theorem Number.toInt_tenPower {exponent : Nat} (small : exponent < 10) :
    (tenPower exponent).toInt = 10 ^ exponent := by
  interval_cases exponent <;> decide

theorem Scores.put_put (scores : Scores) (objective : String) (first second : Int32) :
    (scores.put objective first).put objective second = scores.put objective second := by
  funext other
  by_cases same : other = objective
  · simp [put, same]
  · simp [put, same]

theorem Scores.AgreesBelow.put {index : Nat}
    (agrees : AgreesBelow limit scores later) (le : limit ≤ index) (value : Int32) :
    AgreesBelow limit scores (later.put (temporaryObjective index) value) :=
  agrees.trans le_rfl (agreesBelow_put le later value)

namespace Counter

open Scoreboard (temporaryObjective)

/-- A number of `own` decimal places as one of `precision` places; further places are cut off. -/
def rescale (own precision : Nat) (part : Int) : Int :=
  if own ≤ precision then part * 10 ^ (precision - own) else part.tdiv (10 ^ (own - precision))

def scaled (counter : Counter) (precision : Nat) (scores : Scores) : Int :=
  match counter.kind with
  | .decimal own =>
      (scores counter.whole).toInt * 10 ^ precision +
        rescale own precision (scores counter.part).toInt
  | _ => (scores counter.name).toInt * 10 ^ precision

def wrappedPlaces (own precision : Nat) (part : Int32) : Int32 :=
  if own = precision then part else part * tenPower (precision - own)

/-- What 32 bits hold of a counter's value times ten to the `precision`, which leaves all its places
in. -/
def wrapped (counter : Counter) (precision : Nat) (scores : Scores) : Int32 :=
  match counter.kind with
  | .decimal own =>
      scores counter.whole * tenPower precision +
        wrappedPlaces own precision (scores counter.part)
  | _ => scores counter.name * tenPower precision

theorem scaled_decimal (isDecimal : counter.kind = .decimal precision) (scores : Scores) :
    counter.scaled precision scores =
      (scores counter.whole).toInt * 10 ^ precision + (scores counter.part).toInt := by
  simp [scaled, isDecimal, rescale]

theorem scaled_of_isIntegerLike (simple : counter.kind.isIntegerLike = true)
    (precision : Nat) (scores : Scores) :
    counter.scaled precision scores = (scores counter.name).toInt * 10 ^ precision := by
  obtain ⟨name, kind⟩ := counter
  cases kind with
  | decimal own => contradiction
  | record fields => contradiction
  | _ => rfl

theorem ne_temporaryObjective (counter : Counter) (index : Nat) :
    counter.whole ≠ temporaryObjective index ∧ counter.part ≠ temporaryObjective index := by
  have noColon := colon_notMem_temporaryObjective index
  constructor
  all_goals
    intro same
    simp [← same, whole, part] at noColon

/-- A number, not a record, whose scores no temporary from a number on takes. -/
structure IsApart (limit : Nat) (counter : Counter) : Prop where
  notRecord : ∀ name fields, counter.kind ≠ .record name fields
  old : ∀ objective ∈ counter.objectives, ∀ index, limit ≤ index →
    objective ≠ temporaryObjective index

theorem isApart_of_decimal (isDecimal : counter.kind = .decimal own)
    (limit : Nat) : counter.IsApart limit := by
  refine ⟨by simp [isDecimal], ?_⟩
  rw [objectives, isDecimal]
  refine forall_mem_cons.2 ⟨fun index _ => (counter.ne_temporaryObjective index).1, ?_⟩
  exact forall_mem_singleton.2 fun index _ => (counter.ne_temporaryObjective index).2

/-- With any number of places, a counter has the same value before and after. -/
def SameForms (counter : Counter) (scores later : Scores) : Prop :=
  (∀ precision, counter.scaled precision later = counter.scaled precision scores) ∧
    ∀ precision, counter.wrapped precision later = counter.wrapped precision scores

theorem forms_congr (notRecord : ∀ name fields, counter.kind ≠ .record name fields)
    (same : ∀ objective ∈ counter.objectives, later objective = scores objective) :
    counter.SameForms scores later := by
  unfold SameForms
  obtain ⟨name, kind⟩ := counter
  cases kind with
  | decimal own =>
    obtain ⟨whole, rest⟩ := forall_mem_cons.1 same
    have part := rest (name ++ ":d") mem_cons_self
    dsimp only at whole
    simp only [scaled, wrapped, Counter.whole, Counter.part, whole, part, implies_true, and_self]
  | record record fields => exact absurd rfl (notRecord record fields)
  | int | time | bool =>
    have score := same name mem_cons_self
    simp only [scaled, wrapped, score, implies_true, and_self]

theorem IsApart.congr {limit : Nat} (apart : counter.IsApart limit)
    (agrees : AgreesBelow limit scores later) : counter.SameForms scores later :=
  forms_congr apart.notRecord fun objective member => agrees objective (apart.old objective member)

/-- The commands that bring the places in the temporary after a number to a precision. -/
def scaleCommands (own precision limit : Nat) : List Command :=
  let part := temporaryObjective (limit + 1)
  let scale := temporaryObjective (limit + 2)
  if own = precision then []
  else if own < precision then
    [.scoreSet selfTarget scale (tenPower (precision - own)),
      combine selfTarget part (some .mul) scale]
  else
    [.scoreSet selfTarget scale (tenPower (own - precision)),
      combine selfTarget part (some .div) scale]

/-- The commands that load a counter into the temporary of a number, times the power of ten that
`unit` holds. -/
def loadCommands (counter : Counter) (precision : Nat) (unit : String) (limit : Nat) :
    List Command :=
  let fixed := temporaryObjective limit
  match counter.kind with
  | .decimal own =>
      let part := temporaryObjective (limit + 1)
      [combine selfTarget fixed none counter.whole, combine selfTarget fixed (some .mul) unit,
        combine selfTarget part none counter.part] ++ scaleCommands own precision limit ++
      [combine selfTarget fixed (some .add) part]
  | _ =>
      [combine selfTarget fixed none counter.name, combine selfTarget fixed (some .mul) unit]

theorem toFixed_eq (counter : Counter) (precision : Nat) (unit : String) (board : Scoreboard) :
    ∃ later, toFixed selfTarget counter precision unit board =
        .ok (temporaryObjective board.nextTemporary,
          counter.loadCommands precision unit board.nextTemporary) later ∧
      board.Extends later ∧ board.nextTemporary < later.nextTemporary := by
  let first := (board.temporary .int).2
  let second := (first.temporary .int).2
  let third := (second.temporary .int).2
  have toFirst := extends_temporary board .int
  have toSecond := toFirst.trans (extends_temporary first .int)
  have toThird := toSecond.trans (extends_temporary second .int)
  have nextFirst : first.nextTemporary = board.nextTemporary + 1 :=
    board.nextTemporary_temporary .int
  have nextSecond : second.nextTemporary = board.nextTemporary + 2 := by
    rw [first.nextTemporary_temporary .int, nextFirst]
  have nextThird : third.nextTemporary = board.nextTemporary + 3 := by
    rw [second.nextTemporary_temporary .int, nextSecond]
  have asks (board : Scoreboard) : temporary .int board =
      .ok ⟨temporaryObjective board.nextTemporary, .int⟩ (board.temporary .int).2 := rfl
  obtain ⟨name, kind⟩ := counter
  unfold toFixed
  rw [bind_of_ok (asks board)]
  cases kind with
  | int | time | bool | record => exact ⟨first, rfl, toFirst, by omega⟩
  | decimal own =>
    dsimp only
    rw [bind_of_ok (asks first), nextFirst]
    by_cases same : own = precision
    · refine ⟨second, ?_, toSecond, by omega⟩
      simp only [same, BEq.rfl, if_true, loadCommands, scaleCommands]
      rfl
    · have notSame : (own == precision) = false := beq_eq_false_iff_ne.2 same
      refine ⟨third, ?_, toThird, by omega⟩
      by_cases fewer : own < precision
      · simp only [notSame, same, fewer, Bool.false_eq_true, if_true, if_false, loadCommands,
          scaleCommands]
        rw [← nextSecond]
        rfl
      · simp only [notSame, same, fewer, Bool.false_eq_true, if_false, loadCommands, scaleCommands]
        rw [← nextSecond]
        rfl

theorem temporaryObjective_ne {first second : Nat} (different : first ≠ second) :
    temporaryObjective first ≠ temporaryObjective second :=
  fun same => different (temporaryObjective_inj.1 same)

theorem scaleCommands_exact (smallOwn : own < 10) (small : precision < 10)
    (replayed : replayExact? calls (scaleCommands own precision limit) scores = some later) :
    (later (temporaryObjective (limit + 1))).toInt =
        rescale own precision (scores (temporaryObjective (limit + 1))).toInt ∧
      AgreesBelow (limit + 1) scores later := by
  have apart : temporaryObjective (limit + 1) ≠ temporaryObjective (limit + 2) :=
    temporaryObjective_ne (by omega)
  have agrees (first second : Int32) : AgreesBelow (limit + 1) scores
      ((scores.put (temporaryObjective (limit + 2)) first).put (temporaryObjective (limit + 1))
        second) :=
    ((AgreesBelow.refl _ scores).put (Nat.le_succ _) first).put le_rfl second
  unfold scaleCommands at replayed
  unfold rescale
  by_cases same : own = precision
  · simp only [same, if_true] at replayed
    cases replayed
    simp only [same, Nat.le_refl, if_true, Nat.sub_self, pow_zero, mul_one]
    exact ⟨trivial, .refl _ _⟩
  · by_cases fewer : own < precision
    · simp only [same, fewer, if_true, if_false, replayExact?_scoreSet] at replayed
      obtain ⟨value, computed, ended⟩ := replayExact?_combine replayed
      cases ended
      refine ⟨?_, agrees _ value⟩
      rw [put_same, put_other apart, toInt_tenPower (by omega)] at computed
      rw [put_same, if_pos fewer.le]
      exact (some.inj computed).symm
    · simp only [same, fewer, if_false, replayExact?_scoreSet] at replayed
      obtain ⟨value, computed, ended⟩ := replayExact?_combine replayed
      cases ended
      refine ⟨?_, agrees _ value⟩
      rw [put_same, put_other apart, toInt_tenPower (by omega)] at computed
      rw [put_same, if_neg (by omega)]
      have divided := computed
      rw [ArithOp.onInt?, if_neg (by positivity)] at divided
      exact (some.inj divided).symm

theorem reaches_put {index : Nat} (le : limit ≤ index) {command : Command}
    {value : Int32} (executed : ∀ calls, command.replay? calls scores =
      some (scores.put (temporaryObjective index) value)) :
    Reaches limit [command] scores (scores.put (temporaryObjective index) value) where
  replayed := fun calls => by rw [replayAll?_singleton, executed]
  agrees := agreesBelow_put le scores value

theorem scaleCommands_reaches (fewer : own ≤ precision) (limit : Nat) (scores : Scores) :
    ∃ later, Reaches (limit + 1) (scaleCommands own precision limit) scores later ∧
      later (temporaryObjective (limit + 1)) =
        wrappedPlaces own precision (scores (temporaryObjective (limit + 1))) := by
  unfold scaleCommands wrappedPlaces
  by_cases same : own = precision
  · simp only [same, if_true]
    exact ⟨scores, .refl _ _, rfl⟩
  · have apart : temporaryObjective (limit + 1) ≠ temporaryObjective (limit + 2) :=
      temporaryObjective_ne (by omega)
    have lt : own < precision := by omega
    simp only [same, lt, if_true, if_false]
    have sets := reaches_put (Nat.le_succ (limit + 1)) fun calls =>
      @replay?_scoreSet scores calls (temporaryObjective (limit + 2)) (tenPower (precision - own))
    refine ⟨_, sets.trans le_rfl (reaches_put le_rfl fun calls => ?_), put_same _ _ _⟩
    rw [replay?_combine, put_same, put_other apart, ArithOp.compute?_mul]
    rfl

section Load

variable {counter : Counter} {precision limit : Nat} {unit : String} {scores : Scores}
  (unitOld : ∀ index, limit ≤ index → unit ≠ temporaryObjective index)

include unitOld

/-- Loaded without overflow, a counter has its value times the power of ten. -/
theorem loadCommands_exact (smallOwn : counter.kind.precision < 10) (small : precision < 10)
    (holdsUnit : (scores unit).toInt = 10 ^ precision)
    (replayed : replayExact? calls (counter.loadCommands precision unit limit) scores = some later) :
    (later (temporaryObjective limit)).toInt = counter.scaled precision scores ∧
      AgreesBelow limit scores later := by
  have unitApart := unitOld limit le_rfl
  obtain ⟨name, kind⟩ := counter
  cases kind with
  | int | time | bool | record =>
    simp only [loadCommands, replayExact?_copy] at replayed
    obtain ⟨value, computed, ended⟩ := replayExact?_combine replayed
    cases ended
    rw [put_same, put_other unitApart, holdsUnit] at computed
    refine ⟨?_, ((AgreesBelow.refl limit scores).put le_rfl _).put le_rfl value⟩
    rw [put_same]
    exact (some.inj computed).symm
  | decimal own =>
    let fixed := temporaryObjective limit
    let part := temporaryObjective (limit + 1)
    have partApart : part ≠ fixed := temporaryObjective_ne (by omega)
    have decimalApart : Counter.part ⟨name, .decimal own⟩ ≠ fixed := (ne_temporaryObjective _ _).2
    simp only [loadCommands, cons_append, nil_append, replayExact?_copy] at replayed
    obtain ⟨product, multiplied, replayed⟩ := replayExact?_combine replayed
    rw [put_same, put_other unitApart, holdsUnit] at multiplied
    rw [replayExact?_copy, replayExact?_append] at replayed
    obtain ⟨middle, scaledPart, replayed⟩ := bind_eq_some_iff.1 replayed
    obtain ⟨value, agrees⟩ := scaleCommands_exact smallOwn small scaledPart
    obtain ⟨total, added, ended⟩ := replayExact?_combine replayed
    cases ended
    have fixedOld : ∀ index, limit + 1 ≤ index → fixed ≠ temporaryObjective index :=
      fun index bound => temporaryObjective_ne (by omega)
    have whole : middle fixed = product := by
      rw [agrees fixed fixedOld, put_other partApart.symm, put_same]
    rw [put_same, put_other decimalApart, put_other decimalApart] at value
    rw [whole, value, ← some.inj multiplied] at added
    refine ⟨?_, ?_⟩
    · rw [put_same]
      exact (some.inj added).symm
    · have loaded := ((AgreesBelow.refl limit scores).put le_rfl
        (scores (Counter.whole ⟨name, .decimal own⟩))).put le_rfl product
      exact ((loaded.put (Nat.le_succ limit) _).trans (Nat.le_succ limit) agrees).put le_rfl total

/-- Loaded with all its places, a counter has what 32 bits hold of it. -/
theorem loadCommands_reaches (fewer : counter.kind.precision ≤ precision)
    (holdsUnit : scores unit = tenPower precision) :
    ∃ later, Reaches limit (counter.loadCommands precision unit limit) scores later ∧
      later (temporaryObjective limit) = counter.wrapped precision scores := by
  have unitApart := unitOld limit le_rfl
  let fixed := temporaryObjective limit
  have multiplies (source : String) := @reaches_load_combine scores limit limit _ .mul _ _ unit
    le_rfl (fun calls => replay?_copy calls fixed source) unitApart
    (ArithOp.compute?_mul _ _)
  rw [holdsUnit] at multiplies
  obtain ⟨name, kind⟩ := counter
  cases kind with
  | int | time | bool | record => exact multiplies name
  | decimal own =>
    let counter : Counter := ⟨name, .decimal own⟩
    let part := temporaryObjective (limit + 1)
    have partApart : part ≠ fixed := temporaryObjective_ne (by omega)
    have fixedOld : ∀ index, limit + 1 ≤ index → fixed ≠ temporaryObjective index :=
      fun index bound => temporaryObjective_ne (by omega)
    obtain ⟨product, multiplied, wholeValue⟩ := multiplies counter.whole
    have copied := reaches_put (Nat.le_succ limit) fun calls =>
      @replay?_copy product calls part counter.part
    obtain ⟨middle, scales, partValue⟩ := scaleCommands_reaches fewer limit
      (product.put part (product counter.part))
    have fixedValue : middle fixed = scores counter.whole * tenPower precision := by
      rw [scales.agrees fixed fixedOld, put_other partApart.symm, wholeValue]
    rw [put_same, multiplied.agrees counter.part
      fun index _ => (counter.ne_temporaryObjective index).2] at partValue
    have added (calls : Calls) : (combine selfTarget fixed (some .add) part).replay? calls middle =
        some (middle.put fixed (counter.wrapped precision scores)) := by
      rw [replay?_combine, fixedValue, partValue, ArithOp.compute?_add]
      rfl
    have loaded := (multiplied.trans le_rfl copied).trans (Nat.le_succ limit) scales
    exact ⟨_, loaded.trans le_rfl (reaches_put le_rfl added), put_same _ _ _⟩

end Load

/-- The commands that load a counter into the temporary after a number, with the power of ten in the
temporary of the number. -/
def fixedCommands (counter : Counter) (precision limit : Nat) : List Command :=
  .scoreSet selfTarget (temporaryObjective limit) (tenPower precision) ::
    counter.loadCommands precision (temporaryObjective limit) (limit + 1)

theorem fixedPoint_eq (counter : Counter) (precision : Nat) (board : Scoreboard) :
    ∃ later, fixedPoint selfTarget counter precision board =
        .ok (temporaryObjective (board.nextTemporary + 1),
          counter.fixedCommands precision board.nextTemporary) later ∧
      board.Extends later ∧ board.nextTemporary + 1 < later.nextTemporary := by
  let held := (board.temporary .int).2
  have next : held.nextTemporary = board.nextTemporary + 1 := board.nextTemporary_temporary .int
  have holds : constant selfTarget (tenPower precision) board =
      .ok (temporaryObjective board.nextTemporary, [.scoreSet selfTarget
        (temporaryObjective board.nextTemporary) (tenPower precision)]) held := rfl
  obtain ⟨later, loads, extension, lt⟩ :=
    toFixed_eq counter precision (temporaryObjective board.nextTemporary) held
  rw [next] at loads lt
  refine ⟨later, ?_, (extends_temporary board .int).trans extension, lt⟩
  exact (bind_of_ok holds).trans ((bind_of_ok loads).trans rfl)

section Fixed

variable {counter : Counter} {precision limit : Nat} {scores : Scores}
  (apart : counter.IsApart limit)

include apart

theorem fixedCommands_exact (smallOwn : counter.kind.precision < 10) (small : precision < 10)
    (replayed : replayExact? calls (counter.fixedCommands precision limit) scores = some later) :
    (later (temporaryObjective (limit + 1))).toInt = counter.scaled precision scores ∧
      AgreesBelow limit scores later := by
  rw [fixedCommands, replayExact?_scoreSet] at replayed
  have held := agreesBelow_put (Nat.le_refl limit) scores (tenPower precision)
  obtain ⟨value, agrees⟩ := loadCommands_exact (fun index bound => temporaryObjective_ne (by omega))
    smallOwn small (by rw [put_same, toInt_tenPower small]) replayed
  refine ⟨value.trans ?_, held.trans (Nat.le_succ limit) agrees⟩
  exact (apart.congr held).1 precision

theorem fixedCommands_reaches (fewer : counter.kind.precision ≤ precision) :
    ∃ later, Reaches limit (counter.fixedCommands precision limit) scores later ∧
      later (temporaryObjective (limit + 1)) = counter.wrapped precision scores := by
  have held := reaches_put le_rfl fun calls =>
    @replay?_scoreSet scores calls (temporaryObjective limit) (tenPower precision)
  obtain ⟨later, loads, value⟩ := @loadCommands_reaches counter precision (limit + 1) _ _
    (fun index bound => temporaryObjective_ne (by omega)) fewer
    (put_same scores (temporaryObjective limit) (tenPower precision))
  refine ⟨later, held.trans (Nat.le_succ limit) loads, value.trans ?_⟩
  exact (apart.congr held.agrees).2 precision

end Fixed

end Counter

end ScriptPack
