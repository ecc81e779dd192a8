import ScriptPack.Proofs.Bindings

/-!
Operations on variables, element by element. Each element has a partner among the values on the right
side, or none; elements are changed from the first on, until one cannot be. Main result: which elements
an operation changes and into what, what a failure leaves, and that nothing else changes.
-/

namespace ScriptPack

namespace Variables

/-- The value that goes with an element: a single value goes with each of them. -/
def partner? (others : List Value) (index : Nat) : Option Value :=
  if others.length = 1 then others[0]? else others[index]?

theorem broadcast_eq_partner? (others : List Value) (index : Nat) :
    broadcast others index = partner? others index := by
  rcases others with _ | ⟨first, _ | ⟨second, rest⟩⟩ <;> rfl

section

variable {ε : Type} {change : Nat → Value → Except ε Value} {place : Nat} {value result : Value}
  {values results : List Value}

/-- An element combined with its partner, if it has one. -/
def combined (combine : Value → Value → Except ε Value) (others : List Value) (index : Nat)
    (value : Value) : Except ε Value :=
  match partner? others index with
  | some other => combine value other
  | none => .ok value

/-- The elements before the place are changed, and those from it on are the same. -/
structure ChangedBelow (change : Nat → Value → Except ε Value) (place : Nat)
    (values results : List Value) : Prop where
  length : results.length = values.length
  before : ∀ index < place, ∀ value, values[index]? = some value →
    ∃ result, change index value = .ok result ∧ results[index]? = some result
  after : ∀ index, place ≤ index → results[index]? = values[index]?

theorem ChangedBelow.none (change : Nat → Value → Except ε Value) (values : List Value) :
    ChangedBelow change 0 values values :=
  ⟨rfl, nofun, fun _ _ => rfl⟩

theorem ChangedBelow.cons (first : change 0 value = .ok result)
    (rest : ChangedBelow (fun index => change (index + 1)) place values results) :
    ChangedBelow change (place + 1) (value :: values) (result :: results) where
  length := congrArg Nat.succ rest.length
  before := by
    rintro (_ | index) below value found
    · cases found
      exact ⟨result, first, rfl⟩
    · exact rest.before index (Nat.lt_of_succ_lt_succ below) value found
  after := by
    rintro (_ | index) above
    · cases above
    · exact rest.after index (Nat.le_of_succ_le_succ above)

end

theorem updateEach_cons (update : Value → Value → Except VariableError Value) (others : List Value)
    (index : Nat) (value : Value) (rest : List Value) :
    updateEach update others index (value :: rest) =
      match combined update others index value with
      | .error failure => (value :: rest, some failure)
      | .ok value => let (rest, failure) := updateEach update others (index + 1) rest
          (value :: rest, failure) := by
  rw [updateEach, broadcast_eq_partner?, combined]
  cases partner? others index <;> rfl

/-- Elements are changed up to a place. There is no element at it, or one that fails. -/
theorem updateEach_changes (update : Value → Value → Except VariableError Value)
    (others : List Value) (start : Nat) (values : List Value) :
    let change := fun index => combined update others (start + index)
    ∃ place results failure, updateEach update others start values = (results, failure) ∧
      ChangedBelow change place values results ∧
      values[place]?.map (change place) = failure.map .error := by
  intro change
  induction values generalizing start with
  | nil => exact ⟨0, [], none, rfl, .none _ _, rfl⟩
  | cons value rest ih =>
    rw [updateEach_cons]
    cases first : combined update others start value with
    | error error => exact ⟨0, value :: rest, some error, rfl, .none _ _, congrArg some first⟩
    | ok result =>
      obtain ⟨place, results, failure, updated, changed, stops⟩ := ih (start + 1)
      have shifted (index : Nat) : combined update others (start + 1 + index) = change (index + 1) := by
        rw [Nat.add_assoc, Nat.add_comm 1]
      simp only [shifted] at changed stops
      exact ⟨place + 1, result :: results, failure, by rw [updated], changed.cons first, stops⟩

/-- Repeated multiplication of integers is a power, around 32 bits. -/
theorem multiplyTimes_int (base : Int32) (times : Nat) (start : Int32) :
    multiplyTimes (.int base) times (.int start) =
      .ok (.int (.ofInt (start.toInt * base.toInt ^ times))) := by
  induction times generalizing start with
  | zero => simp [multiplyTimes]
  | succ times ih =>
    have product : Value.apply .mul (.int start) (.int base) = .ok (.int (start * base)) := rfl
    rw [multiplyTimes, product]
    dsimp only
    rw [ih]
    congr 2
    rw [pow_succ', ← mul_assoc, Int32.ofInt_mul, Int32.ofInt_mul (start.toInt * base.toInt),
      Int32.ofInt_mul, Int32.ofInt_toInt, Int32.ofInt_toInt, Int32.ofInt_toInt]

/-- An integer raised to the integer it goes with, around 32 bits. -/
def raised (exponents : List Value) (index : Nat) (value : Value) : Value :=
  match partner? exponents index, value with
  | some (.int exponent), .int base => .int (.ofInt (base.toInt ^ exponent.toInt.toNat))
  | _, _ => value

theorem combined_power {exponents : List Value} {index : Nat} {value : Value}
    (integers : ∀ other, partner? exponents index = some other →
      ∃ base exponent, value = .int base ∧ other = .int exponent ∧ 0 ≤ exponent) (name : String) :
    combined (power name) exponents index value = .ok (raised exponents index value) := by
  unfold combined raised
  cases partner : partner? exponents index with
  | none => rfl
  | some other =>
    obtain ⟨base, exponent, rfl, rfl, positive⟩ := integers other partner
    dsimp only [power]
    rw [if_neg (Int32.not_lt.2 positive), multiplyTimes_int]
    simp

end Variables

open List VariableM Variables

section

variable {environment : Variables} {name : String} {values : List Value}
  (found : environment.get? name = some values)

include found

theorem VariableM.update_changes (step : Value → Value → Except VariableError Value)
    (others : List Value) :
    ∃ place results failure, ChangedBelow (combined step others) place values results ∧
      values[place]?.map (combined step others place) = failure.map .error ∧
      update name step others environment = match failure with
        | none => .ok () (environment.set name results)
        | some error => .error error (environment.set name results) := by
  have got : get name environment = .ok values environment := by
    rw [get_apply, Variables.get, found]
  obtain ⟨place, results, failure, updated, changed, stops⟩ := updateEach_changes step others 0 values
  simp only [Nat.zero_add] at changed stops
  refine ⟨place, results, failure, changed, stops, ?_⟩
  change EStateM.bind (get name) _ environment = _
  rw [EStateM.bind, got]
  dsimp only
  rw [updated]
  cases failure <;> rfl

/-- An operation on a variable combines the elements up to a place with their partners, and keeps those
that have none. Past all elements, it succeeds. At an element that cannot be combined it fails, the error
names the variable, and that element and the ones after it are as they were. No other variable changes.
Raising integers to exponents that are not negative gives their powers, around 32 bits. -/
theorem elements_combined_in_place :
    (∀ op others,
      let change := combined (fun value other => (Value.apply op value other).mapError
        (VariableError.operation (label name))) others
      ∃ place results failure, ChangedBelow change place values results ∧
        values[place]?.map (change place) = failure.map .error ∧
        VariableM.apply name op others environment = match failure with
          | none => .ok () (environment.set name results)
          | some error => .error error (environment.set name results)) ∧
    (∀ results other, (environment.set name results).get? other =
      if label other = label name then some results else environment.get? other) ∧
    ∀ exponents, (∀ index value other, values[index]? = some value →
        partner? exponents index = some other →
        ∃ base exponent, value = .int base ∧ other = .int exponent ∧ 0 ≤ exponent) →
      VariableM.power name exponents environment =
        .ok () (environment.set name (values.mapIdx (raised exponents))) := by
  refine ⟨fun op others => update_changes found _ others,
    fun results other => get?_set environment other name results, fun exponents integers => ?_⟩
  have raises (index : Nat) (value : Value) (isAt : values[index]? = some value) :=
    combined_power (fun other => integers index value other isAt) (label name)
  obtain ⟨place, results, failure, changed, stops, ran⟩ :=
    update_changes found (Variables.power (label name)) exponents
  cases stop : values[place]? with
  | some value =>
    rw [stop, Option.map_some, raises place value stop] at stops
    cases failure <;> cases stops
  | none =>
    have same : results = values.mapIdx (raised exponents) := by
      refine ext_getElem? fun index => ?_
      rw [getElem?_mapIdx]
      cases isAt : values[index]? with
      | none => exact getElem?_eq_none_iff.2 (changed.length ▸ getElem?_eq_none_iff.1 isAt)
      | some value =>
        have bound := (List.getElem?_eq_some_iff.1 isAt).1.trans_le (List.getElem?_eq_none_iff.1 stop)
        obtain ⟨result, isRaised, isResult⟩ := changed.before index bound value isAt
        rw [isResult, ← Except.ok.inj ((raises index value isAt).symm.trans isRaised)]
        rfl
    rw [stop] at stops
    cases failure with
    | none => exact same ▸ ran
    | some error => cases stops

end

/-- `6 7 8` to the power of `31 2`: the first wraps around, and the last has no partner. -/
theorem elements_combined_in_place_powers :
    let environment := ({} : Variables).set "x" [.int 6, .int 7, .int 8]
    environment.get? "$x" = some [.int 6, .int 7, .int 8] ∧
    VariableM.power "$x" [.int 31, .int 2] environment =
      .ok () (environment.set "$x" [.int (-2147483648), .int 49, .int 8]) := by
  intro environment
  have found : environment.get? "$x" = some [.int 6, .int 7, .int 8] :=
    get?_set {} "$x" "x" [.int 6, .int 7, .int 8]
  refine ⟨found, ((elements_combined_in_place found).2.2 [.int 31, .int 2] ?_).trans rfl⟩
  rintro (_ | _ | _ | index) value other isAt partner
  · cases isAt
    cases partner
    exact ⟨6, 31, rfl, rfl, by decide⟩
  · cases isAt
    cases partner
    exact ⟨7, 2, rfl, rfl, by decide⟩
  · cases partner
  · cases isAt

end ScriptPack
