import ScriptPack.Proofs.Questions

/-!
The score ranges of comparisons with a number. At the limits of 32 bits a strict operator has no
integer to step to and lets the limit through; and a written integer is compared as a number of single
precision, so that above `2 ^ 24` the range may be that of its neighbour.
-/

namespace ScriptPack

open BuildM CompareOp

/-- The range of an operator at any value, and when the range of the inverted operator is its
complement. -/
theorem range_at_limits (op : CompareOp) (value : Int32) :
    (∀ score, (rangeFor op value).contains score =
      (op.holds (compare score.toInt value.toInt) || score == value && op.sticksAt value)) ∧
    ((∀ score, (rangeFor op.inverted value).contains score = !(rangeFor op value).contains score) ↔
      op.saturates value = false) := by
  refine ⟨contains_rangeFor_eq op value, fun complementary => ?_, fun inRange score => ?_⟩
  · have same : compare value.toInt value.toInt = .eq := compare_eq_iff_eq.2 rfl
    have notLess : (Ordering.eq != Ordering.lt) = true := rfl
    have notGreater : (Ordering.eq != Ordering.gt) = true := rfl
    have atValue := complementary value
    rw [contains_rangeFor_eq, contains_rangeFor_eq, same, beq_self_eq_true] at atValue
    cases op with
    | eq | ne => rfl
    | lt | gt | le | ge => simpa [holds, inverted, sticksAt,
        saturates, notLess, notGreater] using atValue
  · rw [contains_rangeFor inRange, contains_rangeFor ((op.saturates_inverted value).trans inRange),
      holds_inverted]

/-- A test of an integer score, or of a number of entities, against a written integer. -/
inductive Test.IsAgainst (op : CompareOp) (value : Int32) : Test → Prop
  | counter {counter : Counter} (simple : counter.kind.isIntegerLike = true) :
      IsAgainst op value (.value counter op (.literal (.int value)))
  | count (selector : Selector) : IsAgainst op value (.count selector op (.literal (.int value)))

namespace BuildM

variable {test : Test} {op : CompareOp} {value : Int32}

theorem lowerTest_against (against : test.IsAgainst op value) (negated : Bool) (before : Build) :
    ∃ lowered objective after, lowerTest ⟨test, negated⟩ before = .ok lowered after ∧
      lowered.frame = scoreFrame objective (rangeFor (if negated then op.inverted else op)
        (Number.Binary.ofInt32 value : Number.Single).roundInt32) := by
  cases against with
  | count selector => exact ⟨_, _, _, rfl, rfl⟩
  | @counter counter simple =>
    obtain ⟨name, kind⟩ := counter
    cases kind with
    | decimal | record => contradiction
    | int | time | bool => exact ⟨_, name, _, rfl, rfl⟩

end BuildM

/-- The range tests scores against the integer that is nearest to the written one in single
precision, and so against the written one up to `2 ^ 24`. -/
theorem literal_range_rounded {test : Test} {op : CompareOp} {value : Int32}
    (against : test.IsAgainst op value) (negated : Bool) (before : Build) :
    let chosen := if negated then op.inverted else op
    let rounded := (Number.Binary.ofInt32 value : Number.Single).roundInt32
    ∃ lowered objective range after, lowerTest ⟨test, negated⟩ before = .ok lowered after ∧
      lowered.frame = scoreFrame objective range ∧
      (∀ score, range.contains score = (chosen.holds (compare score.toInt rounded.toInt) ||
        score == rounded && chosen.sticksAt rounded)) ∧
      (value.toInt.natAbs ≤ 2 ^ 24 → ∀ score, range.contains score =
        chosen.holds (compare score.toInt value.toInt)) := by
  intro chosen rounded
  obtain ⟨lowered, objective, after, ran, framed⟩ := lowerTest_against against negated before
  refine ⟨lowered, objective, _, after, ran, framed, contains_rangeFor_eq chosen rounded, ?_⟩
  intro small score
  have limits := toInt_limits value
  have inside : value ≠ Int32.minValue ∧ value ≠ Int32.maxValue := by
    constructor
    · rintro rfl
      omega
    · rintro rfl
      omega
  have inRange (other : CompareOp) : other.saturates value = false := by
    cases other <;> simp [saturates, inside]
  rw [Number.Binary.roundInt32_ofInt32 small]
  exact contains_rangeFor (inRange chosen) score

/-- `x == 16777217` is true of 16777216, and not of 16777217. -/
theorem literal_range_rounded_neighbour :
    ∃ lowered objective range after, lowerTest ⟨.value ⟨"x", .int⟩ .eq (.literal (.int 16777217)),
        false⟩ (Build.start {} "main" {}) = .ok lowered after ∧
      lowered.frame = scoreFrame objective range ∧
      range.contains 16777216 = true ∧ range.contains 16777217 = false := by
  obtain ⟨lowered, objective, range, after, ran, framed, contains, -⟩ :=
    literal_range_rounded (@Test.IsAgainst.counter .eq 16777217 ⟨"x", .int⟩ rfl) false
      (Build.start {} "main" {})
  refine ⟨lowered, objective, range, after, ran, framed, (contains _).trans ?_,
    (contains _).trans ?_⟩
  · decide
  · decide

end ScriptPack
