import ScriptPack.Proofs.Decimals
import ScriptPack.Proofs.Questions

/-!
The two scores of a decimal after literals and counters have been assigned to it. Its decimals are
meant to be from `0` up to, but not including, `10 ^ p`, so that the whole part is the floor of the
number and equal numbers have equal scores. Main result: how far the decimals may be off after any
sequence of assignments, and after which assignments they are as they are meant to be.
-/

namespace ScriptPack

open Counter Number Scores Value

namespace Number

theorem roundQuotient_le {numerator denominator bound : Nat} (positive : denominator ≠ 0)
    (le : numerator ≤ bound * denominator) : roundQuotient numerator denominator ≤ bound := by
  have quotient : numerator / denominator ≤ bound := Nat.div_le_of_le_mul (by linarith)
  have joined := Nat.div_add_mod numerator denominator
  unfold roundQuotient
  dsimp only
  split
  · next up =>
    -- rounding up leaves a remainder, so that the quotient is below the bound
    refine Nat.lt_of_le_of_ne quotient fun same => ?_
    rw [same, Nat.mul_comm] at joined
    have none : numerator % denominator = 0 := by omega
    rw [none] at up
    simp only [Nat.mul_zero, not_lt_zero, decide_false, Bool.false_or, Bool.and_eq_true,
      beq_iff_eq] at up
    omega
  · exact quotient

namespace Binary

theorem ofRatio_le {numerator denominator bound : Nat} (positive : denominator ≠ 0)
    (le : numerator ≤ bound * denominator) (small : bound < 2 ^ 24) :
    ∃ mantissa places : Nat, (ofRatio false numerator denominator : Single) =
      .finite false mantissa (-places) ∧ mantissa ≤ bound * 2 ^ places := by
  by_cases zero : numerator = 0
  · exact ⟨0, 149, by simp [ofRatio, zero]; rfl, Nat.zero_le _⟩
  have bits : numerator.log2 < denominator.log2 + 25 := by
    rw [Nat.log2_lt zero]
    calc numerator ≤ bound * denominator := le
      _ < 2 ^ 24 * 2 ^ (denominator.log2 + 1) :=
        Nat.mul_lt_mul'' small Nat.lt_log2_self
      _ = 2 ^ (denominator.log2 + 25) := by rw [← pow_add]; congr 1; omega
  unfold ofRatio
  have single : BinaryFormat.single = ⟨24, -149, 104⟩ := rfl
  simp only [single, zero, positive, beq_eq_false_iff_ne.2, ne_eq, not_false_eq_true, Bool.or_self,
    Bool.false_eq_true, if_false]
  generalize estimated : max (-149 : Int) ((numerator.log2 : Int) - denominator.log2 - (24 : Nat)) =
    estimate
  obtain ⟨places, isExponent⟩ : ∃ places : Nat, (if twoTo 24 ≤ numerator * twoTo (-estimate).toNat /
      (denominator * twoTo estimate.toNat) then estimate + 1 else estimate) = -(places : Int) := by
    split
    · next full =>
      -- at the exponent 0 the quotient would have more bits than the bound
      have below : estimate ≠ 0 := by
        rintro rfl
        have quotient : numerator / denominator ≤ bound := Nat.div_le_of_le_mul (by linarith)
        simp [twoTo] at full
        omega
      exact ⟨(-(estimate + 1)).toNat, by omega⟩
    · exact ⟨(-estimate).toNat, by omega⟩
  rw [isExponent]
  have up : (-(-(places : Int))).toNat = places := by omega
  have down : (-(places : Int)).toNat = 0 := by omega
  have rounded : roundQuotient (numerator * twoTo places) (denominator * twoTo 0) ≤
      bound * 2 ^ places := by
    apply roundQuotient_le (by simp [twoTo, positive])
    simp only [twoTo, Nat.pow_eq, pow_zero, Nat.mul_one]
    calc numerator * 2 ^ places ≤ bound * denominator * 2 ^ places := Nat.mul_le_mul_right _ le
      _ = bound * 2 ^ places * denominator := by ring
  rw [up, down]
  by_cases carries : roundQuotient (numerator * twoTo places) (denominator * twoTo 0) = twoTo 24
  · have full : 2 ^ 24 ≤ bound * 2 ^ places := by rwa [carries] at rounded
    rw [carries, beq_self_eq_true, if_pos rfl]
    obtain _ | fewer := places
    · omega
    · rw [pow_succ 2 fewer, ← Nat.mul_assoc] at full
      refine ⟨2 ^ 23, fewer, ?_, by omega⟩
      have exponent : -((fewer + 1 : Nat) : Int) + 1 = -(fewer : Int) := by omega
      dsimp only
      rw [exponent, if_neg (by omega)]
      rfl
  · refine ⟨_, places, ?_, rounded⟩
    rw [beq_eq_false_iff_ne.2 carries, if_neg Bool.false_ne_true]
    exact if_neg (by omega)

theorem ofInt_eq {value : Int} (small : value.natAbs < 2 ^ 24) :
    ∃ mantissa places : Nat, (ofInt value : Single) = .finite (value < 0) mantissa (-places) ∧
      mantissa = value.natAbs * 2 ^ places := by
  by_cases zero : value = 0
  · exact ⟨0, 149, by simp [ofInt, ofRatio, zero]; rfl, by simp [zero]⟩
  have nonzero : value.natAbs ≠ 0 := Int.natAbs_ne_zero.2 zero
  have bits : value.natAbs.log2 < 24 := (Nat.log2_lt nonzero).2 small
  refine ⟨_, 23 - value.natAbs.log2, ?_, rfl⟩
  rw [ofInt, ofRatio_one _ nonzero small]
  congr 1
  omega

theorem scaled_neg (negative : Bool) (mantissa : Nat) {places unit : Nat} (le : places ≤ unit) :
    scaled negative mantissa (-places) (-unit) =
      (if negative then -(mantissa : Int) else mantissa) * 2 ^ (unit - places) := by
  have up : (-(places : Int) - -(unit : Int)).toNat = unit - places := by omega
  rw [scaled, up]
  cases negative <;> simp [twoTo]

/-- What a number of at most 24 bits is above its floor is rounded to at most one. -/
theorem sub_floor (negative : Bool) {mantissa places : Nat} (small : mantissa < 2 ^ 24) :
    ∃ rest later : Nat, (sub (.finite negative mantissa (-places)) (floor
        (.finite negative mantissa (-places))) : Single) = .finite false rest (-later) ∧
      rest ≤ 1 * 2 ^ later := by
  by_cases none : mantissa = 0
  · refine ⟨0, 149, ?_, Nat.zero_le _⟩
    cases negative <;> simp [floor, none, zero, sub, neg, add, scaled] <;> rfl
  generalize signed : (if negative then -(mantissa : Int) else mantissa) = value
  have floors : floorInt negative mantissa (-places) = value / 2 ^ places := by
    have whole : max (-(places : Int)) 0 = 0 := by omega
    have up : (-(-(places : Int))).toNat = places := by omega
    rw [floorInt, whole, up, scaled, ← signed]
    cases negative <;> simp [twoTo]
  generalize isFloor : value / 2 ^ places = floored at floors
  have joined := Int.ediv_mul_add_emod value (2 ^ places)
  have above : 0 ≤ value % 2 ^ places := Int.emod_nonneg _ (by positivity)
  have below : value % 2 ^ places < 2 ^ places := Int.emod_lt_of_pos _ (by positivity)
  rw [isFloor] at joined
  have sign : negative = decide (floored < 0) := by
    rw [Bool.eq_iff_iff, decide_eq_true_eq, ← isFloor, Int.ediv_lt_iff_lt_mul (by positivity),
      zero_mul, ← signed]
    cases negative <;> simp
    omega
  have few : floored.natAbs < 2 ^ 24 := by
    have bound : value.natAbs = mantissa := by
      rw [← signed]
      split <;> simp
    rw [← isFloor]
    have := Int.natAbs_ediv_le_natAbs value (2 ^ places)
    omega
  obtain ⟨whole, wholePlaces, ofFloor, isWhole⟩ := ofInt_eq few
  have unit : min (-(places : Int)) (-(wholePlaces : Int)) = -((max places wholePlaces : Nat) : Int) := by
    omega
  have total : (if negative then -(mantissa : Int) else mantissa) * 2 ^ (max places wholePlaces - places) +
      (if !decide (floored < 0) then -(whole : Int) else whole) *
        2 ^ (max places wholePlaces - wholePlaces) =
      ((value % 2 ^ places).toNat * 2 ^ (max places wholePlaces - places) : Nat) := by
    have powers : (2 : Int) ^ wholePlaces * 2 ^ (max places wholePlaces - wholePlaces) =
        2 ^ places * 2 ^ (max places wholePlaces - places) := by
      rw [← pow_add, ← pow_add]
      congr 1
      omega
    have opposite : (if !decide (floored < 0) then -(whole : Int) else whole) = -floored * 2 ^ wholePlaces := by
      rw [isWhole]
      push_cast
      by_cases negative : floored < 0
      · simp [negative, abs_of_neg]
      · simp [negative, abs_of_nonneg (not_lt.1 negative)]
    rw [signed, opposite, mul_assoc, powers, Nat.cast_mul, Int.toNat_of_nonneg above,
      neg_mul, ← mul_assoc, ← sub_eq_add_neg, ← sub_mul]
    congr 1
    omega
  rw [floor, beq_eq_false_iff_ne.2 none, if_neg Bool.false_ne_true, floors, ofFloor, sub, neg, add,
    unit, scaled_neg _ _ (le_max_left ..), scaled_neg _ _ (le_max_right ..), total]
  generalize inUnits : (value % 2 ^ places).toNat * 2 ^ (max places wholePlaces - places) = rest
  by_cases exact : rest = 0
  · have same : (negative && !decide (floored < 0)) = false := by
      rw [sign]
      simp
    rw [exact, same]
    exact ⟨0, 149, rfl, Nat.zero_le _⟩
  · rw [beq_eq_false_iff_ne.2 (by omega), if_neg Bool.false_ne_true, ofDyadic]
    have up : (-(-((max places wholePlaces : Nat) : Int))).toNat = max places wholePlaces := by omega
    have down : (-((max places wholePlaces : Nat) : Int)).toNat = 0 := by omega
    rw [up, down, decide_eq_false (by omega), Int.natAbs_natCast]
    apply ofRatio_le (Nat.pos_iff_ne_zero.1 (Nat.two_pow_pos _)) _ (by decide)
    rw [← inUnits]
    simp only [twoTo, Nat.pow_eq, pow_zero, Nat.mul_one, Nat.one_mul]
    calc (value % 2 ^ places).toNat * 2 ^ (max places wholePlaces - places)
        ≤ 2 ^ places * 2 ^ (max places wholePlaces - places) := by
          apply Nat.mul_le_mul_right
          zify
          rw [Int.toNat_of_nonneg above]
          exact below.le
      _ = 2 ^ max places wholePlaces := by
        rw [← pow_add]
        congr 1
        omega

/-- A finite number of single precision in the form that numbers are kept in. -/
def IsFull (mantissa : Nat) (exponent : Int) : Prop :=
  mantissa < 2 ^ 24 ∧ (0 ≤ exponent → 2 ^ 23 ≤ mantissa ∧ exponent ≤ 104)

instance (mantissa : Nat) (exponent : Int) : Decidable (IsFull mantissa exponent) := by
  unfold IsFull
  infer_instance

theorem sub_floor_le (negative : Bool) {mantissa : Nat} {exponent : Int} (isFull : IsFull mantissa exponent) :
    ∃ rest later : Nat, (sub (.finite negative mantissa exponent) (floor
        (.finite negative mantissa exponent)) : Single) = .finite false rest (-later) ∧
      rest ≤ 1 * 2 ^ later := by
  obtain ⟨small, wide⟩ := isFull
  obtain integral | fractional := le_or_gt 0 exponent
  · obtain ⟨full, range⟩ := wide integral
    obtain ⟨up, rfl⟩ := Int.eq_ofNat_of_zero_le integral
    have whole : max (up : Int) 0 = up := by omega
    have down : (-(up : Int)).toNat = 0 := by omega
    have floored : (floor (.finite negative mantissa up) : Single) = .finite negative mantissa up := by
      have shifted : 0 < mantissa * 2 ^ up := by positivity
      have kept : (ofRatio negative (mantissa * 2 ^ up) 1 : Single) = .finite negative mantissa up :=
        ofRatio_exact negative full small range (by simp [twoTo])
      rw [floor, beq_eq_false_iff_ne.2 (by omega), if_neg Bool.false_ne_true, floorInt, whole, down,
        scaled]
      simp only [sub_zero, Int.toNat_natCast, twoTo, Nat.pow_eq, pow_zero, Nat.cast_one, Int.ediv_one]
      rw [← Nat.cast_mul, ← kept, ofInt]
      generalize mantissa * 2 ^ up = magnitude at shifted
      cases negative with
      | true => rw [if_pos rfl, decide_eq_true (by omega), Int.natAbs_neg, Int.natAbs_natCast]
      | false => rw [if_neg Bool.false_ne_true, decide_eq_false (by omega), Int.natAbs_natCast]
    refine ⟨0, 149, ?_, Nat.zero_le _⟩
    rw [floored, sub, neg, add]
    cases negative <;> simp [scaled] <;> rfl
  · obtain ⟨places, rfl⟩ : ∃ places : Nat, exponent = -(places : Int) := ⟨(-exponent).toNat, by omega⟩
    exact sub_floor negative small

/-- The decimals of a number at any precision, which may be carried to the next integer. -/
theorem roundInt32_fraction (negative : Bool) {mantissa precision : Nat} {exponent : Int}
    (isFull : IsFull mantissa exponent) (few : precision ≤ greatestPrecision) :
    let value : Single := .finite negative mantissa exponent
    let part := ((value.sub value.floor).mul (ofInt32 (tenPower precision))).roundInt32
    0 ≤ part.toInt ∧ part.toInt ≤ 10 ^ precision := by
  intro value part
  have six : greatestPrecision = 6 := rfl
  have isPower : (tenPower precision).toInt = (10 ^ precision : Nat) := by
    rw [toInt_tenPower (by omega)]
    push_cast
    rfl
  have atMost : 10 ^ precision ≤ 10 ^ 6 := Nat.pow_le_pow_right (by decide) (by omega)
  obtain ⟨rest, later, above, le⟩ := sub_floor_le negative isFull
  obtain ⟨power, powerPlaces, ofPower, isMantissa⟩ :=
    @ofInt_eq (10 ^ precision : Nat) (by rw [Int.natAbs_natCast]; omega)
  rw [Int.natAbs_natCast] at isMantissa
  have scales : -(later : Int) + -(powerPlaces : Int) = -((later + powerPlaces : Nat) : Int) := by
    omega
  have up : (-(-((later + powerPlaces : Nat) : Int))).toNat = later + powerPlaces := by omega
  have down : (-((later + powerPlaces : Nat) : Int)).toNat = 0 := by omega
  have product : rest * power * twoTo 0 ≤ 10 ^ precision * twoTo (later + powerPlaces) := by
    simp only [twoTo, Nat.pow_eq, pow_zero, Nat.mul_one]
    calc rest * power ≤ 1 * 2 ^ later * (10 ^ precision * 2 ^ powerPlaces) := by
          rw [isMantissa]
          exact Nat.mul_le_mul_right _ le
      _ = 10 ^ precision * 2 ^ (later + powerPlaces) := by ring
  obtain ⟨rounded, scale, isProduct, bounded⟩ := ofRatio_le
    (Nat.pos_iff_ne_zero.1 (Nat.two_pow_pos (later + powerPlaces))) product (by omega)
  have multiplied : (value.sub value.floor).mul (ofInt32 (tenPower precision)) =
      .finite false rounded (-scale) := by
    rw [above, ofInt32, isPower, ofPower, decide_eq_false (Int.natCast_nonneg _).not_gt, mul, scales, ofDyadic, up, down]
    exact isProduct
  have near : nearest false rounded (-scale) ≤ (10 ^ precision : Nat) ∧
      0 ≤ nearest false rounded (-scale) := by
    have unit : (-(-(scale : Int))).toNat = scale := by omega
    have whole : (-(scale : Int)).toNat = 0 := by omega
    rw [nearest, unit, whole, if_neg Bool.false_ne_true]
    refine ⟨Int.ofNat_le.2 ?_, Int.natCast_nonneg _⟩
    simp only [twoTo, Nat.pow_eq, pow_zero, Nat.mul_one]
    have positive : 0 < 2 ^ scale := Nat.two_pow_pos scale
    rw [Nat.div_le_iff_le_mul_add_pred (by omega)]
    calc 2 * rounded + 2 ^ scale ≤ 2 * (10 ^ precision * 2 ^ scale) + 2 ^ scale := by omega
      _ ≤ 2 * 2 ^ scale * 10 ^ precision + (2 * 2 ^ scale - 1) := by
        rw [Nat.mul_right_comm, Nat.mul_assoc]
        omega
  have kept : part.toInt = nearest false rounded (-scale) := by
    change (roundInt32 _).toInt = _
    have lowest : Int32.minValue.toInt = -2147483648 := rfl
    have highest : Int32.maxValue.toInt = 2147483647 := rfl
    rw [multiplied, roundInt32, clampInt32, if_neg (by omega), if_neg (by omega),
      Int32.toInt_ofInt_of_le (by omega) (by omega)]
  rw [kept]
  exact ⟨near.2, by exact_mod_cast near.1⟩

end Binary

end Number

namespace Counter

variable (counter : Counter) (precision : Nat) (scores : Scores)

/-- The decimals are from `0` up to, but not including, `10 ^ precision`. -/
def IsNormal : Prop :=
  0 ≤ (scores counter.part).toInt ∧ (scores counter.part).toInt < 10 ^ precision

def IsClose : Prop :=
  -10 ^ precision < (scores counter.part).toInt ∧ (scores counter.part).toInt ≤ 10 ^ precision

variable {counter precision scores}

theorem IsNormal.isClose (normal : counter.IsNormal precision scores) : counter.IsClose precision scores :=
  ⟨by linarith [normal.1, show (0 : Int) < 10 ^ precision by positivity], normal.2.le⟩

theorem IsNormal.scores_eq (isDecimal : counter.kind = .decimal precision)
    (normal : counter.IsNormal precision scores) :
    (scores counter.whole).toInt = counter.scaled precision scores / 10 ^ precision ∧
      (scores counter.part).toInt = counter.scaled precision scores % 10 ^ precision := by
  rw [scaled_decimal isDecimal, Int.add_comm, Int.mul_comm, Int.add_mul_ediv_left _ _ (by positivity),
    Int.add_mul_emod_self_left, Int.ediv_eq_zero_of_lt normal.1 normal.2,
    Int.emod_eq_of_lt normal.1 normal.2]
  exact ⟨(Int.zero_add _).symm, rfl⟩

end Counter

/-- The remainder of a truncated division is not negative for numbers that are not, and for
multiples. -/
theorem tmod_nonneg_iff {value divisor : Int} : 0 ≤ value.tmod divisor ↔ 0 ≤ value ∨ divisor ∣ value := by
  constructor
  · intro remainder
    refine or_iff_not_imp_left.2 fun negative => Int.dvd_of_tmod_eq_zero (le_antisymm ?_ remainder)
    have opposite := Int.tmod_nonneg divisor (a := -value) (by omega)
    rw [Int.neg_tmod] at opposite
    omega
  · rintro (nonneg | multiple)
    · exact Int.tmod_nonneg _ nonneg
    · exact (Int.tmod_eq_zero_of_dvd multiple).ge

/-- A change of a decimal: to a number that was written, or by a counter, where temporaries are taken
from `board`. -/
inductive DecimalChange where
  | literal (value : Value)
  | counter (board : Scoreboard) (op : Option ArithOp) (right : Counter)

namespace DecimalChange

def outcome (left : Counter) : DecimalChange → EStateM.Result CounterError Scoreboard (List Command)
  | literal value => assignLiteral selfTarget left none value {}
  | counter board op right => assign selfTarget left op right board

/-- Numbers are integers or finite, and counters have scores apart from new temporaries. -/
def IsUsual : DecimalChange → Prop
  | literal (.int _) => True
  | literal (.float (.finite _ mantissa exponent)) => Binary.IsFull mantissa exponent
  | literal _ => False
  | counter board _ right =>
      right.kind.precision ≤ greatestPrecision ∧ right.IsApart board.nextTemporary

def fraction (value : Single) (precision : Nat) : Int32 :=
  ((value.sub value.floor).mul (.ofInt32 (tenPower precision))).roundInt32

/-- When the decimals are normal after a change, by what is known before it. Those of a written number
must not be carried; integers set or keep them; for everything else the result must not be negative,
or be whole. -/
def StaysNormal (left : Counter) (precision : Nat) (scores : Scores) : DecimalChange → Prop
  | literal (.float value) => (fraction value precision).toInt ≠ 10 ^ precision
  | literal _ => True
  | counter _ op right =>
      let value := right.fixedResult precision scores op (left.scaled precision scores)
      match right.kind, op with
      | .decimal _, _ => 0 ≤ value ∨ 10 ^ precision ∣ value
      | _, none => True
      | _, some .add | _, some .sub => left.IsNormal precision scores
      | _, _ => 0 ≤ value ∨ 10 ^ precision ∣ value

/-- One change after the other, as long as nothing overflows and no divisor is zero. -/
def replayAll? (calls : Calls) (left : Counter) : List DecimalChange → Scores → Option Scores
  | [], scores => some scores
  | change :: rest, scores =>
      match change.outcome left with
      | .ok commands _ => (replayExact? calls commands scores).bind (replayAll? calls left rest)
      | .error _ _ => none

variable {left : Counter} {precision : Nat} {calls : Calls} {scores final : Scores}

/-- What one change makes of the decimals. -/
structure Places (left : Counter) (precision : Nat) (change : DecimalChange) (scores final : Scores) :
    Prop where
  close : left.IsClose precision scores → left.IsClose precision final
  normal : left.IsNormal precision final ↔ change.StaysNormal left precision scores

theorem places_tmod {change : DecimalChange} {value : Int}
    (places : (final left.part).toInt = value.tmod (10 ^ precision))
    (stays : change.StaysNormal left precision scores ↔ 0 ≤ value ∨ 10 ^ precision ∣ value) :
    Places left precision change scores final := by
  have power : (0 : Int) < 10 ^ precision := by positivity
  have below := Int.tmod_lt_of_pos value power
  have above := Int.lt_tmod_of_pos value power
  refine ⟨fun _ => ?_, ?_⟩
  · rw [IsClose, places]
    exact ⟨above, below.le⟩
  · rw [IsNormal, places, stays, tmod_nonneg_iff]
    exact and_iff_left below

def IsPlaced (left : Counter) (precision : Nat) (change : DecimalChange) : Prop :=
  ∃ commands later, change.outcome left = .ok commands later ∧
    ∀ calls scores final, replayExact? calls commands scores = some final →
      Places left precision change scores final

section

variable (isDecimal : left.kind = .decimal precision)

include isDecimal

theorem places_literal (few : precision ≤ greatestPrecision) {value : Value}
    (usual : (literal value).IsUsual) :
    IsPlaced left precision (literal value) := by
  have power : (0 : Int) < 10 ^ precision := by positivity
  obtain ⟨name, kind⟩ := left
  cases isDecimal
  cases value with
  | int value =>
    refine ⟨_, _, rfl, fun calls scores final replayed => ?_⟩
    simp only [setLiteral, replayExact?_scoreSet] at replayed
    cases replayed
    have normal : IsNormal ⟨name, .decimal precision⟩ precision
        ((scores.put (whole ⟨name, .decimal precision⟩) value).put
          (part ⟨name, .decimal precision⟩) 0) := by
      unfold IsNormal
      rw [put_same]
      exact ⟨le_rfl, power⟩
    exact ⟨fun _ => normal.isClose, iff_of_true normal trivial⟩
  | float value =>
    cases value with
    | finite negative mantissa exponent =>
      have bounds := Binary.roundInt32_fraction negative usual few
      refine ⟨_, _, rfl, fun calls scores final replayed => ?_⟩
      simp only [setLiteral, replayExact?_scoreSet] at replayed
      cases replayed
      refine ⟨fun _ => ?_, ?_⟩
      · unfold IsClose
        rw [put_same]
        exact ⟨lt_of_lt_of_le (neg_lt_zero.2 power) bounds.1, bounds.2⟩
      · unfold IsNormal
        rw [put_same]
        exact ⟨fun normal => normal.2.ne, fun below => ⟨bounds.1, lt_of_le_of_ne bounds.2 below⟩⟩
    | nan | infinite negative => exact usual.elim
  | _ => exact usual.elim

theorem places_counter (few : precision ≤ greatestPrecision) {board : Scoreboard}
    {op : Option ArithOp} {right : Counter} (usual : (counter board op right).IsUsual) :
    IsPlaced left precision (counter board op right) := by
  have six : greatestPrecision = 6 := rfl
  obtain ⟨rightFew, apart⟩ := usual
  obtain ⟨commands, later, assigned, spec⟩ :=
    assign_exact isDecimal (by omega) (by omega) apart op
  refine ⟨commands, later, assigned, fun calls scores final replayed => ?_⟩
  obtain ⟨value, -, places⟩ := spec calls scores final replayed
  rw [value] at places
  have power : (0 : Int) < 10 ^ precision := by positivity
  obtain ⟨name, kind⟩ := right
  cases kind with
  | decimal own => exact places_tmod places Iff.rfl
  | record record fields => exact absurd rfl (apart.notRecord record fields)
  | int | time | bool =>
    cases op with
    | none =>
      have normal : left.IsNormal precision final := by
        rw [IsNormal, places]
        exact ⟨le_rfl, power⟩
      exact ⟨fun _ => normal.isClose, iff_of_true normal trivial⟩
    | some op =>
      cases op with
      | add | sub =>
        have same : (final left.part).toInt = (scores left.part).toInt := places
        refine ⟨fun close => ?_, ?_⟩
        · rwa [IsClose, same]
        · rw [IsNormal, same]
          rfl
      | mul | div | mod => exact places_tmod places Iff.rfl

theorem places_of_usual (few : precision ≤ greatestPrecision) {change : DecimalChange}
    (usual : change.IsUsual) : IsPlaced left precision change := by
  cases change with
  | literal value => exact places_literal isDecimal few usual
  | counter board op right => exact places_counter isDecimal few usual

theorem isClose_of_replayAll?
    (few : precision ≤ greatestPrecision) {changes : List DecimalChange}
    (usual : ∀ change ∈ changes, change.IsUsual) (close : left.IsClose precision scores)
    (replayed : replayAll? calls left changes scores = some final) : left.IsClose precision final := by
  induction changes generalizing scores with
  | nil =>
    cases replayed
    exact close
  | cons change rest ih =>
    obtain ⟨isUsual, usualRest⟩ := List.forall_mem_cons.1 usual
    obtain ⟨commands, later, writes, places⟩ := places_of_usual isDecimal few isUsual
    rw [replayAll?, writes] at replayed
    obtain ⟨middle, first, continued⟩ := Option.bind_eq_some_iff.1 replayed
    exact ih usualRest ((places calls scores middle first).close close) continued

end

end DecimalChange

open DecimalChange

/-- After any assignments of numbers and counters to a decimal, the next one writes commands, and
without overflow its decimals are above `-10 ^ p` and at most `10 ^ p`. They are from `0` below `10 ^ p`
exactly where the assignment leaves them so, and then the whole part is the floor of the number, so
that the number says what both scores are. -/
theorem decimal_places_after_changes {left : Counter} {precision : Nat}
    (isDecimal : left.kind = .decimal precision) (few : precision ≤ Value.greatestPrecision)
    (calls : Calls) {changes : List DecimalChange} (usual : ∀ change ∈ changes, change.IsUsual)
    {start scores : Scores} (close : left.IsClose precision start)
    (replayed : DecimalChange.replayAll? calls left changes start = some scores)
    {change : DecimalChange} (isUsual : change.IsUsual) :
    ∃ commands later, change.outcome left = .ok commands later ∧
      ∀ final, replayExact? calls commands scores = some final →
        left.IsClose precision final ∧
        (left.IsNormal precision final ↔ change.StaysNormal left precision scores) ∧
        (left.IsNormal precision final →
          (final left.whole).toInt = left.scaled precision final / 10 ^ precision ∧
          (final left.part).toInt = left.scaled precision final % 10 ^ precision) := by
  obtain ⟨commands, later, writes, places⟩ := places_of_usual isDecimal few isUsual
  refine ⟨commands, later, writes, fun final replayedLast => ?_⟩
  have step := places calls scores final replayedLast
  have before := isClose_of_replayAll? isDecimal few usual close replayed
  exact ⟨step.close before, step.normal, fun normal => normal.scores_eq isDecimal⟩

def DecimalPlaces.scores : Scores :=
  (put (fun _ => 0) "a:w" (-2)).put "a:d" 5

/-- `a = -1.5`, then `a += b` where `b` is zero: the result is cut toward zero, and the same number is
`-2` and `0.5` before and `-1` and `-0.5` after. -/
theorem decimal_places_after_changes_negative :
    let left : Counter := ⟨"a", .decimal 1⟩
    let first : DecimalChange := .literal (.float (.finite true 12582912 (-23)))
    let second : DecimalChange := .counter {} (some .add) ⟨"b", .decimal 1⟩
    DecimalChange.replayAll? (fun _ _ => none) left [first] (fun _ => 0) = some DecimalPlaces.scores ∧
      left.IsNormal 1 DecimalPlaces.scores ∧
      ∃ commands later final, second.outcome left = .ok commands later ∧
        replayExact? (fun _ _ => none) commands DecimalPlaces.scores = some final ∧
        left.IsClose 1 final ∧ ¬left.IsNormal 1 final := by
  intro left first second
  let value : Number.Single := .finite true 12582912 (-23)
  have whole : value.floor.toInt32 = -2 := by decide
  have part : fraction value 1 = 5 := by decide
  have replayed : DecimalChange.replayAll? (fun _ _ => none) left [first] (fun _ => 0) =
      some DecimalPlaces.scores := by
    change some (Scores.put (Scores.put (fun _ => 0) "a:w" value.floor.toInt32) "a:d"
      (fraction value 1)) = _
    rw [whole, part]
    rfl
  have usual : first.IsUsual := by
    change Number.Binary.IsFull _ _
    decide
  obtain ⟨commands, later, writes, spec⟩ := @decimal_places_after_changes left 1 rfl (by decide)
    (fun _ _ => none) [first] (List.forall_mem_singleton.2 usual) (fun _ => 0) _
    ⟨by decide, by decide⟩ replayed second ⟨by decide, Counter.isApart_of_decimal rfl _⟩
  have exactly : Decimals.replaysExactly (second.outcome left) DecimalPlaces.scores = true := by
    decide
  rw [writes] at exactly
  obtain ⟨final, replayedLast⟩ := Option.isSome_iff_exists.1 exactly
  obtain ⟨close, normal, -⟩ := spec final replayedLast
  refine ⟨replayed, ⟨by decide, by decide⟩, commands, later, final, writes, replayedLast, close, ?_⟩
  rw [normal]
  change ¬((0 : Int) ≤ Counter.fixedResult _ _ _ _ _ ∨ (10 : Int) ^ 1 ∣ Counter.fixedResult _ _ _ _ _)
  decide

end ScriptPack
