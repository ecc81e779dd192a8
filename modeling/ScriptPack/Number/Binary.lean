import ScriptPack.Number.Integer

/-!
Binary floating-point numbers as exact data. A finite number is `±mantissa · 2^exponent`, and
every operation is the exact result rounded once to the nearest number of the format, a tie going
to the even mantissa. Numbers are kept in one form: the mantissa has `precision` bits unless the
exponent is the least one of the format.
-/

namespace ScriptPack.Number

/-- Precision and exponent range of a binary floating-point format. -/
structure BinaryFormat where
  /-- Bits of a full mantissa. -/
  precision : Nat
  /-- Exponent of the least positive number. -/
  least : Int
  /-- Exponent of the greatest finite number. -/
  greatest : Int

def BinaryFormat.single : BinaryFormat := ⟨24, -149, 104⟩

def BinaryFormat.double : BinaryFormat := ⟨53, -1074, 971⟩

inductive Binary (format : BinaryFormat) where
  | nan
  | infinite (negative : Bool)
  | finite (negative : Bool) (mantissa : Nat) (exponent : Int)
deriving DecidableEq, Repr

abbrev Single := Binary .single

abbrev Double := Binary .double

def roundQuotient (numerator denominator : Nat) : Nat :=
  let quotient := numerator / denominator
  let excess := 2 * (numerator % denominator)
  if denominator < excess || (excess == denominator && quotient % 2 == 1) then quotient + 1
  else quotient

namespace Binary

variable {format : BinaryFormat}

def zero (negative : Bool) : Binary format :=
  .finite negative 0 format.least

def ofRatio (negative : Bool) (numerator denominator : Nat) : Binary format :=
  if numerator == 0 || denominator == 0 then zero negative
  else
    -- at this exponent the quotient has `precision` bits or one more
    let estimate : Int :=
      max format.least ((numerator.log2 : Int) - denominator.log2 - format.precision)
    let above := numerator * twoTo (-estimate).toNat
    let below := denominator * twoTo estimate.toNat
    let exponent := if twoTo format.precision ≤ above / below then estimate + 1 else estimate
    let rounded :=
      roundQuotient (numerator * twoTo (-exponent).toNat) (denominator * twoTo exponent.toNat)
    let (mantissa, exponent) :=
      if rounded == twoTo format.precision then (twoTo (format.precision - 1), exponent + 1)
      else (rounded, exponent)
    if format.greatest < exponent then .infinite negative
    else .finite negative mantissa exponent

def ofDyadic (negative : Bool) (mantissa : Nat) (exponent : Int) : Binary format :=
  ofRatio negative (mantissa * twoTo exponent.toNat) (twoTo (-exponent).toNat)

def ofInt (value : Int) : Binary format :=
  ofRatio (value < 0) value.natAbs 1

def ofInt32 (value : Int32) : Binary format :=
  ofInt value.toInt

/-- The number nearest to `±digits · 10^exponent`. Exponents far outside the format are settled
by the number of digits alone, without computing the power. -/
def ofDecimal (negative : Bool) (digits : Nat) (exponent : Int) : Binary format :=
  if digits == 0 then zero negative
  else
    let magnitude := exponent + (Nat.toDigits 10 digits).length
    if 400 < magnitude then .infinite negative
    else if magnitude < -400 then zero negative
    else ofRatio negative (digits * tenTo exponent.toNat) (tenTo (-exponent).toNat)

def convert {target : BinaryFormat} : Binary format → Binary target
  | nan => nan
  | infinite negative => infinite negative
  | finite negative mantissa exponent => ofDyadic negative mantissa exponent

def isZero : Binary format → Bool
  | finite _ mantissa _ => mantissa == 0
  | _ => false

def scaled (negative : Bool) (mantissa : Nat) (exponent unit : Int) : Int :=
  let magnitude : Int := mantissa * twoTo (exponent - unit).toNat
  if negative then -magnitude else magnitude

def neg : Binary format → Binary format
  | nan => nan
  | infinite negative => infinite !negative
  | finite negative mantissa exponent => finite (!negative) mantissa exponent

def add : Binary format → Binary format → Binary format
  | nan, _ | _, nan => nan
  | infinite left, infinite right => if left == right then infinite left else nan
  | infinite left, finite _ _ _ => infinite left
  | finite _ _ _, infinite right => infinite right
  | finite leftSign leftMantissa leftExponent, finite rightSign rightMantissa rightExponent =>
      let unit := min leftExponent rightExponent
      let total :=
        scaled leftSign leftMantissa leftExponent unit +
          scaled rightSign rightMantissa rightExponent unit
      if total == 0 then zero (leftSign && rightSign)
      else ofDyadic (total < 0) total.natAbs unit

def sub (left right : Binary format) : Binary format :=
  add left (neg right)

def mul : Binary format → Binary format → Binary format
  | nan, _ | _, nan => nan
  | infinite left, infinite right => infinite (left != right)
  | infinite left, finite right mantissa _ | finite right mantissa _, infinite left =>
      if mantissa == 0 then nan else infinite (left != right)
  | finite leftSign leftMantissa leftExponent, finite rightSign rightMantissa rightExponent =>
      ofDyadic (leftSign != rightSign) (leftMantissa * rightMantissa)
        (leftExponent + rightExponent)

def div : Binary format → Binary format → Binary format
  | nan, _ | _, nan => nan
  | infinite _, infinite _ => nan
  | infinite left, finite right _ _ => infinite (left != right)
  | finite left _ _, infinite right => zero (left != right)
  | finite leftSign leftMantissa leftExponent, finite rightSign rightMantissa rightExponent =>
      let negative := leftSign != rightSign
      if rightMantissa == 0 then
        if leftMantissa == 0 then nan else infinite negative
      else
        let exponent := leftExponent - rightExponent
        ofRatio negative (leftMantissa * twoTo exponent.toNat)
          (rightMantissa * twoTo (-exponent).toNat)

/-- The remainder of the division truncated toward zero; it is exact and has the sign of the
dividend. -/
def rem : Binary format → Binary format → Binary format
  | nan, _ | _, nan => nan
  | infinite _, _ => nan
  | finite negative mantissa exponent, infinite _ => finite negative mantissa exponent
  | finite leftSign leftMantissa leftExponent, finite _ rightMantissa rightExponent =>
      if rightMantissa == 0 then nan
      else
        let unit := min leftExponent rightExponent
        let left := leftMantissa * twoTo (leftExponent - unit).toNat
        let right := rightMantissa * twoTo (rightExponent - unit).toNat
        ofDyadic leftSign (left % right) unit

def compare? : Binary format → Binary format → Option Ordering
  | nan, _ | _, nan => none
  | infinite left, infinite right =>
      some (if left == right then .eq else if left then .lt else .gt)
  | infinite left, finite _ _ _ => some (if left then .lt else .gt)
  | finite _ _ _, infinite right => some (if right then .gt else .lt)
  | finite leftSign leftMantissa leftExponent, finite rightSign rightMantissa rightExponent =>
      let unit := min leftExponent rightExponent
      some (compare (scaled leftSign leftMantissa leftExponent unit)
        (scaled rightSign rightMantissa rightExponent unit))

def equals (left right : Binary format) : Bool :=
  compare? left right == some .eq

def less (left right : Binary format) : Bool :=
  compare? left right == some .lt

def lessEq (left right : Binary format) : Bool :=
  match compare? left right with
  | some .lt | some .eq => true
  | _ => false

def truncate (negative : Bool) (mantissa : Nat) (exponent : Int) : Int :=
  let magnitude : Int := (mantissa * twoTo exponent.toNat / twoTo (-exponent).toNat : Nat)
  if negative then -magnitude else magnitude

def nearest (negative : Bool) (mantissa : Nat) (exponent : Int) : Int :=
  let unit := twoTo (-exponent).toNat
  let magnitude : Int := ((2 * (mantissa * twoTo exponent.toNat) + unit) / (2 * unit) : Nat)
  if negative then -magnitude else magnitude

def floorInt (negative : Bool) (mantissa : Nat) (exponent : Int) : Int :=
  scaled negative mantissa (max exponent 0) 0 / twoTo (-exponent).toNat

def hasFraction : Binary format → Bool
  | finite _ mantissa exponent => mantissa % twoTo (-exponent).toNat != 0
  | _ => true

def floor : Binary format → Binary format
  | finite negative mantissa exponent =>
      if mantissa == 0 then zero negative else ofInt (floorInt negative mantissa exponent)
  | other => other

def toInt32 : Binary format → Int32
  | nan => 0
  | infinite negative => if negative then Int32.minValue else Int32.maxValue
  | finite negative mantissa exponent => clampInt32 (truncate negative mantissa exponent)

/-- To the nearest 32-bit integer, a half going away from zero; values outside go to the nearer
bound and NaN to zero. -/
def roundInt32 : Binary format → Int32
  | finite negative mantissa exponent => clampInt32 (nearest negative mantissa exponent)
  | other => other.toInt32

def toCount (integral : Bool → Nat → Int → Int) : Binary format → Nat
  | nan => 0
  | infinite negative => if negative then 0 else twoTo 64 - 1
  | finite negative mantissa exponent =>
      min (integral negative mantissa exponent).toNat (twoTo 64 - 1)

end Binary

end ScriptPack.Number
