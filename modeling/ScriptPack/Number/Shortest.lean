import ScriptPack.Number.Binary

/-!
The shortest decimal of a binary number. The reals that round to a number form an interval; among
the decimals inside it those with the fewest digits are sought, and of them the one nearest to the
number. The search walks the decimal grids from coarse to fine and tests the two neighbours of the
number on each grid with exact arithmetic.
-/

namespace ScriptPack.Number

/-- `digits · 10^exponent`. -/
structure Decimal where
  digits : Nat
  exponent : Int
deriving DecidableEq, Repr

/-- Which of two equally near decimals is taken. -/
inductive Tie where
  | toEven
  | upward
deriving DecidableEq, Repr

namespace Decimal

def compareBinary (digits : Nat) (place : Int) (mantissa : Nat) (exponent : Int) : Ordering :=
  compare (digits * tenTo place.toNat * twoTo (-exponent).toNat)
    (mantissa * twoTo exponent.toNat * tenTo (-place).toNat)

/-- Whether `digits · 10^place` rounds to `mantissa · 2^exponent`. The neighbour below is only half
as far away when the mantissa is the least of its exponent, which `narrow` says. -/
def readsBack (narrow : Bool) (mantissa : Nat) (exponent : Int) (digits : Nat) (place : Int) :
    Bool :=
  let low := if narrow then 4 * mantissa - 1 else 4 * mantissa - 2
  let inclusive := mantissa % 2 == 0
  let fromLow := compareBinary digits place low (exponent - 2)
  let fromHigh := compareBinary digits place (4 * mantissa + 2) (exponent - 2)
  (fromLow == .gt || (inclusive && fromLow == .eq)) &&
    (fromHigh == .lt || (inclusive && fromHigh == .eq))

def nearer (tie : Tie) (mantissa : Nat) (exponent : Int) (below : Nat) (place : Int) : Nat :=
  match compareBinary (2 * below + 1) place (2 * mantissa) exponent with
  | .lt => below + 1
  | .gt => below
  | .eq => if tie == .toEven && below % 2 == 0 then below else below + 1

def search (tie : Tie) (narrow : Bool) (mantissa : Nat) (exponent : Int) :
    Nat → Int → Option Decimal
  | 0, _ => none
  | steps + 1, place =>
      let below :=
        mantissa * twoTo exponent.toNat * tenTo (-place).toNat /
          (twoTo (-exponent).toNat * tenTo place.toNat)
      let fits := readsBack narrow mantissa exponent
      match fits below place, fits (below + 1) place with
      | true, true => some ⟨nearer tie mantissa exponent below place, place⟩
      | true, false => some ⟨below, place⟩
      | false, true => some ⟨below + 1, place⟩
      | false, false => search tie narrow mantissa exponent steps (place - 1)

/-- The shortest decimal of a positive number of the format; the exact decimal should no grid of
twenty places have one. -/
def shortest (format : BinaryFormat) (tie : Tie) (mantissa : Nat) (exponent : Int) : Decimal :=
  let narrow := mantissa == twoTo (format.precision - 1) && format.least < exponent
  let bits : Int := mantissa.log2 + 1 + exponent
  let place := bits * 30103 / 100000 + 1
  match search tie narrow mantissa exponent 20 place with
  | some decimal => decimal
  | none => ⟨mantissa * twoTo exponent.toNat * fiveTo (-exponent).toNat, min exponent 0⟩

end Decimal

end ScriptPack.Number
