import ScriptPack.Number.Shortest

/-!
Single-precision numbers as plain decimal text. A number is written with the fewest digits that
read back, never with an exponent and without a fraction when it has none. The reader accepts an
optional sign before digits with an optional point and exponent, or before one of the words for
infinity and NaN in any case.
-/

namespace ScriptPack.Number

def positional (decimal : Decimal) : List Char :=
  let digits := Nat.toDigits 10 decimal.digits
  let whole : Int := digits.length + decimal.exponent
  if 0 ≤ decimal.exponent then digits ++ List.replicate decimal.exponent.toNat '0'
  else if 0 < whole then digits.take whole.toNat ++ '.' :: digits.drop whole.toNat
  else '0' :: '.' :: List.replicate (-whole).toNat '0' ++ digits

namespace Binary

variable {format : BinaryFormat}

def showPlain : Binary format → String
  | nan => "NaN"
  | infinite negative => if negative then "-inf" else "inf"
  | finite negative mantissa exponent =>
      let text :=
        if mantissa == 0 then ['0']
        else positional (Decimal.shortest format .upward mantissa exponent)
      String.ofList (if negative then '-' :: text else text)

end Binary

def readExponent? : List Char → Option Int
  | [] => some 0
  | c :: rest => if c == 'e' || c == 'E' then readSigned? rest else none

/-- Digits with an optional point and exponent, as a decimal. At least one digit stands before or
after the point. -/
def readDecimal? (text : List Char) : Option Decimal :=
  let whole := text.takeWhile Char.isDigit
  let afterWhole := text.dropWhile Char.isDigit
  let (fraction, afterFraction) := match afterWhole with
    | '.' :: rest => (rest.takeWhile Char.isDigit, rest.dropWhile Char.isDigit)
    | rest => ([], rest)
  (readDigits? (whole ++ fraction)).bind fun digits =>
    (readExponent? afterFraction).map fun exponent => ⟨digits, exponent - fraction.length⟩

def readMagnitude? {format : BinaryFormat} (negative : Bool) (text : List Char) :
    Option (Binary format) :=
  let word := text.map Char.toLower
  if word == "inf".toList || word == "infinity".toList then some (.infinite negative)
  else if word == "nan".toList then some .nan
  else (readDecimal? text).map fun decimal => .ofDecimal negative decimal.digits decimal.exponent

def readBinary? {format : BinaryFormat} : List Char → Option (Binary format)
  | '-' :: rest => readMagnitude? true rest
  | '+' :: rest => readMagnitude? false rest
  | rest => readMagnitude? false rest

def readSingle? (text : List Char) : Option Single :=
  readBinary? text

end ScriptPack.Number
