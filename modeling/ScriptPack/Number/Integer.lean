/-!
Powers of small bases, and integers as text. A signed numeral is an optional sign followed by
ASCII digits; it is accepted only when its value fits the bounds of the integer type it is read
for.
-/

namespace ScriptPack.Number

def twoTo (exponent : Nat) : Nat :=
  Nat.pow 2 exponent

def fiveTo (exponent : Nat) : Nat :=
  Nat.pow 5 exponent

def tenTo (exponent : Nat) : Nat :=
  Nat.pow 10 exponent

def readDigits? (text : List Char) : Option Nat :=
  if text.isEmpty || !text.all Char.isDigit then none
  else some (text.foldl (fun value c => value * 10 + (c.toNat - '0'.toNat)) 0)

def readSigned? : List Char → Option Int
  | '-' :: digits => (readDigits? digits).map fun value => -(value : Int)
  | '+' :: digits => (readDigits? digits).map fun value => (value : Int)
  | digits => (readDigits? digits).map fun value => (value : Int)

def readUnsigned? (greatest : Nat) (text : List Char) : Option Nat :=
  let digits := match text with
    | '+' :: digits => digits
    | digits => digits
  (readDigits? digits).filter (· ≤ greatest)

def readInt32? (text : List Char) : Option Int32 :=
  (readSigned? text).bind fun value =>
    if Int32.minValue.toInt ≤ value && value ≤ Int32.maxValue.toInt then some (Int32.ofInt value)
    else none

def clampInt32 (value : Int) : Int32 :=
  if value ≤ Int32.minValue.toInt then Int32.minValue
  else if Int32.maxValue.toInt ≤ value then Int32.maxValue
  else Int32.ofInt value

def showInt32 (value : Int32) : String :=
  toString value.toInt

def tenPower (exponent : Nat) : Int32 :=
  if exponent < 10 then Int32.ofNat (tenTo exponent) else Int32.maxValue

end ScriptPack.Number
