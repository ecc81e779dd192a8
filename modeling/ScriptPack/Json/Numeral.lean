import ScriptPack.Json.Basic

/-!
JSON numerals. A numeral without fraction and exponent is an integer when it fits 64 bits.
Otherwise its significand is collected in 64 bits, digits that no longer fit only move the
decimal point, and the value is that significand multiplied or divided once by a power of ten.
-/

namespace ScriptPack.Json

open Number

/-- `significand · 10^exponent`. -/
structure Scientific where
  significand : Nat
  exponent : Int

def pushDigit? (significand : Nat) (c : Char) : Option Nat :=
  let next := significand * 10 + (c.toNat - '0'.toNat)
  if next < twoTo 64 then some next else none

/-- Collects digits before the point. The result says whether all of them fitted; if not, the
exponent counts those left out. -/
def takeWhole (significand : Nat) : List Char → Nat × Option Nat × List Char
  | [] => (significand, none, [])
  | c :: rest =>
      if c.isDigit then
        match pushDigit? significand c with
        | some next => takeWhole next rest
        | none =>
            let dropped := (c :: rest).takeWhile Char.isDigit
            (significand, some dropped.length, (c :: rest).dropWhile Char.isDigit)
      else (significand, none, c :: rest)

def takeFraction (number : Scientific) : List Char → Scientific × List Char
  | [] => (number, [])
  | c :: rest =>
      if c.isDigit then
        match pushDigit? number.significand c with
        | some next => takeFraction ⟨next, number.exponent - 1⟩ rest
        | none => (number, rest.dropWhile Char.isDigit)
      else (number, c :: rest)

def divideByPower : Nat → Double → Nat → Double
  | 0, value, _ => value
  | steps + 1, value, power =>
      if power ≤ 308 then value.div (.ofDecimal false 1 power)
      else if value.isZero then value
      else divideByPower steps (value.div (.ofDecimal false 1 308)) (power - 308)

def Scientific.value? (negative : Bool) (number : Scientific) : Option Double :=
  let base : Double := .ofRatio false number.significand 1
  let magnitude : Option Double :=
    if 0 ≤ number.exponent then
      if number.exponent ≤ 308 then
        match base.mul (.ofDecimal false 1 number.exponent) with
        | .infinite _ => none
        | value => some value
      else if number.significand == 0 then some base
      else none
    else some (divideByPower 8 base (-number.exponent).toNat)
  magnitude.map fun value => if negative then value.neg else value

def readPower? (negative : Bool) (number : Scientific) : List Char → Option (Double × List Char)
  | [] => (number.value? negative).map (·, [])
  | c :: rest =>
      if c == 'e' || c == 'E' then
        let (down, digits) := match rest with
          | '-' :: digits => (true, digits)
          | '+' :: digits => (false, digits)
          | digits => (false, digits)
        let after := digits.dropWhile Char.isDigit
        (readDigits? (digits.takeWhile Char.isDigit)).bind fun power =>
          if Int32.maxValue.toInt < power then
            if number.significand != 0 && !down then none else some (.zero negative, after)
          else
            let exponent := if down then number.exponent - power else number.exponent + power
            (Scientific.value? negative ⟨number.significand, exponent⟩).map (·, after)
      else (number.value? negative).map (·, c :: rest)

def readMagnitude? (negative : Bool) : List Char → Option (Json × List Char)
  | [] => none
  | c :: rest =>
      if !c.isDigit then none
      else if c == '0' && (rest.head?.any Char.isDigit) then none
      else
        let (significand, dropped, after) := takeWhole 0 (c :: rest)
        let number : Scientific := ⟨significand, (dropped.getD 0 : Nat)⟩
        match after with
        | '.' :: fraction =>
            if fraction.head?.any Char.isDigit then
              let (number, after) := takeFraction number fraction
              (readPower? negative number after).map fun (value, after) => (.float value, after)
            else none
        | _ =>
            let scientific := after.head?.any fun c => c == 'e' || c == 'E'
            if scientific || dropped.isSome then
              (readPower? negative number after).map fun (value, after) => (.float value, after)
            else if !negative then some (.integer significand, after)
            else if significand == 0 || twoTo 63 < significand then
              some (.float (.ofRatio true significand 1), after)
            else some (.integer (-significand), after)

def readNumeral? : List Char → Option (Json × List Char)
  | '-' :: rest => readMagnitude? true rest
  | rest => readMagnitude? false rest

end ScriptPack.Json
