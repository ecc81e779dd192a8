import ScriptPack.Number.Plain

/-!
The numbers, dates and times of TOML: which words are one.
-/

namespace ScriptPack.Toml

open Number

def isDigitRun (isDigit : Char → Bool) : List Char → Bool
  | [] => false
  | [c] => isDigit c
  | c :: '_' :: rest => isDigit c && isDigitRun isDigit rest
  | c :: rest => isDigit c && isDigitRun isDigit rest

def isHexDigit (c : Char) : Bool :=
  c.isDigit || ('a' ≤ c && c ≤ 'f') || ('A' ≤ c && c ≤ 'F')

def digitValue (c : Char) : Nat :=
  if c.isDigit then c.toNat - '0'.toNat
  else if 'a' ≤ c then c.toNat - 'a'.toNat + 10
  else c.toNat - 'A'.toNat + 10

def digitsValue (base : Nat) (text : List Char) : Nat :=
  (text.filter (· != '_')).foldl (fun value c => value * base + digitValue c) 0

def cutSign : List Char → Option Char × List Char
  | '+' :: rest => (some '+', rest)
  | '-' :: rest => (some '-', rest)
  | text => (none, text)

def isDecimalRun (text : List Char) : Bool :=
  isDigitRun Char.isDigit text && (text == ['0'] || text.head? != some '0')

def isInteger (text : List Char) : Bool :=
  match text with
  | '0' :: 'x' :: digits => isDigitRun isHexDigit digits && digitsValue 16 digits < twoTo 63
  | '0' :: 'o' :: digits =>
      isDigitRun (fun c => '0' ≤ c && c ≤ '7') digits && digitsValue 8 digits < twoTo 63
  | '0' :: 'b' :: digits =>
      isDigitRun (fun c => c == '0' || c == '1') digits && digitsValue 2 digits < twoTo 63
  | text =>
      let (sign, digits) := cutSign text
      let limit := if sign == some '-' then twoTo 63 else twoTo 63 - 1
      isDecimalRun digits && digitsValue 10 digits ≤ limit

def isExponentMark (c : Char) : Bool :=
  c == 'e' || c == 'E'

def isTooLarge (text : List Char) : Bool :=
  match (readBinary? (text.filter (· != '_')) : Option Double) with
  | some (.infinite negative) => !negative
  | _ => false

def isFloat (written : List Char) : Bool :=
  let (_, text) := cutSign written
  if text == "inf".toList || text == "nan".toList then true
  else
    let mantissa := text.takeWhile (!isExponentMark ·)
    let exponent := text.drop mantissa.length
    let whole := mantissa.takeWhile (· != '.')
    let fraction := mantissa.drop whole.length
    let exponentFits := match exponent with
      | [] => true
      | _ :: digits => isDigitRun Char.isDigit (cutSign digits).2
    let fractionFits := match fraction with
      | [] => !exponent.isEmpty
      | _ :: digits => isDigitRun Char.isDigit digits
    isDecimalRun whole && fractionFits && exponentFits && !isTooLarge written

def cutDigits? (count : Nat) (text : List Char) : Option (Nat × List Char) :=
  let digits := text.take count
  if digits.length == count && digits.all Char.isDigit then
    some (digitsValue 10 digits, text.drop count)
  else none

def isLeapYear (year : Nat) : Bool :=
  year % 4 == 0 && (year % 100 != 0 || year % 400 == 0)

def daysIn (year month : Nat) : Nat :=
  if month == 2 then (if isLeapYear year then 29 else 28)
  else if month == 4 || month == 6 || month == 9 || month == 11 then 30
  else 31

def cutDate? (text : List Char) : Option (List Char) := do
  let (year, text) ← cutDigits? 4 text
  let text ← if text.head? == some '-' then some text.tail else none
  let (month, text) ← cutDigits? 2 text
  let text ← if text.head? == some '-' then some text.tail else none
  let (day, text) ← cutDigits? 2 text
  if 1 ≤ month && month ≤ 12 && 1 ≤ day && day ≤ daysIn year month then some text else none

def cutTime? (text : List Char) : Option (List Char) := do
  let (hour, text) ← cutDigits? 2 text
  let text ← if text.head? == some ':' then some text.tail else none
  let (minute, text) ← cutDigits? 2 text
  let text ← if text.head? == some ':' then some text.tail else none
  let (second, text) ← cutDigits? 2 text
  if !(hour ≤ 23 && minute ≤ 59 && second ≤ 60) then none
  else
    match text with
    | '.' :: fraction =>
        let digits := fraction.takeWhile Char.isDigit
        if digits.isEmpty then none else some (fraction.drop digits.length)
    | text => some text

def isOffset (text : List Char) : Bool :=
  match text with
  | [] | ['Z'] | ['z'] => true
  | sign :: rest =>
      (sign == '+' || sign == '-') && (do
        let (hours, rest) ← cutDigits? 2 rest
        let rest ← if rest.head? == some ':' then some rest.tail else none
        let (minutes, rest) ← cutDigits? 2 rest
        if hours ≤ 23 && minutes ≤ 59 && rest.isEmpty then some () else none).isSome

def isMoment (text : List Char) : Bool :=
  match cutDate? text with
  | some [] => true
  | some (mark :: rest) =>
      (mark == 'T' || mark == 't' || mark == ' ') && (cutTime? rest).any isOffset
  | none => (cutTime? text).any List.isEmpty

end ScriptPack.Toml
