import ScriptPack.Text.Interval
import ScriptPack.Text.CaseTable

/-!
Upper case, lower case and title case of whole texts. Case mappings follow the full mappings of
the character tables, so one character may become several, and a capital sigma at the end of a
word becomes a final small sigma. Keywords are compared by ASCII case only.
-/

namespace ScriptPack.Text

def mapCase (runs : List CaseRun) (expansions : List (Nat × List Nat)) (c : Char) : List Char :=
  let point := c.toNat
  match expansions.lookup point with
  | some points => points.map Char.ofNat
  | none =>
      match runs.find? (·.covers point) with
      | some run => [Char.ofNat (point + run.offset).toNat]
      | none => [c]

def upperChar (c : Char) : List Char :=
  if c.toNat < 128 then [c.toUpper] else mapCase upperRuns upperExpansions c

def lowerChar (c : Char) : List Char :=
  if c.toNat < 128 then [c.toLower] else mapCase lowerRuns lowerExpansions c

def upper (text : String) : String :=
  String.ofList (text.toList.flatMap upperChar)

def reachesCased (text : List Char) : Bool :=
  match text.dropWhile (fun c => inIntervals c.toNat caseIgnorableIntervals) with
  | [] => false
  | c :: _ => inIntervals c.toNat casedIntervals

/-- Lower case of `text` after the characters `before`, given in reverse. A capital sigma is
final when a cased character stands before it and none after it. -/
def lowerAfter (before : List Char) : List Char → List Char
  | [] => []
  | c :: rest =>
      let mapped :=
        if c == 'Σ' then
          if reachesCased before && !reachesCased rest then ['ς'] else ['σ']
        else lowerChar c
      mapped ++ lowerAfter (c :: before) rest

def lower (text : String) : String :=
  String.ofList (lowerAfter [] text.toList)

def capitalize : List Char → List Char
  | [] => []
  | c :: rest => upperChar c ++ rest.flatMap lowerChar

def splitChars (divides : Char → Bool) : List Char → List (List Char)
  | [] => [[]]
  | c :: rest =>
      if divides c then [] :: splitChars divides rest
      else
        match splitChars divides rest with
        | [] => [[c]]
        | piece :: pieces => (c :: piece) :: pieces

def friendly (text : String) : String :=
  let words := splitChars (fun c => c == '_' || c == '-' || c == ' ') text.toList
  String.ofList ([' '].intercalate (words.map capitalize))

/-- A way to write texts. -/
inductive TextCase where
  | upper
  | lower
  | friendly
deriving DecidableEq, Repr

def TextCase.apply : TextCase → String → String
  | upper, text => Text.upper text
  | lower, text => Text.lower text
  | friendly, text => Text.friendly text

def sameWord (left right : String) : Bool :=
  left.toList.map Char.toLower == right.toList.map Char.toLower

end ScriptPack.Text
