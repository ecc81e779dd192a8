import ScriptPack.Json.Numeral

/-!
Reading JSON text. Containers may nest `greatestDepth` deep; strings hold no bare control
characters and no half of a surrogate pair; nothing but blanks follows the document.
-/

namespace ScriptPack.Json

def greatestDepth : Nat := 127

def isSpace (c : Char) : Bool :=
  c == ' ' || c == '\n' || c == '\t' || c == '\r'

def skipSpace (text : List Char) : List Char :=
  text.dropWhile isSpace

def hexValue? (c : Char) : Option Nat :=
  if c.isDigit then some (c.toNat - '0'.toNat)
  else if 'a' ≤ c && c ≤ 'f' then some (c.toNat - 'a'.toNat + 10)
  else if 'A' ≤ c && c ≤ 'F' then some (c.toNat - 'A'.toNat + 10)
  else none

def readUnit? : List Char → Option (Nat × List Char)
  | a :: b :: c :: d :: rest => do
      let a ← hexValue? a
      let b ← hexValue? b
      let c ← hexValue? c
      let d ← hexValue? d
      return (((a * 16 + b) * 16 + c) * 16 + d, rest)
  | _ => none

def readEscapedUnit? (text : List Char) : Option (Char × List Char) := do
  let (high, rest) ← readUnit? text
  if 0xDC00 ≤ high && high ≤ 0xDFFF then none
  else if 0xD800 ≤ high && high ≤ 0xDBFF then
    match rest with
    | '\\' :: 'u' :: rest =>
        let (low, rest) ← readUnit? rest
        if 0xDC00 ≤ low && low ≤ 0xDFFF then
          return (Char.ofNat (0x10000 + (high - 0xD800) * 0x400 + (low - 0xDC00)), rest)
        else none
    | _ => none
  else return (Char.ofNat high, rest)

def simpleEscape? (c : Char) : Option Char :=
  match c with
  | '"' => some '"'
  | '\\' => some '\\'
  | '/' => some '/'
  | 'b' => some (Char.ofNat 8)
  | 'f' => some (Char.ofNat 12)
  | 'n' => some '\n'
  | 'r' => some '\r'
  | 't' => some '\t'
  | _ => none

/-- The rest of a string after its opening quote; `read` holds its characters so far, the last
one first. -/
def readQuoted? : Nat → List Char → List Char → Option (String × List Char)
  | 0, _, _ => none
  | steps + 1, read, text =>
      match text with
      | [] => none
      | '"' :: rest => some (String.ofList read.reverse, rest)
      | '\\' :: 'u' :: rest =>
          (readEscapedUnit? rest).bind fun (c, rest) => readQuoted? steps (c :: read) rest
      | '\\' :: c :: rest =>
          (simpleEscape? c).bind fun c => readQuoted? steps (c :: read) rest
      | c :: rest =>
          if c.toNat < 32 || c == '\\' then none else readQuoted? steps (c :: read) rest

def readString? (text : List Char) : Option (String × List Char) :=
  readQuoted? (text.length + 1) [] text

mutual
/-- A value at the start of the text, with at most `room` containers inside each other. Every
call consumes a character, so `steps` need not exceed the length of the text. -/
def readValue? : Nat → Nat → List Char → Option (Json × List Char)
  | 0, _, _ => none
  | steps + 1, room, text =>
      match skipSpace text with
      | 'n' :: 'u' :: 'l' :: 'l' :: rest => some (.null, rest)
      | 't' :: 'r' :: 'u' :: 'e' :: rest => some (.bool true, rest)
      | 'f' :: 'a' :: 'l' :: 's' :: 'e' :: rest => some (.bool false, rest)
      | '"' :: rest => (readString? rest).map fun (text, rest) => (.string text, rest)
      | '[' :: rest =>
          match room with
          | 0 => none
          | room + 1 =>
              match skipSpace rest with
              | ']' :: rest => some (.array [], rest)
              | rest => (readItems? steps room [] rest).map fun (items, rest) =>
                  (.array items, rest)
      | '\x7b' :: rest =>
          match room with
          | 0 => none
          | room + 1 =>
              match skipSpace rest with
              | '\x7d' :: rest => some (.object [], rest)
              | rest => (readMembers? steps room [] rest).map fun (members, rest) =>
                  (.object members, rest)
      | rest => readNumeral? rest

def readItems? : Nat → Nat → List Json → List Char → Option (List Json × List Char)
  | 0, _, _, _ => none
  | steps + 1, room, read, text =>
      (readValue? steps room text).bind fun (item, rest) =>
        match skipSpace rest with
        | ',' :: rest => readItems? steps room (item :: read) rest
        | ']' :: rest => some ((item :: read).reverse, rest)
        | _ => none

def readMembers? : Nat → Nat → List (String × Json) → List Char →
    Option (List (String × Json) × List Char)
  | 0, _, _, _ => none
  | steps + 1, room, read, text =>
      match skipSpace text with
      | '"' :: rest =>
          (readString? rest).bind fun (name, rest) =>
            match skipSpace rest with
            | ':' :: rest =>
                (readValue? steps room rest).bind fun (value, rest) =>
                  match skipSpace rest with
                  | ',' :: rest => readMembers? steps room ((name, value) :: read) rest
                  | '\x7d' :: rest => some (((name, value) :: read).reverse, rest)
                  | _ => none
            | _ => none
      | _ => none
end

def readRaw? (text : String) : Option Json :=
  let chars := text.toList
  (readValue? (2 * chars.length + 2) greatestDepth chars).bind fun (document, rest) =>
    if (skipSpace rest).isEmpty then some document else none

def read? (text : String) : Option Json :=
  (readRaw? text).map canonical

end ScriptPack.Json
