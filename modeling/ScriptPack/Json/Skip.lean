import ScriptPack.Json.Reader

/-!
Passing over JSON text. A value that nobody asks for is only checked for its form: containers nest
to any depth, numerals have any size, and an escaped unit in a string need not be a character. An
object can so be read for some of its members alone.
-/

namespace ScriptPack.Json

def skipQuoted? : List Char → Option (List Char)
  | [] => none
  | '"' :: rest => some rest
  | '\\' :: 'u' :: a :: b :: c :: d :: rest =>
      if [a, b, c, d].all fun digit => (hexValue? digit).isSome then skipQuoted? rest else none
  | '\\' :: c :: rest => if (simpleEscape? c).isSome then skipQuoted? rest else none
  | c :: rest => if c.toNat < 32 || c == '\\' then none else skipQuoted? rest

def skipDigits? (text : List Char) : Option (List Char) :=
  if text.head?.any Char.isDigit then some (text.dropWhile Char.isDigit) else none

def skipPower? : List Char → Option (List Char)
  | [] => some []
  | c :: rest =>
      if c == 'e' || c == 'E' then
        match rest with
        | '-' :: digits => skipDigits? digits
        | '+' :: digits => skipDigits? digits
        | digits => skipDigits? digits
      else some (c :: rest)

def skipMagnitude? (text : List Char) : Option (List Char) := do
  let rest ← match text with
    | '0' :: rest => if rest.head?.any Char.isDigit then none else some rest
    | digits => skipDigits? digits
  match rest with
  | '.' :: fraction => (skipDigits? fraction).bind skipPower?
  | rest => skipPower? rest

mutual
/-- The rest after a value. Every call consumes a character, so `steps` need not exceed the length
of the text. -/
def skipValue? : Nat → List Char → Option (List Char)
  | 0, _ => none
  | steps + 1, text =>
      match skipSpace text with
      | 'n' :: 'u' :: 'l' :: 'l' :: rest => some rest
      | 't' :: 'r' :: 'u' :: 'e' :: rest => some rest
      | 'f' :: 'a' :: 'l' :: 's' :: 'e' :: rest => some rest
      | '"' :: rest => skipQuoted? rest
      | '[' :: rest =>
          match skipSpace rest with
          | ']' :: rest => some rest
          | rest => skipItems? steps rest
      | '\x7b' :: rest =>
          match skipSpace rest with
          | '\x7d' :: rest => some rest
          | rest => skipMembers? steps rest
      | '-' :: rest => skipMagnitude? rest
      | rest => skipMagnitude? rest

def skipItems? : Nat → List Char → Option (List Char)
  | 0, _ => none
  | steps + 1, text =>
      (skipValue? steps text).bind fun rest =>
        match skipSpace rest with
        | ',' :: rest => skipItems? steps rest
        | ']' :: rest => some rest
        | _ => none

def skipMembers? : Nat → List Char → Option (List Char)
  | 0, _ => none
  | steps + 1, text =>
      match skipSpace text with
      | '"' :: rest =>
          (skipQuoted? rest).bind fun rest =>
            match skipSpace rest with
            | ':' :: rest =>
                (skipValue? steps rest).bind fun rest =>
                  match skipSpace rest with
                  | ',' :: rest => skipMembers? steps rest
                  | '\x7d' :: rest => some rest
                  | _ => none
            | _ => none
      | _ => none
end

def readMemberIf? (wanted : Bool) (steps : Nat) (text : List Char) :
    Option (Option Json × List Char) :=
  if wanted then (readValue? steps (greatestDepth - 1) text).map fun (value, rest) =>
    (some value, rest)
  else (skipValue? steps text).map fun rest => (none, rest)

def readSomeMembers? (wanted : String → Bool) :
    Nat → List (String × Json) → List Char → Option (List (String × Json) × List Char)
  | 0, _, _ => none
  | steps + 1, read, text =>
      match skipSpace text with
      | '"' :: rest => do
          let (name, rest) ← readString? rest
          match skipSpace rest with
          | ':' :: rest => do
              let (value?, rest) ← readMemberIf? (wanted name) steps rest
              let read := match value? with
                | some value => (name, value) :: read
                | none => read
              match skipSpace rest with
              | ',' :: rest => readSomeMembers? wanted steps read rest
              | '\x7d' :: rest => some (read.reverse, rest)
              | _ => none
          | _ => none
      | _ => none

/-- The document a text denotes. Of an object only the wanted members are read, as they are
written. -/
def readSome? (wanted : String → Bool) (text : String) : Option Json :=
  let chars := text.toList
  match skipSpace chars with
  | '\x7b' :: rest => do
      let (members, rest) ← match skipSpace rest with
        | '\x7d' :: rest => some ([], rest)
        | rest => readSomeMembers? wanted (2 * chars.length + 2) [] rest
      if (skipSpace rest).isEmpty then some (.object members) else none
  | _ => readRaw? text

end ScriptPack.Json
