import ScriptPack.Toml.Basic
import ScriptPack.Toml.Number

/-!
Reading TOML. Readers take characters from the front of a text and give back the rest; nothing is
read from a text with a fault.
-/

namespace ScriptPack.Toml

def isControl (c : Char) : Bool :=
  (c.toNat < 0x20 && c != '\t') || c.toNat == 0x7f

def isBlank (c : Char) : Bool :=
  c == ' ' || c == '\t'

def skipBlanks (text : List Char) : List Char :=
  text.dropWhile isBlank

def skipLines (inComment : Bool) : List Char → Option (List Char)
  | [] => some []
  | '\r' :: '\n' :: rest => skipLines false rest
  | '\n' :: rest => skipLines false rest
  | c :: rest =>
      if inComment then
        if isControl c then none else skipLines true rest
      else if isBlank c then skipLines false rest
      else if c == '#' then skipLines true rest
      else some (c :: rest)

def endLine (inComment : Bool) : List Char → Option (List Char)
  | [] => some []
  | '\r' :: '\n' :: rest => some rest
  | '\n' :: rest => some rest
  | c :: rest =>
      if inComment then
        if isControl c then none else endLine true rest
      else if isBlank c then endLine false rest
      else if c == '#' then endLine true rest
      else none

def codePoint? (digits : List Char) : Option Char :=
  if digits.all isHexDigit then
    let point := digitsValue 16 digits
    if point.isValidChar then some (Char.ofNat point) else none
  else none

def simpleEscape? (c : Char) : Option Char :=
  match c with
  | 'b' => some '\x08'
  | 't' => some '\t'
  | 'n' => some '\n'
  | 'f' => some '\x0c'
  | 'r' => some '\r'
  | '"' => some '"'
  | '\\' => some '\\'
  | _ => none

/-- Reads a string in double quotes after the first one; `seen` holds the characters so far, last
one first. -/
def readBasic (seen : List Char) : List Char → Option (String × List Char)
  | [] => none
  | '"' :: rest => some (String.ofList seen.reverse, rest)
  | '\\' :: 'u' :: a :: b :: c :: d :: rest => do
      let point ← codePoint? [a, b, c, d]
      readBasic (point :: seen) rest
  | '\\' :: 'U' :: a :: b :: c :: d :: e :: f :: g :: h :: rest => do
      let point ← codePoint? [a, b, c, d, e, f, g, h]
      readBasic (point :: seen) rest
  | '\\' :: c :: rest => do
      let escaped ← simpleEscape? c
      readBasic (escaped :: seen) rest
  | c :: rest => if isControl c || c == '\\' then none else readBasic (c :: seen) rest

def readLiteral (seen : List Char) : List Char → Option (String × List Char)
  | [] => none
  | '\'' :: rest => some (String.ofList seen.reverse, rest)
  | c :: rest => if isControl c then none else readLiteral (c :: seen) rest

def lineEnds (text : List Char) : Bool :=
  match skipBlanks text with
  | '\n' :: _ | '\r' :: '\n' :: _ => true
  | _ => false

/-- Reads a string in three double quotes after the first three. Up to two quotes may stand right
before the closing ones. A backslash at the end of a line skips everything up to the next
character that is no blank or line break; `skipping` tells whether that is done. -/
def readLongBasic (skipping : Bool) (seen : List Char) : List Char → Option (String × List Char)
  | [] => none
  | '"' :: '"' :: '"' :: '"' :: '"' :: rest =>
      some (String.ofList ('"' :: '"' :: seen).reverse, rest)
  | '"' :: '"' :: '"' :: '"' :: rest => some (String.ofList ('"' :: seen).reverse, rest)
  | '"' :: '"' :: '"' :: rest => some (String.ofList seen.reverse, rest)
  | '\\' :: 'u' :: a :: b :: c :: d :: rest => do
      let point ← codePoint? [a, b, c, d]
      readLongBasic false (point :: seen) rest
  | '\\' :: 'U' :: a :: b :: c :: d :: e :: f :: g :: h :: rest => do
      let point ← codePoint? [a, b, c, d, e, f, g, h]
      readLongBasic false (point :: seen) rest
  | '\\' :: c :: rest =>
      if lineEnds (c :: rest) then readLongBasic true seen (c :: rest)
      else do
        let escaped ← simpleEscape? c
        readLongBasic false (escaped :: seen) rest
  | '\r' :: '\n' :: rest =>
      readLongBasic skipping (if skipping then seen else '\n' :: seen) rest
  | '\n' :: rest => readLongBasic skipping (if skipping then seen else '\n' :: seen) rest
  | c :: rest =>
      if isControl c || c == '\\' then none
      else if skipping && isBlank c then readLongBasic true seen rest
      else readLongBasic false (c :: seen) rest

def readLongLiteral (seen : List Char) : List Char → Option (String × List Char)
  | [] => none
  | '\'' :: '\'' :: '\'' :: '\'' :: '\'' :: rest =>
      some (String.ofList ('\'' :: '\'' :: seen).reverse, rest)
  | '\'' :: '\'' :: '\'' :: '\'' :: rest => some (String.ofList ('\'' :: seen).reverse, rest)
  | '\'' :: '\'' :: '\'' :: rest => some (String.ofList seen.reverse, rest)
  | '\r' :: '\n' :: rest => readLongLiteral ('\n' :: seen) rest
  | '\n' :: rest => readLongLiteral ('\n' :: seen) rest
  | c :: rest => if isControl c then none else readLongLiteral (c :: seen) rest

def skipFirstBreak : List Char → List Char
  | '\r' :: '\n' :: rest => rest
  | '\n' :: rest => rest
  | text => text

def isBareKeyChar (c : Char) : Bool :=
  c.isAlphanum || c == '_' || c == '-'

def readKey? : List Char → Option (String × List Char)
  | '"' :: rest => readBasic [] rest
  | '\'' :: rest => readLiteral [] rest
  | text =>
      let name := text.takeWhile isBareKeyChar
      if name.isEmpty then none else some (String.ofList name, text.drop name.length)

def readKeys? : Nat → List Char → Option (List String × List Char)
  | 0, _ => none
  | steps + 1, text => do
      let (name, rest) ← readKey? (skipBlanks text)
      match skipBlanks rest with
      | '.' :: rest => do
          let (names, rest) ← readKeys? steps rest
          some (name :: names, rest)
      | rest => some ([name], rest)

def isWordChar (c : Char) : Bool :=
  c.isAlphanum || c == '_' || c == '+' || c == '-' || c == '.' || c == ':'

/-- A word that is a truth value, a number or a moment. A blank may stand between a date and a
time. -/
def readWord? (text : List Char) : Option (Toml × List Char) :=
  let word := text.takeWhile isWordChar
  let rest := text.drop word.length
  let more := match rest with
    | ' ' :: c :: rest => if c.isDigit then ' ' :: (c :: rest).takeWhile isWordChar else []
    | _ => []
  if word == "true".toList then some (.boolean true, rest)
  else if word == "false".toList then some (.boolean false, rest)
  else if isInteger word || isFloat word then some (.number (String.ofList word), rest)
  else if !more.isEmpty && isMoment (word ++ more) then
    some (.moment (String.ofList (word ++ more)), rest.drop more.length)
  else if isMoment word then some (.moment (String.ofList word), rest)
  else none

mutual
/-- A value. At most `depth` arrays and tables stand in each other, and `steps` bounds the
recursion. -/
def readValue? : Nat → Nat → List Char → Option (Toml × List Char)
  | 0, _, _ => none
  | steps + 1, depth, text =>
      match text with
      | '"' :: '"' :: '"' :: rest =>
          (readLongBasic false [] (skipFirstBreak rest)).map fun (text, rest) =>
            (.string text, rest)
      | '"' :: rest => (readBasic [] rest).map fun (text, rest) => (.string text, rest)
      | '\'' :: '\'' :: '\'' :: rest =>
          (readLongLiteral [] (skipFirstBreak rest)).map fun (text, rest) => (.string text, rest)
      | '\'' :: rest => (readLiteral [] rest).map fun (text, rest) => (.string text, rest)
      | '[' :: rest =>
          match depth with
          | 0 => none
          | depth + 1 => readItems? steps depth [] rest
      | '\x7b' :: rest =>
          match depth with
          | 0 => none
          | depth + 1 =>
              match skipBlanks rest with
              | '\x7d' :: rest => some (.table .braces [], rest)
              | rest => readMembers? steps depth [] rest
      | text => readWord? text

def readItems? : Nat → Nat → List Toml → List Char → Option (Toml × List Char)
  | 0, _, _, _ => none
  | steps + 1, depth, seen, text => do
      match ← skipLines false text with
      | ']' :: rest => some (.array seen.reverse, rest)
      | text => do
          let (item, rest) ← readValue? steps depth text
          match ← skipLines false rest with
          | ',' :: rest => readItems? steps depth (item :: seen) rest
          | ']' :: rest => some (.array (item :: seen).reverse, rest)
          | _ => none

def readMembers? : Nat → Nat → Members → List Char → Option (Toml × List Char)
  | 0, _, _, _ => none
  | steps + 1, depth, seen, text => do
      let (keys, rest) ← readKeys? (greatestDepth - 1) text
      let name ← keys.getLast?
      match rest with
      | '=' :: rest => do
          let (value, rest) ← readValue? steps depth (skipBlanks rest)
          let members ← addDotted name value keys.dropLast seen
          match skipBlanks rest with
          | ',' :: rest => readMembers? steps depth members rest
          | '\x7d' :: rest => some (.table .braces members, rest)
          | _ => none
      | _ => none
end

def readHeader? (closing : List Char) (text : List Char) : Option (List String × List Char) := do
  let (keys, rest) ← readKeys? (greatestDepth - 1) text
  if rest.take closing.length == closing then
    let rest ← endLine false (rest.drop closing.length)
    some (keys, rest)
  else none

/-- A document being read: its members, and the keys of the table that lines add to. -/
structure Draft where
  members : Members := []
  current : List String := []

def readLine? (draft : Draft) (text : List Char) : Option (Draft × List Char) := do
  match text with
  | '[' :: '[' :: rest => do
      let (keys, rest) ← readHeader? [']', ']'] rest
      let name ← keys.getLast?
      let members ← updateAt (openElement name) keys.dropLast draft.members
      some (⟨members, keys⟩, rest)
  | '[' :: rest => do
      let (keys, rest) ← readHeader? [']'] rest
      let name ← keys.getLast?
      let members ← updateAt (openTable name) keys.dropLast draft.members
      some (⟨members, keys⟩, rest)
  | text => do
      let (keys, rest) ← readKeys? (greatestDepth - 1) text
      let name ← keys.getLast?
      match rest with
      | '=' :: rest => do
          let (value, rest) ← readValue? text.length (greatestDepth - 1) (skipBlanks rest)
          let members ← updateAt (addDotted name value keys.dropLast) draft.current draft.members
          let rest ← endLine false rest
          some ({ draft with members }, rest)
      | _ => none

def readLines? : Nat → Draft → List Char → Option Members
  | 0, _, _ => none
  | steps + 1, draft, text => do
      match ← skipLines false text with
      | [] => some draft.members
      | text => do
          let (draft, rest) ← readLine? draft text
          readLines? steps draft rest

def read? (text : String) : Option Members :=
  let text := match text.toList with
    | '\ufeff' :: rest => rest
    | text => text
  readLines? (text.length + 1) {} text

end ScriptPack.Toml
