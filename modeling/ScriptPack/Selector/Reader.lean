import ScriptPack.Selector.Basic
import ScriptPack.Text.Blank

/-!
Reading selectors. The clauses stand between the first opening and the last closing bracket and
are divided by the commas outside of braces, brackets and quotes. A clause with an unknown key, or
with none, is kept as it stands; a number that cannot be read leaves its field empty.
-/

namespace ScriptPack

/-- The pieces of a clause list. `depth` counts brackets that are open, `quoted` tells whether a
quote is, and `piece` holds the current piece, last character first. -/
def topLevelPieces (depth : Int) (quoted : Bool) (piece : List Char) : List Char → List (List Char)
  | [] => [piece.reverse]
  | c :: rest =>
      if c == '"' then topLevelPieces depth (!quoted) (c :: piece) rest
      else if !quoted && (c == '\x7b' || c == '[') then
        topLevelPieces (depth + 1) quoted (c :: piece) rest
      else if !quoted && (c == '\x7d' || c == ']') then
        topLevelPieces (depth - 1) quoted (c :: piece) rest
      else if c == ',' && !quoted && depth == 0 then
        piece.reverse :: topLevelPieces depth quoted [] rest
      else topLevelPieces depth quoted (c :: piece) rest

def splitTopLevel (text : List Char) : List (List Char) :=
  ((topLevelPieces 0 false [] text).map Text.trimChars).filter (!·.isEmpty)

def WordClause.read (text : List Char) : WordClause :=
  let (negated, word) := match Text.trimChars text with
    | '!' :: word => (true, word)
    | word => (false, word)
  ⟨String.ofList (Text.dropEnd '"' (Text.dropStart '"' word)), negated⟩

def ScoreClause.read? (text : List Char) : Option ScoreClause := do
  let (objective, range) ← Text.cutAt? '=' text
  let range ← Range.readChars? (Text.trimChars range)
  return ⟨String.ofList (Text.trimChars objective), range⟩

def withoutBraces (text : List Char) : List Char :=
  Text.dropEnd '\x7d' (Text.dropStart '\x7b' text)

def ItemClause.readField (clause : ItemClause) (text : List Char) : ItemClause :=
  match Text.cutAt? '=' text with
  | none => clause
  | some (key, value) =>
      let value := Text.trimChars value
      match String.ofList (Text.trimChars key) with
      | "item" => { clause with item := String.ofList value }
      | "data" => { clause with data := Number.readInt32? value }
      | "location" => { clause with location := some (String.ofList value) }
      | "slot" => { clause with slot := Number.readInt32? value }
      | "quantity" => { clause with quantity := Range.readChars? value }
      | _ => clause

def ItemClause.read (text : List Char) : ItemClause :=
  (splitTopLevel (withoutBraces text)).foldl readField { item := "" }

def ItemClause.readList (text : List Char) : List ItemClause :=
  match text with
  | '[' :: entries => (splitTopLevel (Text.dropEnd ']' entries)).map read
  | entry => [read entry]

namespace Selector

def readClause (selector : Selector) (text : List Char) : Selector :=
  match Text.cutAt? '=' text with
  | none => { selector with extra := selector.extra ++ [String.ofList text] }
  | some (key, value) =>
      let value := Text.trimChars value
      match String.ofList (Text.trimChars key) with
      | "type" => { selector with types := selector.types ++ [.read value] }
      | "name" => { selector with names := selector.names ++ [.read value] }
      | "family" => { selector with families := selector.families ++ [.read value] }
      | "tag" => { selector with tags := selector.tags ++ [.read value] }
      | "c" => { selector with count := Number.readInt32? value }
      | "x" => { selector with area.x := Coord.readChars? value }
      | "y" => { selector with area.y := Coord.readChars? value }
      | "z" => { selector with area.z := Coord.readChars? value }
      | "r" => { selector with area.radius := Number.readSingle? value }
      | "rm" => { selector with area.innerRadius := Number.readSingle? value }
      | "scores" =>
          let scores := (splitTopLevel (withoutBraces value)).filterMap ScoreClause.read?
          { selector with scores := selector.scores ++ scores }
      | "hasitem" => { selector with items := selector.items ++ ItemClause.readList value }
      | _ => { selector with extra := selector.extra ++ [String.ofList (Text.trimChars text)] }

def cutBrackets? (text : List Char) : Option (List Char × Option (List Char)) :=
  match Text.cutAt? '[' text with
  | none => some (text, none)
  | some (base, rest) => (Text.cutAtLast? ']' rest).map fun (body, _) => (base, some body)

def readChars? (text : List Char) : Option Selector := do
  let (base, body) ← cutBrackets? (Text.trimChars text)
  let base ← SelectorBase.read? (String.ofList base)
  return (splitTopLevel (body.getD [])).foldl readClause { base }

def read? (text : String) : Option Selector :=
  readChars? text.toList

/-- The selector meant by a text: `@s` if it is empty, a selector if it starts with `@`, and
otherwise the entities of that name, where `name:type` also gives their type. -/
def ofText? (text : String) : Option Selector :=
  match Text.trimChars text.toList with
  | [] => some self
  | '@' :: rest => readChars? ('@' :: rest)
  | rest =>
      let whole : Selector := { base := .entities, names := [⟨String.ofList rest, false⟩] }
      match Text.cutAt? ':' rest with
      | some (name, type) =>
          if name.isEmpty || type.isEmpty then some whole
          else
            let types := [WordClause.mk (String.ofList type) false]
            some { base := .entities, names := [⟨String.ofList name, false⟩], types }
      | none => some whole

end Selector

end ScriptPack
