import ScriptPack.Selector.Basic

/-!
The text of selectors, as the target of a command and in front of an executed command.
-/

namespace ScriptPack

open ItemClause Number Text

def WordClause.isPlain (c : Char) : Bool :=
  c.isAlphanum || c == '_' || c == ':' || c == '.'

def WordClause.render (clause : WordClause) (key : String) : String :=
  let mark := if clause.negated then "!" else ""
  if clause.word.toList.all isPlain then key ++ "=" ++ mark ++ clause.word
  else key ++ "=" ++ mark ++ "\"" ++ clause.word ++ "\""

def ScoreClause.render (clause : ScoreClause) : String :=
  clause.objective ++ "=" ++ clause.range.render

def ItemClause.field (key : String) (value : Option String) : List String :=
  value.toList.map (key ++ "=" ++ ·)

def ItemClause.render (clause : ItemClause) : String :=
  let fields :=
    ("item=" ++ clause.item) :: field "data" (clause.data.map showInt32) ++
      field "location" clause.location ++ field "slot" (clause.slot.map showInt32) ++
      field "quantity" (clause.quantity.map Range.render)
  "\x7b" ++ joinWith "," fields ++ "\x7d"

def BlockClause.render (clause : BlockClause) : String :=
  "detect " ++ clause.position.render ++ " " ++ clause.block ++ " " ++
    showInt32 (clause.data.getD 0)

namespace Selector

def scorePart : List ScoreClause → List String
  | [] => []
  | scores => ["scores=\x7b" ++ joinWith "," (scores.map ScoreClause.render) ++ "\x7d"]

def itemPart : List ItemClause → List String
  | [] => []
  | [item] => ["hasitem=" ++ item.render]
  | items => ["hasitem=[" ++ joinWith "," (items.map render) ++ "]"]

def areaParts (area : Area) : List String :=
  field "x" (area.x.map Coord.render) ++
    field "y" (area.y.map Coord.render) ++
    field "z" (area.z.map Coord.render) ++
    field "r" (area.radius.map Binary.showPlain) ++
    field "rm" (area.innerRadius.map Binary.showPlain)

def parts (selector : Selector) : List String :=
  selector.types.map (·.render "type") ++ selector.names.map (·.render "name") ++
    selector.families.map (·.render "family") ++ selector.tags.map (·.render "tag") ++
    scorePart selector.scores ++ itemPart selector.items ++ areaParts selector.area ++
    field "c" (selector.count.map showInt32) ++ selector.extra

def render (selector : Selector) : String :=
  match selector.parts with
  | [] => selector.base.render
  | parts => selector.base.render ++ "[" ++ joinWith "," parts ++ "]"

def executeText (selector : Selector) : String :=
  let test := match selector.blockClause with
    | some clause => clause.render ++ " "
    | none => ""
  "execute " ++ selector.render ++ " " ++ (selector.offset.getD .here).render ++ " " ++ test

end Selector

end ScriptPack
