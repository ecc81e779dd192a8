import ScriptPack.Coord
import ScriptPack.Range
import ScriptPack.Text.Cut

/-!
Entity selectors. A selector has a base such as `@s` or `@e`, an optional limit on the number of
entities, and clauses that each narrow the choice. A selector that executes a command may also
move the position and test a block there.
-/

namespace ScriptPack

/-- The entities that a selector starts from. -/
inductive SelectorBase where
  | self
  | players
  | entities
  | nearest
  | initiator
deriving DecidableEq, Repr

def SelectorBase.read? : String → Option SelectorBase
  | "@s" => some self
  | "@a" => some players
  | "@e" => some entities
  | "@p" => some nearest
  | "@i" | "@initiator" => some initiator
  | _ => none

def SelectorBase.render : SelectorBase → String
  | self => "@s"
  | players => "@a"
  | entities => "@e"
  | nearest => "@p"
  | initiator => "@initiator"

/-- A word that an entity must have, or must not have when negated. -/
structure WordClause where
  word : String
  negated : Bool := false
deriving DecidableEq, Repr

structure ScoreClause where
  objective : String
  range : Range
deriving DecidableEq, Repr

structure ItemClause where
  item : String
  data : Option Int32 := none
  location : Option String := none
  slot : Option Int32 := none
  quantity : Option Range := none
deriving DecidableEq, Repr

/-- A test of the block at a position. -/
structure BlockClause where
  position : Position
  block : String
  data : Option Int32
deriving DecidableEq, Repr

def BlockClause.of (position : Position) (block : String) (data : Option Int32) : BlockClause :=
  ⟨position, block, data.filter (· != 0)⟩

/-- Where an entity may stand. -/
structure Area where
  x : Option Coord := none
  y : Option Coord := none
  z : Option Coord := none
  radius : Option Number.Single := none
  innerRadius : Option Number.Single := none
deriving DecidableEq, Repr

def Area.isEmpty (area : Area) : Bool :=
  area.x.isNone && area.y.isNone && area.z.isNone && area.radius.isNone && area.innerRadius.isNone

structure Selector where
  base : SelectorBase
  count : Option Int32 := none
  types : List WordClause := []
  names : List WordClause := []
  families : List WordClause := []
  tags : List WordClause := []
  scores : List ScoreClause := []
  items : List ItemClause := []
  area : Area := {}
  blockClause : Option BlockClause := none
  /-- The position in place of `~ ~ ~` when the selector executes a command. -/
  offset : Option Position := none
  /-- Clauses that are carried along as they were written. -/
  extra : List String := []
deriving DecidableEq, Repr

namespace Selector

def self : Selector := { base := .self }

def hasClauses (selector : Selector) : Bool :=
  selector.count.isSome || !selector.types.isEmpty || !selector.names.isEmpty ||
    !selector.families.isEmpty || !selector.tags.isEmpty || !selector.scores.isEmpty ||
    !selector.items.isEmpty || !selector.area.isEmpty || !selector.extra.isEmpty

/-- Whether commands for this selector's entities must be executed by them, because `@s` does not
name them. -/
def needsAlign (selector : Selector) : Bool :=
  selector.base != .self || selector.hasClauses || selector.blockClause.isSome ||
    selector.offset.isSome

def selectsMultiple (selector : Selector) : Bool :=
  (selector.base == .players || selector.base == .entities) && selector.count != some 1

def withScore (selector : Selector) (objective : String) (range : Range) : Selector :=
  { selector with scores := selector.scores ++ [⟨objective, range⟩] }

def withTag (selector : Selector) (tag : String) : Selector :=
  { selector with tags := selector.tags ++ [⟨tag, false⟩] }

def lesserCount : Option Int32 → Option Int32 → Option Int32
  | some left, some right => some (min left right)
  | none, right => right
  | left, none => left

/-- Narrows a selector by every clause of another. A base other than `@s` replaces `@s`, and the
other's area counts only where the selector has none. -/
def merge (selector other : Selector) : Selector where
  base := if selector.base == .self then other.base else selector.base
  count := lesserCount selector.count other.count
  types := selector.types ++ other.types
  names := selector.names ++ other.names
  families := selector.families ++ other.families
  tags := selector.tags ++ other.tags
  scores := selector.scores ++ other.scores
  items := selector.items ++ other.items
  area := if selector.area.isEmpty then other.area else selector.area
  blockClause := other.blockClause <|> selector.blockClause
  offset := other.offset <|> selector.offset
  extra := selector.extra ++ other.extra

def equals (left right : Selector) : Bool :=
  let sameRadius := fun (left right : Option Number.Single) => match left, right with
    | some left, some right => left.equals right
    | none, none => true
    | _, _ => false
  let sameCoord := fun (left right : Option Coord) => match left, right with
    | some left, some right => left.equals right
    | none, none => true
    | _, _ => false
  let sameBlock := match left.blockClause, right.blockClause with
    | some left, some right =>
        left.position.equals right.position && left.block == right.block &&
          left.data == right.data
    | none, none => true
    | _, _ => false
  let sameOffset := match left.offset, right.offset with
    | some left, some right => left.equals right
    | none, none => true
    | _, _ => false
  left.base == right.base && left.count == right.count && left.types == right.types &&
    left.names == right.names && left.families == right.families && left.tags == right.tags &&
    left.scores == right.scores && left.items == right.items &&
    sameCoord left.area.x right.area.x && sameCoord left.area.y right.area.y &&
    sameCoord left.area.z right.area.z && sameRadius left.area.radius right.area.radius &&
    sameRadius left.area.innerRadius right.area.innerRadius && sameBlock && sameOffset &&
    left.extra == right.extra

end Selector

end ScriptPack
