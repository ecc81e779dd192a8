import ScriptPack.Number.Plain

/-!
Coordinates: absolute, relative to the position (`~`) and relative to the view (`^`).
-/

namespace ScriptPack

structure Coord where
  value : Number.Single
  decimal : Bool
  relative : Bool
  facing : Bool
deriving DecidableEq, Repr

namespace Coord

open Number

def here : Coord := ⟨.zero false, false, true, false⟩

def facingHere : Coord := ⟨.zero false, false, false, true⟩

def ofInt32 (value : Int32) : Coord := ⟨.ofInt32 value, false, false, false⟩

def ofDecimal (value : Single) : Coord := ⟨value, true, false, false⟩

def ofRelative (value : Single) : Coord := ⟨value, value.hasFraction, true, false⟩

def ofFacing (value : Single) : Coord := ⟨value, value.hasFraction, false, true⟩

def isAbsolute (coord : Coord) : Bool :=
  !coord.relative && !coord.facing

def valueInt (coord : Coord) : Int32 :=
  coord.value.roundInt32

/-- The coordinate moved to another value; it is written as a decimal from then on if either of
the two needs it. -/
def withValue (coord : Coord) (value : Single) : Coord :=
  { coord with value, decimal := coord.decimal || value.hasFraction }

def readChars? (text : List Char) : Option Coord :=
  let (relative, facing, rest) := match text with
    | '~' :: rest => (true, false, rest)
    | '^' :: rest => (false, true, rest)
    | rest => (false, false, rest)
  if rest.isEmpty then
    if relative || facing then some ⟨.zero false, false, relative, facing⟩ else none
  else (readSingle? rest).map fun value => ⟨value, rest.contains '.', relative, facing⟩

def read? (text : String) : Option Coord :=
  readChars? text.toList

def render (coord : Coord) : String :=
  let mark := if coord.relative then "~" else if coord.facing then "^" else ""
  if !coord.isAbsolute && coord.value.isZero then mark
  else if coord.decimal then mark ++ coord.value.showPlain
  else mark ++ showInt32 coord.value.toInt32

def lesser (first second : Coord) : Coord :=
  if first.relative == second.relative && first.facing == second.facing &&
      second.value.less first.value then second
  else first

def sizeKnown (pairs : List (Coord × Coord)) : Bool :=
  pairs.all fun (first, second) =>
    !first.facing && !second.facing && first.relative == second.relative

def equals (left right : Coord) : Bool :=
  left.value.equals right.value && left.decimal == right.decimal &&
    left.relative == right.relative && left.facing == right.facing

end Coord

/-- Three coordinates. -/
structure Position where
  x : Coord
  y : Coord
  z : Coord
deriving DecidableEq, Repr

def Position.here : Position := ⟨.here, .here, .here⟩

def Position.render (position : Position) : String :=
  position.x.render ++ " " ++ position.y.render ++ " " ++ position.z.render

def Position.equals (left right : Position) : Bool :=
  left.x.equals right.x && left.y.equals right.y && left.z.equals right.z

end ScriptPack
