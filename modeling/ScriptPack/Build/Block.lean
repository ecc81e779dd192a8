import ScriptPack.Build.Arguments

/-!
Placing blocks: single ones, areas, replacements, and blocks scattered over an area. A scattered
area is a structure of the pack, loaded in part.
-/

namespace ScriptPack

open BuildM View

/-- How the block in the way of a placed block is handled: the mode before the block's name. A
word is only a mode if a name follows it. -/
def View.takeBlockMode (modes : List String) (tokens : List Token) :
    Except Problem (String × List Token) :=
  match tokens with
  | ⟨.word word, _⟩ :: second :: rest =>
      if string.admits second.kind || identifier.admits second.kind then
        let mode := Text.lower word
        if modes.contains mode then .ok (mode, second :: rest)
        else .error (.invalidBlockMode word modes)
      else .ok ("replace", tokens)
  | _ => .ok ("replace", tokens)

def Position.extent (start stop : Position) : Int × Int × Int :=
  let along := fun (first second : Coord) =>
    (((second.valueInt.toInt - first.valueInt.toInt).natAbs + 1 : Nat) : Int)
  (along start.x stop.x, along start.y stop.y, along start.z stop.z)

def Position.lesserCorner (start stop : Position) : Position :=
  ⟨.lesser start.x stop.x, .lesser start.y stop.y, .lesser start.z stop.z⟩

def Position.extentKnown (start stop : Position) : Bool :=
  Coord.sizeKnown [(start.x, stop.x), (start.y, stop.y), (start.z, stop.z)]

def scatterFits (size : Int × Int × Int) : Bool :=
  let (x, y, z) := size
  let (maxX, maxY, maxZ) := Problem.greatestScatter
  x ≤ maxX.toInt && y ≤ maxY.toInt && z ≤ maxZ.toInt

def scatterAsset (name block : String) (size : Int × Int × Int) : Asset where
  kind := .blocks
  name := name
  content := Json.canonical (.object [
    ("format_version", .integer 1),
    ("size", .array [.integer size.1, .integer size.2.1, .integer size.2.2]),
    ("structure_world_origin", .array [.integer 0, .integer 0, .integer 0]),
    ("palette", .array [.string block])])

namespace ArgumentM

def runBlock : ArgumentM Unit := do
  let mode ← read (takeBlockMode ["replace", "keep", "destroy"])
  let block ← name
  let place ← position
  let data ← next? integer
  emitSelected (.setBlock place block (data.getD 0) mode)

def runFill : ArgumentM Unit := do
  let mode ← read (takeBlockMode ["replace", "keep", "destroy", "hollow", "outline"])
  let block ← name
  let start ← position
  let stop ← position
  let data ← next? integer
  emitSelected (.fill start stop block (data.getD 0) mode)

def runScatter : ArgumentM Unit := do
  let block ← name
  let percent ← next integer
  let start ← position
  let stop ← position
  if !start.extentKnown stop then fail .scatterSizeUnknown
  let seed ← next? string
  let size := start.extent stop
  if !scatterFits size then fail .scatterTooLarge
  let index ← session Session.nextScatter
  let name := "scatter_" ++ toString index
  modifyThe Build (·.addAsset (scatterAsset name block size))
  emitSelected (.loadPartOfStructure name (start.lesserCorner stop) percent seed)

def runReplace : ArgumentM Unit := do
  let source ← name
  let sourceData ← next? integer
  let start ← position
  let stop ← position
  let block ← name
  let data ← next? integer
  emitSelected
    (.fillReplace start stop block (data.getD (-1)) source (sourceData.getD (-1)))

end ArgumentM

end ScriptPack
