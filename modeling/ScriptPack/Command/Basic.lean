import ScriptPack.Coord
import ScriptPack.Text.Cut
import ScriptPack.Value.Operator

/-!
The commands of the game, one line of text each.
-/

namespace ScriptPack

/-- What `scoreboard players operation` does to its first score. -/
inductive ScoreOp where
  | copy
  | arith (op : ArithOp)
  | least
  | greatest
  | swap
deriving DecidableEq, Repr

def ScoreOp.symbol : ScoreOp → String
  | copy => "="
  | arith op => op.symbol ++ "="
  | least => "<"
  | greatest => ">"
  | swap => "><"

def ScoreOp.all : List ScoreOp :=
  [copy, arith .add, arith .sub, arith .mul, arith .div, arith .mod, least, greatest, swap]

def ScoreOp.read? (symbol : String) : Option ScoreOp :=
  all.find? (·.symbol == symbol)

/-- A command. Targets are written as texts, since they may name players as well as selectors. -/
inductive Command where
  | raw (text : String)
  | objectiveAdd (objective : String)
  | objectiveRemove (objective : String)
  | scoreSet (target objective : String) (value : Int32)
  | scoreAdd (target objective : String) (value : Int32)
  | scoreRemove (target objective : String) (value : Int32)
  | scoreReset (target objective : String)
  | operation (target objective : String) (op : ScoreOp) (source other : String)
  | execute (target : String) (position : Position) (command : Command)
  | call (path : String)
  | say (text : String)
  | tellraw (target text : String)
  | titleraw (target place text : String)
  | titleTimes (target : String) (fadeIn stay fadeOut : Int32)
  | give (target item : String) (count data : Int32) (components : Option String)
  | teleport (target : String) (position : Position)
  | teleportTo (target destination : String)
  | teleportRotated (target : String) (position : Position) (yaw pitch : Coord)
  | teleportFacing (target : String) (position view : Position)
  | teleportFacingEntity (target : String) (position : Position) (other : String)
  | setBlock (position : Position) (block : String) (data : Int32) (mode : String)
  | fill (start stop : Position) (block : String) (data : Int32) (mode : String)
  | fillReplace (start stop : Position) (block : String) (data : Int32) (source : String)
      (sourceData : Int32)
  | loadStructure (name : String) (position : Position)
  | loadPartOfStructure (name : String) (position : Position) (percent : Int32)
      (seed : Option String)
  | kill (target : String)
  | tagAdd (target tag : String)
  | tagRemove (target tag : String)
  | damage (target : String) (amount : Int32) (cause : String)
  | damageBy (target : String) (amount : Int32) (cause damager : String)
  | summon (entity : String) (position : Position) (event name : Option String)
  | triggerEvent (target event : String)
deriving DecidableEq, Repr

namespace Command

def words (texts : List String) : String :=
  Text.joinWith " " texts

open Number in
def render : Command → String
  | raw text => text
  | objectiveAdd objective => words ["scoreboard objectives add", objective, "dummy"]
  | objectiveRemove objective => words ["scoreboard objectives remove", objective]
  | scoreSet target objective value =>
      words ["scoreboard players set", target, objective, showInt32 value]
  | scoreAdd target objective value =>
      words ["scoreboard players add", target, objective, showInt32 value]
  | scoreRemove target objective value =>
      words ["scoreboard players remove", target, objective, showInt32 value]
  | scoreReset target objective => words ["scoreboard players reset", target, objective]
  | operation target objective op source other =>
      words ["scoreboard players operation", target, objective, op.symbol, source, other]
  | execute target position command =>
      words ["execute", target, position.render, command.render]
  | call path => words ["function", path]
  | say text => words ["say", text]
  | tellraw target text => words ["tellraw", target, text]
  | titleraw target place text => words ["titleraw", target, place, text]
  | titleTimes target fadeIn stay fadeOut =>
      words ["titleraw", target, "times", showInt32 fadeIn, showInt32 stay, showInt32 fadeOut]
  | give target item count data components =>
      words (["give", target, item, showInt32 count, showInt32 data] ++ components.toList)
  | teleport target position => words ["tp", target, position.render]
  | teleportTo target destination => words ["tp", target, destination]
  | teleportRotated target position yaw pitch =>
      words ["tp", target, position.render, yaw.render, pitch.render]
  | teleportFacing target position view =>
      words ["tp", target, position.render, "facing", view.render]
  | teleportFacingEntity target position other =>
      words ["tp", target, position.render, "facing", other]
  | setBlock position block data mode =>
      words ["setblock", position.render, block, showInt32 data, mode]
  | fill start stop block data mode =>
      words ["fill", start.render, stop.render, block, showInt32 data, mode]
  | fillReplace start stop block data source sourceData =>
      words ["fill", start.render, stop.render, block, showInt32 data, "replace", source,
        showInt32 sourceData]
  | loadStructure name position => words ["structure load", name, position.render]
  | loadPartOfStructure name position percent seed =>
      words (["structure load", name, position.render, "0_degrees none false true",
        showInt32 percent] ++ seed.toList)
  | kill target => words ["kill", target]
  | tagAdd target tag => words ["tag", target, "add", tag]
  | tagRemove target tag => words ["tag", target, "remove", tag]
  | damage target amount cause => words ["damage", target, showInt32 amount, cause]
  | damageBy target amount cause damager =>
      words ["damage", target, showInt32 amount, cause, "entity", damager]
  | summon entity position event name =>
      let tail := match event, name with
        | some event, some name => [event, "\"" ++ name ++ "\""]
        | some event, none => [event]
        | none, _ => []
      words (["summon", entity, position.render] ++ tail)
  | triggerEvent target event => words ["event entity", target, event]

end Command

end ScriptPack
