import ScriptPack.Command.Line
import ScriptPack.Counter.Kind
import ScriptPack.Text.Case

/-!
Counters and the commands that declare, initialise and set them.
-/

namespace ScriptPack

structure Counter where
  name : String
  kind : CounterKind
deriving DecidableEq

def selfTarget : String := "@s"

namespace Counter

def whole (counter : Counter) : String :=
  counter.name ++ ":w"

def part (counter : Counter) : String :=
  counter.name ++ ":d"

def ofField (base key : String) (kind : CounterKind) : Counter :=
  ⟨base ++ ":" ++ key, kind⟩

def fields (counter : Counter) : List Counter :=
  match counter.kind with
  | .record _ fields => fields.map fun (_, key, kind) => ofField counter.name key kind
  | _ => []

def field? (counter : Counter) (name : String) : Option Counter :=
  match counter.kind with
  | .record _ fields =>
      (fields.find? fun (fieldName, _, _) => Text.sameWord fieldName name).map
        fun (_, key, kind) => ofField counter.name key kind
  | _ => none

mutual
def objectivesOf (name : String) : CounterKind → List String
  | .decimal _ => [name ++ ":w", name ++ ":d"]
  | .record _ fields => fieldObjectives name fields
  | .int | .time | .bool => [name]

def fieldObjectives (name : String) : List (String × String × CounterKind) → List String
  | [] => []
  | (_, key, kind) :: rest => objectivesOf (name ++ ":" ++ key) kind ++ fieldObjectives name rest
end

def objectives (counter : Counter) : List String :=
  objectivesOf counter.name counter.kind

def defineCommands (counter : Counter) : List Command :=
  counter.objectives.map .objectiveAdd

def initCommands (counter : Counter) : List Command :=
  counter.objectives.map fun objective => .scoreAdd "@a" objective 0

def parity (value : Int32) : Int32 :=
  Int32.ofInt (value.toInt % 2)

def setLiteral (counter : Counter) (target : String) (literal : Value) : List Command :=
  match counter.kind, literal with
  | .int, .int value | .time, .int value => [.scoreSet target counter.name value]
  | .int, .float value | .time, .float value =>
      [.scoreSet target counter.name value.roundInt32]
  | .bool, .bool value => [.scoreSet target counter.name (if value then 1 else 0)]
  | .bool, .int value => [.scoreSet target counter.name (parity value)]
  | .bool, .float value => [.scoreSet target counter.name (parity value.roundInt32)]
  | .decimal _, .int value =>
      [.scoreSet target counter.whole value, .scoreSet target counter.part 0]
  | .decimal precision, .float value =>
      let factor : Number.Single := .ofInt32 (Number.tenPower precision)
      [.scoreSet target counter.whole value.floor.toInt32,
        .scoreSet target counter.part ((value.sub value.floor).mul factor).roundInt32]
  | _, _ => []

end Counter

end ScriptPack
