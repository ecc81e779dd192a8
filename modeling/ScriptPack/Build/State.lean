import ScriptPack.Error
import ScriptPack.Pack.Basic
import ScriptPack.Routine
import ScriptPack.Session
import ScriptPack.Storage.FileTree
import ScriptPack.Variables.Basic

/-!
The state of a compilation. Statements are run one after the other; each may change who executes
the commands, where they are written, and the variables, counters and routines that later
statements see.
-/

namespace ScriptPack

/-- What is done to the stacks when a block opens or closes. -/
inductive BlockAction where
  | pushSelector (selector : Selector)
  | popSelector
  | pushFile (file : CommandFile)
  | popFile

/-- What the next block does when it opens and closes, and whether its body is left out. -/
structure BlockHooks where
  opening : List BlockAction := []
  closing : List BlockAction := []
  skip : Bool := false

structure Build where
  session : Session := {}
  environment : Variables := {}
  scoreboard : Scoreboard := {}
  routines : List Routine := []
  pack : Pack
  /-- The files that the script may include. -/
  storage : FileTree := {}
  /-- The statements still to run of the current list. -/
  upcoming : List Statement := []
  /-- Who executes commands, and the selectors around it, innermost first. -/
  active : Selector := .self
  outerSelectors : List Selector := []
  /-- Where commands are written, and the files around it, innermost first. -/
  file : CommandFile
  outerFiles : List CommandFile := []
  /-- Commands for the top of the root file. -/
  head : List Line := []
  /-- The frames that the next command stands under. -/
  frames : List Frame := []
  /-- How many statements may follow before code is unreachable. -/
  unreachable : Option Nat := none
  /-- How many statements each scheduled pop of a selector waits for, innermost first. -/
  pendingPops : List Nat := []
  pendingBlock : Option BlockHooks := none
  /-- What is done when the open blocks close, innermost first. -/
  openBlocks : List (List BlockAction) := []
  /-- The last condition at each depth of blocks. -/
  lastConditions : Table Nat (List Token) := .empty
  /-- The last choice between values at each depth of blocks. -/
  lastChoices : Table Nat Bool := .empty
  nullClasses : List String := []
  /-- The line and text of the statement that runs. -/
  line : Nat := 0
  source : String := ""
  baseDirectory : String := "."
  includeDirectories : List String := []
  includeDepth : Nat := 0

abbrev BuildM := EStateM Error Build

namespace Build

def defaultGameVersion : String := "x.xx.xxx"

def languageVersion : String := "1.02"

def start (session : Session) (name : String) (storage : FileTree) : Build :=
  let environment := ({} : Variables)
    |>.set "minecraftversion" [.text defaultGameVersion]
    |>.set "compilerversion" [.text languageVersion]
    |>.set "_true" [.text "true"]
    |>.set "_false" [.text "false"]
  { session, environment, storage, pack := { name }, file := { name } }

def depth (build : Build) : Nat :=
  build.openBlocks.length

def currentRoutine? (build : Build) : Option Nat :=
  (build.file :: build.outerFiles).findSome? (·.routine)

def findRoutine? (build : Build) (name : String) : Option Nat :=
  build.routines.findIdx? (·.hasName name)

def nextIsBlock (build : Build) : Bool :=
  build.upcoming.head?.any Statement.isOpenBlock

def nextBlockSize? (build : Build) : Option Nat :=
  build.upcoming.head?.bind Statement.size?

def hasNext (build : Build) : Bool :=
  !build.upcoming.isEmpty

def failure (build : Build) (problem : Problem) : Error :=
  .statement build.line build.source problem

end Build

namespace BuildM

def fail {α : Type} (problem : Problem) : BuildM α := do
  throw ((← get).failure problem)

def orFail {α : Type} (problem : Problem) : Option α → BuildM α
  | some value => return value
  | none => fail problem

def ofExcept {ε α : Type} (problem : ε → Problem) : Except ε α → BuildM α
  | .ok value => return value
  | .error error => fail (problem error)

def counters {α : Type} (computation : CounterM α) : BuildM α := do
  let build ← get
  match computation.run build.scoreboard with
  | .ok value scoreboard =>
      set { build with scoreboard }
      return value
  | .error error scoreboard =>
      set { build with scoreboard }
      fail (.counter error)

def environment {α : Type} (computation : VariableM α) : BuildM α := do
  let build ← get
  match computation.run build.environment with
  | .ok value environment =>
      set { build with environment }
      return value
  | .error error environment =>
      set { build with environment }
      fail (.environment error)

def session {α : Type} (step : Session → α × Session) : BuildM α :=
  modifyGet fun build =>
    let (value, session) := step build.session
    (value, { build with session })

def modifyScoreboard (change : Scoreboard → Scoreboard) : BuildM Unit :=
  modify fun build => { build with scoreboard := change build.scoreboard }

def modifyVariables (change : Variables → Variables) : BuildM Unit :=
  modify fun build => { build with environment := change build.environment }

end BuildM

end ScriptPack
