import ScriptPack.Build.Block
import ScriptPack.Build.Body
import ScriptPack.Build.Definition
import ScriptPack.Build.Display
import ScriptPack.Build.Entity
import ScriptPack.Build.Flow
import ScriptPack.Build.Item
import ScriptPack.Build.Operation

/-!
Running statements. Every statement has a scope of its own for temporary counters. A list of
statements that is run in place of another ends with the statements of the other restored; lists
may run each other to a bounded depth.
-/

namespace ScriptPack

def ArgumentM.runDirective (run : List Statement → BuildM Unit) : Directive → ArgumentM Unit
  | .setVariable => runSetVariable
  | .count up => runCount up
  | .arithmetic op => runArithmetic op
  | .power => runPower
  | .swap => runSwap
  | .whenValues => runWhenValues
  | .otherwiseValues => BuildM.runOtherwiseValues
  | .repeatBody => runRepeat run
  | .log => runLog
  | .template => runTemplate run
  | .includeFile => runInclude run
  | .changeCase style => runChangeCase style
  | .aggregate kind => runAggregate kind
  | .iterate => runIterate run
  | .element => runElement
  | .length => runLength
  | .importJson => runImportJson
  | .rawCommand => runRawCommand
  | .select => runSelect
  | .print everyone => runPrint everyone
  | .define => runDefine
  | .initialise => runInitialise
  | .condition => do BuildM.runCondition (← get)
  | .otherwise => BuildM.runOtherwise
  | .give => runGive
  | .teleport => runTeleport
  | .teleportHere => runTeleportHere
  | .move => runMove
  | .face => runFace
  | .faceHere => runFaceHere
  | .rotate => runRotate
  | .block => runBlock
  | .fill => runFill
  | .scatter => runScatter
  | .replace => runReplace
  | .kill => runKill
  | .remove => runRemove
  | .title place everyone => runTitle place everyone
  | .say => runSay
  | .halt => BuildM.runHalt
  | .damage => runDamage
  | .nullEntity => runNullEntity
  | .tag => runTag
  | .limit => runLimit
  | .feature => runFeature
  | .routine => runRoutine
  | .result => runResult
  | .record => runRecord

namespace BuildM

def runDirective (run : List Statement → BuildM Unit) (directive : Directive)
    (tokens : List Token) : BuildM Unit := do
  if !directive.accepts tokens then fail .invalidPattern
  (ArgumentM.runDirective run directive).run' tokens

def runStatement (run : List Statement → BuildM Unit) (statement : Statement) : BuildM Unit := do
  match statement.kind with
  | .openBlock size => modify (·.openBlock size)
  | .closeBlock =>
      let build ← get
      set (← orFail .unexpectedClose build.closeBlock?)
  | .unknown =>
      let build ← get
      throw (.source build.pack.name statement.line (.unknownStatement statement.source))
  | .directive directive =>
      match directive.feature? with
      | some feature => requireFeature feature
      | none => pure ()
      runDirective run directive (← prepare statement)
  | .operation => runOperation (← prepare statement)
  | .call => runCall (← prepare statement)

def runScoped (run : List Statement → BuildM Unit) (statement : Statement) : BuildM Unit := do
  modify fun build =>
    { build with
      line := statement.line
      source := statement.source
      scoreboard := build.scoreboard.pushScope }
  always (runStatement run statement) fun build =>
    { build with scoreboard := build.scoreboard.popScope }
  checkReachable
  modify Build.settlePops

def runUpcoming (run : List Statement → BuildM Unit) : Nat → BuildM Unit
  | 0 => return
  | steps + 1 => do
      match ← takeStatement? with
      | none => return
      | some statement =>
          runScoped run statement
          runUpcoming run steps

def greatestDepth : Nat := 10000

def runSection : Nat → List Statement → BuildM Unit
  | 0, _ => fail .tooDeep
  | depth + 1, statements => do
      let outer ← get
      set { outer with upcoming := statements, scoreboard := outer.scoreboard.pushScope }
      always (runUpcoming (runSection depth) statements.length) fun build =>
        { build with
          scoreboard := build.scoreboard.popScope
          upcoming := outer.upcoming
          line := outer.line
          source := outer.source }

def runAll (statements : List Statement) : BuildM Unit := do
  modify fun build => { build with upcoming := statements }
  runUpcoming (runSection greatestDepth) statements.length

end BuildM

def Build.finishFiles (build : Build) : Build :=
  Nat.repeat popFile build.outerFiles.length build

/-- The pack of a finished run. The root file comes first, with the declarations that waited for
it at its top; the null entity is added when scripts may use it. -/
def Build.finish (build : Build) : Pack :=
  let build := build.finishFiles
  let top := build.scoreboard.pendingHead.map Line.plain ++ build.head
  let root := { build.file with lines := top ++ build.file.lines }
  let pack := { build.pack with files := root :: build.pack.files }
  if build.session.hasFeature .nulls then pack.addAsset (NullEntity.asset build.nullClasses)
  else pack

end ScriptPack
