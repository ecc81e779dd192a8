import ScriptPack.Build.Condition
import ScriptPack.Build.NullEntity

/-!
Who executes the following statements and whether: selecting entities, conditions and halts.
-/

namespace ScriptPack

namespace BuildM

def select (selector : Selector) : BuildM Unit :=
  modify fun build =>
    if build.nextIsBlock then
      build.setHooks { opening := [.pushSelector selector], closing := [.popSelector] }
    else build.setActive selector

def runCondition (tokens : List Token) : BuildM Unit := do
  modify (·.rememberCondition tokens)
  modifyScoreboard (·.keepTemporaries)
  let build ← get
  if !build.hasNext then fail .noBranchBody
  let chain ← ofExcept id (Comparison.readChain build.scoreboard false tokens)
  runChain chain

def runOtherwise : BuildM Unit := do
  let build ← get
  let tokens ← orFail .noConditionBefore build.lastCondition?
  if !build.hasNext then fail .noBranchBody
  let chain ← ofExcept id (Comparison.readChain build.scoreboard false tokens)
  runNegatedChain chain

/-- Stops the game's execution by a file that calls itself. The statements after it, up to the end
of the block, are unreachable. -/
def runHalt : BuildM Unit := do
  let name := "halt_execution"
  let file := CommandFile.generated name []
  let call ← modifyGet (·.sharedFile name [file.call])
  emit call
  modify Build.markUnreachable

def checkReachable : BuildM Unit := do
  let build ← get
  match build.unreachable with
  | none => return
  | some 0 => fail .unreachable
  | some (left + 1) => set { build with unreachable := some left }

end BuildM

namespace ArgumentM

def runRawCommand : ArgumentM Unit := do
  let text ← next View.string
  BuildM.emit (.raw text)

def runSelect : ArgumentM Unit := do
  let selector ← next View.selector
  BuildM.select selector

def runLimit : ArgumentM Unit := do
  let count ← next? View.integer
  modifyThe Build fun build => build.setActive { build.active with count }

def runFeature : ArgumentM Unit := do
  let word ← next View.identifier
  let feature ← BuildM.orFail .unknownFeature (Feature.find? word)
  modifyThe Build (·.enableFeature feature)

end ArgumentM

end ScriptPack
