import ScriptPack.Build.Arguments
import ScriptPack.Value.Compare

/-!
Statements that compute with variables, and the choice of bodies by them.
-/

namespace ScriptPack

open BuildM VariableM View

def View.readLiterals : List Token → Except Problem (List Value)
  | [] => .ok []
  | token :: rest => do
      let (value, _) ← literal.take [token]
      let values ← readLiterals rest
      return value :: values

/-- Compares values one by one; a single value on the right side goes with every one. All of them
are compared, even when one comparison does not hold. -/
def compareAll (op : CompareOp) (others : List Value) : Nat → List Value → Except Problem Bool
  | _, [] => .ok true
  | index, value :: rest =>
      match Variables.broadcast others index with
      | none => .error (.environment .lengthMismatch)
      | some other =>
          match Value.compare op value other with
          | .error cause => .error (.value cause)
          | .ok holds => (compareAll op others (index + 1) rest).map (holds && ·)

def BuildM.runChosen (chosen : Bool) : BuildM Unit :=
  modify fun build =>
    if build.nextIsBlock then
      if chosen then
        build.setHooks { opening := [.pushSelector build.active], closing := [.popSelector] }
      else build.setHooks { skip := true }
    else if chosen then build
    else { build with upcoming := build.upcoming.drop 1 }

def BuildM.runOtherwiseValues : BuildM Unit := do
  let build ← get
  let chosen ← orFail .noValuesBefore build.lastChoice?
  if !build.hasNext then fail .noOtherwiseBody
  runChosen (!chosen)

def BuildM.setVariable (name : String) (values : List Value) : BuildM Unit :=
  modifyVariables (·.set name values)

namespace ArgumentM

def literals : ArgumentM (List Value) := do
  ofExcept id (readLiterals (← get))

def values : ArgumentM (List Value) := do
  match ← next? identifier with
  | some other => environment (get other)
  | none => literals

def runSetVariable : ArgumentM Unit := do
  let name ← next identifier
  let values ← literals
  setVariable name values

def runCount (up : Bool) : ArgumentM Unit := do
  let name ← next identifier
  environment (apply name (if up then .add else .sub) [.int 1])

def runArithmetic (op : ArithOp) : ArgumentM Unit := do
  let name ← next identifier
  let others ← values
  environment (apply name op others)

def runPower : ArgumentM Unit := do
  let name ← next identifier
  let exponents ← values
  environment (power name exponents)

def runSwap : ArgumentM Unit := do
  let left ← next identifier
  let right ← next identifier
  environment (swap left right)

def runWhenValues : ArgumentM Unit := do
  let name ← next identifier
  let op ← next comparison
  let others ← values
  if others.isEmpty then fail .noComparedValue
  let values ← environment (get name)
  let chosen ← ofExcept id (compareAll op others 0 values)
  if !(← getThe Build).hasNext then fail .noValuesBody
  modifyThe Build (·.rememberChoice chosen)
  runChosen chosen

def runLog : ArgumentM Unit := do
  let message ← next string
  modifyThe Build fun build =>
    { build with pack := { build.pack with log := build.pack.log ++ [message] } }

def runChangeCase (style : Text.TextCase) : ArgumentM Unit := do
  let input ← next identifier
  let output ← next identifier
  environment (changeCase input output style)

def runAggregate (kind : Aggregate) : ArgumentM Unit := do
  let input ← next identifier
  let output ← next identifier
  let environment := (← getThe Build).environment
  let value ← ofExcept .environment (environment.summary kind input)
  setVariable output [value]

def runElement : ArgumentM Unit := do
  let input ← next identifier
  let index ← next integer
  let output ← next identifier
  let environment := (← getThe Build).environment
  let value ← ofExcept .environment (environment.element input index.toInt)
  setVariable output [value]

def runLength : ArgumentM Unit := do
  let input ← next identifier
  let output ← next identifier
  let values ← environment (get input)
  setVariable output [.int (Int32.ofNat values.length)]

end ArgumentM

end ScriptPack
