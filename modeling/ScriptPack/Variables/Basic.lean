import ScriptPack.Directive.Basic
import ScriptPack.Statement.Basic
import ScriptPack.Table
import ScriptPack.Value.Arithmetic
import ScriptPack.Variables.Error

/-!
Variables and templates. A variable is a list of values that scripts compute with before the game
runs; operations work element by element, and a single value on the right side goes with every
element. A template is a named body of statements whose parameters are variables.
-/

namespace ScriptPack

structure Template where
  name : String
  parameters : List String
  body : List Statement

structure Variables where
  values : Table String (List Value) := .empty
  templates : Table String Template := .empty

abbrev VariableM := EStateM VariableError Variables

namespace Variables

def label (name : String) : String :=
  match name.toList with
  | '$' :: rest => String.ofList rest
  | _ => name

def get? (environment : Variables) (name : String) : Option (List Value) :=
  environment.values.get? (label name)

def contains (environment : Variables) (name : String) : Bool :=
  (environment.get? name).isSome

def get (environment : Variables) (name : String) : Except VariableError (List Value) :=
  match environment.get? name with
  | some values => .ok values
  | none => .error (.missing (label name))

def set (environment : Variables) (name : String) (values : List Value) : Variables :=
  { environment with values := environment.values.insert (label name) values }

def put (environment : Variables) (name : String) (values : Option (List Value)) : Variables :=
  { environment with values := environment.values.put (label name) values }

def erase (environment : Variables) (name : String) : Variables :=
  environment.put name none

def defineTemplate (environment : Variables) (template : Template) : Variables :=
  { environment with templates := environment.templates.insert template.name template }

def bind (environment : Variables) :
    List (String × List Value) → Variables × List (String × Option (List Value))
  | [] => (environment, [])
  | (name, values) :: rest =>
      let (bound, saved) := (environment.set name values).bind rest
      (bound, (name, environment.get? name) :: saved)

def restore (environment : Variables) : List (String × Option (List Value)) → Variables
  | [] => environment
  | (name, values) :: rest => (environment.restore rest).put name values

def broadcast (others : List Value) (index : Nat) : Option Value :=
  match others with
  | [single] => some single
  | others => others[index]?

/-- Updates each element that has a value on the right side, from the first on. A failure leaves
the element and those after it as they are. -/
def updateEach (update : Value → Value → Except VariableError Value) (others : List Value) :
    Nat → List Value → List Value × Option VariableError
  | _, [] => ([], none)
  | index, value :: rest =>
      match broadcast others index with
      | none =>
          let (rest, failure) := updateEach update others (index + 1) rest
          (value :: rest, failure)
      | some other =>
          match update value other with
          | .error failure => (value :: rest, some failure)
          | .ok value =>
              let (rest, failure) := updateEach update others (index + 1) rest
              (value :: rest, failure)

def multiplyTimes (base : Value) : Nat → Value → Except ValueError Value
  | 0, result => .ok result
  | times + 1, result =>
      match Value.apply .mul result base with
      | .ok result => multiplyTimes base times result
      | .error error => .error error

def power (name : String) (base exponent : Value) : Except VariableError Value :=
  match exponent with
  | .int exponent =>
      if exponent < 0 then .error .nonIntegerExponent
      else
        match multiplyTimes base exponent.toInt.toNat (.int 1) with
        | .ok value => .ok value
        | .error cause => .error (.operation name cause)
  | _ => .error .nonIntegerExponent

def sumValues : List Value → Option Value
  | [] => none
  | first :: rest =>
      (rest.foldlM (Value.apply .add) first).toOption

def meanValues (values : List Value) : Option Value := do
  let total ← sumValues values
  (Value.apply .div total (.int (Int32.ofNat values.length))).toOption

def medianValues (values : List Value) : Option Value :=
  let middle := values.length / 2
  if values.length % 2 == 1 then values[middle]?
  else do
    let upper ← values[middle]?
    let lower ← values[middle - 1]?
    let total ← (Value.apply .add upper lower).toOption
    (Value.apply .div total (.int 2)).toOption

def summary (environment : Variables) (kind : Aggregate) (name : String) :
    Except VariableError Value := do
  let values ← environment.get name
  let orFail := fun verb result => match result with
    | some value => Except.ok value
    | none => Except.error (VariableError.aggregate verb (label name))
  match kind with
  | .sum => orFail "sum" (sumValues values)
  | .median => orFail "calculate the median of" (medianValues values)
  | .mean =>
      let _ ← orFail "sum" (sumValues values)
      orFail "average" (meanValues values)

def element (environment : Variables) (name : String) (index : Int) :
    Except VariableError Value := do
  let values ← environment.get name
  if index < 0 then .error (.negativeIndex index)
  else
    match values[index.toNat]? with
    | some value => .ok value
    | none => .error (.indexTooLarge index (label name) (values.length - 1))

end Variables

namespace VariableM

def get (name : String) : VariableM (List Value) := do
  match (← getThe Variables).get name with
  | .ok values => return values
  | .error error => throw error

def set (name : String) (values : List Value) : VariableM Unit :=
  modify fun environment => environment.set name values

def update (name : String) (step : Value → Value → Except VariableError Value)
    (others : List Value) : VariableM Unit := do
  let (values, failure) := Variables.updateEach step others 0 (← get name)
  set name values
  match failure with
  | some error => throw error
  | none => return

def apply (name : String) (op : ArithOp) (others : List Value) : VariableM Unit :=
  update name (fun value other => (Value.apply op value other).mapError
    (.operation (Variables.label name))) others

def power (name : String) (exponents : List Value) : VariableM Unit :=
  update name (Variables.power (Variables.label name)) exponents

def swap (left right : String) : VariableM Unit := do
  let leftValues ← get left
  let rightValues ← get right
  set left rightValues
  set right leftValues

def changeCase (input output : String) (style : Text.TextCase) : VariableM Unit := do
  let values ← get input
  set output (values.map fun value => .text (style.apply value.render))

end VariableM

end ScriptPack
