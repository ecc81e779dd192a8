import ScriptPack.Json.Writer
import ScriptPack.Selector.Printer
import ScriptPack.Selector.Reader
import ScriptPack.Value.Operator

/-!
The values that a script knows before the game runs: literals and the contents of variables.
-/

namespace ScriptPack

inductive Value where
  | int (value : Int32)
  | float (value : Number.Single)
  | bool (value : Bool)
  | text (value : String)
  | coord (value : Coord)
  | selector (value : Selector)
  | range (value : Range)
  | json (value : Json)
deriving Inhabited

/-- Why an operation on values has no result. -/
inductive ValueError where
  | invalidOperation
  | incomparable (left right : String)
  | divideByZero
  | indexOutOfRange (index : Int32) (length : Nat)
deriving DecidableEq, Repr

def ValueError.message : ValueError → String
  | invalidOperation => "Invalid literal operation."
  | incomparable left right => s!"Cannot compare {left} with {right}."
  | divideByZero => "Cannot divide by zero."
  | indexOutOfRange index length =>
      "Index " ++ Number.showInt32 index ++ " is out of range (length " ++ toString length ++ ")."

namespace Value

def kindName : Value → String
  | int _ => "integer"
  | float _ => "decimal"
  | bool _ => "boolean"
  | text _ => "string"
  | coord _ => "coordinate"
  | selector _ => "selector"
  | range _ => "range"
  | json _ => "json"

def render : Value → String
  | int value => Number.showInt32 value
  | float value => value.showPlain
  | bool value => if value then "true" else "false"
  | text value => value
  | coord value => value.render
  | selector value => value.render
  | range value => value.render
  | json value => value.compact

def number? : Value → Option Number.Single
  | int value => some (.ofInt32 value)
  | float value => some value
  | _ => none

def greatestPrecision : Nat := 6

def precision : Value → Nat
  | float value =>
      match Text.cutAt? '.' value.showPlain.toList with
      | some (_, places) => min places.length greatestPrecision
      | none => 0
  | _ => 0

end Value

end ScriptPack
