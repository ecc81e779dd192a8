import ScriptPack.Text.Case
import ScriptPack.Value.Basic

/-!
Parts of values: characters of texts, bounds of ranges, and what JSON documents hold. JSON scalars
become values of their own kinds, except that a text `H:MM:SS` is a span of time counted in ticks.
-/

namespace ScriptPack.Value

open Number

def ticksPerSecond : Int := 20

def timeSpan? (text : String) : Option Int32 :=
  match Text.splitChars (· == ':') text.toList with
  | [hours, minutes, seconds] => do
      let hours ← readUnsigned? (twoTo 32 - 1) hours
      let minutes ← readUnsigned? (twoTo 32 - 1) minutes
      let seconds : Double ← readBinary? seconds
      if 60 ≤ minutes || !(Binary.zero false).lessEq seconds ||
          !seconds.less (.ofInt 60) then none
      else
        let whole : Double :=
          ((Binary.ofInt hours).mul (.ofInt 3600)).add
            ((Binary.ofInt minutes).mul (.ofInt 60))
        return ((whole.add seconds).mul (.ofInt ticksPerSecond)).roundInt32
  | _ => none

def ofInteger (value : Int) : Value :=
  if Int32.minValue.toInt ≤ value && value ≤ Int32.maxValue.toInt then int (Int32.ofInt value)
  else
    let wide : Double := .ofInt value
    float wide.convert

def ofJson? : Json → Option Value
  | .null => none
  | .bool value => some (bool value)
  | .integer value => some (ofInteger value)
  | .float value => some (float value.convert)
  | .string value =>
      some (match timeSpan? value with
        | some ticks => int ticks
        | none => text value)
  | .array items => some (json (.array items))
  | .object members => some (json (.object members))

def elementAt? {α : Type} (items : List α) (index : Int32) : Option α :=
  if index < 0 then none else items[index.toInt.toNat]?

def index (value place : Value) : Except ValueError Value :=
  match value, place with
  | text value, int place =>
      match elementAt? value.toList place with
      | some c => .ok (text (String.singleton c))
      | none => .error (.indexOutOfRange place value.length)
  | range value, int place =>
      if place == 0 || place == 1 then
        match if place == 0 then value.min else value.max with
        | some bound => .ok (int bound)
        | none => .error .invalidOperation
      else .error (.indexOutOfRange place 2)
  | json (.array items), int place =>
      match (elementAt? items place).bind ofJson? with
      | some value => .ok value
      | none => .error (.indexOutOfRange place items.length)
  | json (.object members), text name =>
      match (members.lookup name).bind ofJson? with
      | some value => .ok value
      | none => .error .invalidOperation
  | _, _ => .error .invalidOperation

end ScriptPack.Value
