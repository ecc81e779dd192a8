import ScriptPack.Value.Member
import ScriptPack.Variables.Error

/-!
Values from JSON documents. A path of member names and item numbers, divided by slashes or commas,
leads to a place; an array there gives one value for each item that is one, anything else a single
value.
-/

namespace ScriptPack.Json

def pathSteps (path : String) : List String :=
  ((Text.splitChars (fun c => c == '/' || c == ',') path.toList).map Text.trimChars).filterMap
    fun step => if step.isEmpty then none else some (String.ofList step)

def walk (place : String) (document : Json) : List String → Except JsonPathError (Json × String)
  | [] => .ok (document, place)
  | step :: rest =>
      match document with
      | .array items =>
          match Number.readUnsigned? (Number.twoTo 64 - 1) step.toList with
          | none => .error (.indexRequired place step)
          | some index =>
              match items[index]? with
              | some item => walk (place ++ "/" ++ step) item rest
              | none => .error (.indexOutOfRange index place items.length)
      | .object members =>
          match members.lookup step with
          | some member => walk (place ++ "/" ++ step) member rest
          | none => .error (.noChild step place)
      | _ => .error (.noValues place)

def valuesAt (document : Json) (path : String) : Except VariableError (List Value) :=
  match walk "root" document (pathSteps path) with
  | .error error => .error (.json error)
  | .ok (found, place) =>
      let values := match found with
        | .array items => items.filterMap Value.ofJson?
        | other => (Value.ofJson? other).toList
      if values.isEmpty then .error (.json (.noValues place)) else .ok values

end ScriptPack.Json
