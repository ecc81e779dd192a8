import ScriptPack.Value.Basic

/-!
What can go wrong with variables.
-/

namespace ScriptPack

/-- Why no values are found at a place of a JSON document. -/
inductive JsonPathError where
  | indexRequired (place given : String)
  | indexOutOfRange (index : Nat) (place : String) (length : Nat)
  | noChild (name place : String)
  | noValues (place : String)
  | malformed
deriving DecidableEq, Repr

def JsonPathError.message : JsonPathError → String
  | indexRequired place given => s!"Array at '{place}' requires index to access. Given: {given}"
  | indexOutOfRange index place length =>
      s!"Index {index} is out of range for array at '{place}' (length {length})."
  | noChild name place => s!"Cannot find child '{name}' under token {place}"
  | noValues place => s!"Unexpected end of JSON at {place}"
  | malformed => "<parse error>"

inductive VariableError where
  | missing (name : String)
  | operation (name : String) (cause : ValueError)
  | lengthMismatch
  | nonIntegerExponent
  | aggregate (verb name : String)
  | indexTooLarge (index : Int) (name : String) (max : Int)
  | negativeIndex (index : Int)
  | json (cause : JsonPathError)
deriving DecidableEq, Repr

def VariableError.message : VariableError → String
  | missing name => s!"Preprocessor variable '{name}' does not exist."
  | operation name cause => s!"Preprocessor variable '{name}': " ++ cause.message
  | lengthMismatch => "Preprocessor variable lengths didn't match."
  | nonIntegerExponent => "Can only exponentiate to an integer value."
  | aggregate verb name => s!"Couldn't {verb} preprocessor variable '{name}'."
  | indexTooLarge index name max =>
      s!"Index {index} is too large for preprocessor variable '{name}'. Max: {max}"
  | negativeIndex index => s!"Index cannot be less than zero (was {index})."
  | json cause => "JSON Error: " ++ cause.message

end ScriptPack
