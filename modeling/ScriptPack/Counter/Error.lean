/-!
What can go wrong with counters.
-/

namespace ScriptPack

inductive CounterError where
  | nameTooLong (name : String) (length max : Nat)
  | unknown (accessor : String)
  | noField (base field : String)
  | noTemporary (literal : String)
  | incompatible (left right : String)
  | incompatibleLiteral (literal kind : String)
  | overflow
deriving DecidableEq, Repr

def CounterError.message : CounterError → String
  | nameTooLong name length max =>
      s!"Name '{name}' is too long ({length} characters, max {max})."
  | unknown accessor => s!"No value named '{accessor}' exists."
  | noField base field => s!"Struct '{base}' has no field named '{field}'."
  | noTemporary literal => s!"Cannot create a temporary value for a {literal} literal."
  | incompatible left right => s!"Cannot operate on {left} and {right}."
  | incompatibleLiteral literal kind =>
      s!"Cannot use a {literal} literal with a value of type {kind}."
  | overflow => "attempt to negate with overflow"

end ScriptPack
