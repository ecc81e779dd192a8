import ScriptPack.Token.Basic

/-!
Views of tokens. A view is a way to take a token for a thing of some type, either because it is
one or through a conversion: a number is an absolute coordinate, and a text names a selector.
-/

namespace ScriptPack

/-- A thing that stands on one side of an operator. -/
inductive Operand where
  | literal (value : Value)
  | counter (accessor : String)
deriving Inhabited

/-- A named, partial reading of tokens. -/
structure View (α : Type) where
  name : String
  view? : TokenKind → Option α

namespace View

def literal : View Value where
  name := "literal"
  view? := fun
    | .literal value => some value
    | _ => none

def integer : View Int32 where
  name := "integer"
  view? := fun
    | .literal (.int value) => some value
    | _ => none

def number : View Number.Single where
  name := "number"
  view? := fun
    | .literal value => value.number?
    | _ => none

def boolean : View Bool where
  name := "boolean"
  view? := fun
    | .literal (.bool value) => some value
    | _ => none

def string : View String where
  name := "string"
  view? := fun
    | .literal (.text value) => some value
    | _ => none

def coordinate : View Coord where
  name := "coordinate"
  view? := fun
    | .literal (.coord value) => some value
    | .literal (.int value) => some (.ofInt32 value)
    | .literal (.float value) => some (.ofDecimal value)
    | _ => none

def selector : View Selector where
  name := "selector"
  view? := fun
    | .literal (.selector value) => some value
    | .literal (.text value) => Selector.ofText? value
    | _ => none

def range : View Range where
  name := "range"
  view? := fun
    | .literal (.range value) => some value
    | _ => none

def comparison : View CompareOp where
  name := "comparison"
  view? := fun
    | .compare op => some op
    | _ => none

def identifier : View String where
  name := "identifier"
  view? := fun
    | .word text => some text
    | .counter accessor => some accessor
    | .record name => some name
    | .template name => some name
    | .routine name => some name
    | _ => none

def counter : View String where
  name := "value"
  view? := fun
    | .counter accessor => some accessor
    | _ => none

def operand : View Operand where
  name := "operand"
  view? := fun
    | .literal value => some (.literal value)
    | .counter accessor => some (.counter accessor)
    | _ => none

def admits {α : Type} (view : View α) (kind : TokenKind) : Bool :=
  (view.view? kind).isSome

end View

end ScriptPack
