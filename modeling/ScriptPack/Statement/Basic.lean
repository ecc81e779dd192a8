import ScriptPack.Directive.Basic
import ScriptPack.Token.Lexer

/-!
Statements. A statement ends at a line break and at a brace, and every brace is a statement of its
own; an opening brace knows how many statements stand before the brace that closes it.
-/

namespace ScriptPack

inductive StatementKind where
  | directive (directive : Directive)
  /-- `name = …`, `name += …` and the like. -/
  | operation
  /-- `name(…)`. -/
  | call
  | openBlock (size : Nat)
  | closeBlock
  /-- Lines that only an enclosing directive understands, such as the fields of a record. -/
  | unknown
deriving DecidableEq, Repr

structure Statement where
  kind : StatementKind
  tokens : List Token
  line : Nat
  /-- The line of the script, for messages. -/
  source : String

namespace Statement

def size? (statement : Statement) : Option Nat :=
  match statement.kind with
  | .openBlock size => some size
  | _ => none

def isOpenBlock (statement : Statement) : Bool :=
  statement.size?.isSome

def isCloseBlock (statement : Statement) : Bool :=
  match statement.kind with
  | .closeBlock => true
  | _ => false

def describe (statement : Statement) : String :=
  match statement.kind with
  | .directive directive => "directive " ++ directive.keyword
  | .operation => "operation"
  | .call => "function call"
  | .openBlock size => s!"open block ({size})"
  | .closeBlock => "close block"
  | .unknown => "unknown"

end Statement

end ScriptPack
