import ScriptPack.Value.Basic

/-!
Tokens of a script. Names are read as plain names first; when a statement runs they are bound to
the counter, record, template or routine of that name, if there is one.
-/

namespace ScriptPack

inductive TokenKind where
  | literal (value : Value)
  | word (text : String)
  /-- A variable written `$name`. -/
  | reference (name : String)
  /-- A counter, by its accessor `base` or `base:field`. -/
  | counter (accessor : String)
  | record (name : String)
  | template (name : String)
  | routine (name : String)
  | openParen
  | closeParen
  | arith (op : ArithOp)
  /-- `=`, or `+=` and the like. -/
  | assign (op : Option ArithOp)
  | compare (op : CompareOp)
  | both
  | negation
  | openBlock
  | closeBlock
deriving Inhabited

structure Token where
  kind : TokenKind
  line : Nat
deriving Inhabited

def TokenKind.kindName : TokenKind → String
  | literal value => value.kindName
  | word _ => "identifier"
  | reference _ => "preprocessor variable"
  | counter _ => "value"
  | record _ => "struct"
  | template _ => "macro"
  | routine _ => "function"
  | openParen | closeParen => "parenthesis"
  | arith _ => "arithmetic operator"
  | assign _ => "assignment"
  | compare _ => "comparison"
  | both => "and"
  | negation => "not"
  | openBlock | closeBlock => "block"

def TokenKind.render : TokenKind → String
  | literal (.text value) => "\"" ++ value ++ "\""
  | literal value => value.render
  | word text => text
  | reference name => "$" ++ name
  | counter accessor => accessor
  | record name => name
  | template name => name
  | routine name => name
  | openParen => "("
  | closeParen => ")"
  | arith op => op.symbol
  | assign none => "="
  | assign (some op) => op.symbol ++ "="
  | compare op => op.symbol
  | both => "and"
  | negation => "not"
  | openBlock => "\x7b"
  | closeBlock => "\x7d"

def Token.render (token : Token) : String :=
  token.kind.render

def Token.moveDown (lines : Nat) (token : Token) : Token :=
  { token with line := token.line + lines }

end ScriptPack
