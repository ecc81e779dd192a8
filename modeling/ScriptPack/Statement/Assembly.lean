import ScriptPack.Statement.Basic
import ScriptPack.Text.Blank

/-!
Assembling statements from tokens. Tokens are grouped into pieces, a brace or the words of one
line, and each opening brace then looks ahead for the brace that closes it. A closing brace
without an opening one is let through.
-/

namespace ScriptPack

/-- A brace, or the words of one statement. -/
inductive Piece where
  | words (tokens : List Token)
  | opening (line : Nat)
  | closing (line : Nat)

def Piece.flush (pending : List Token) : List Piece :=
  if pending.isEmpty then [] else [.words pending.reverse]

def Piece.ofTokens (pending : List Token) : List Token → List Piece
  | [] => flush pending
  | token :: rest =>
      match token.kind with
      | .openBlock => flush pending ++ .opening token.line :: ofTokens [] rest
      | .closeBlock => flush pending ++ .closing token.line :: ofTokens [] rest
      | _ =>
          match pending.head? with
          | some last =>
              if last.line == token.line then ofTokens (token :: pending) rest
              else flush pending ++ ofTokens [token] rest
          | none => ofTokens [token] rest

def Piece.bodySize? (depth : Nat) : List Piece → Option Nat
  | [] => none
  | .words _ :: rest => (bodySize? depth rest).map (· + 1)
  | .opening _ :: rest => (bodySize? (depth + 1) rest).map (· + 1)
  | .closing _ :: rest =>
      match depth with
      | 0 => some 0
      | depth + 1 => (bodySize? depth rest).map (· + 1)

namespace Statement

def sourceLines (source : String) : List String :=
  (Text.splitChars (· == '\n') source.toList).map fun line => String.ofList (Text.trimChars line)

def lineText (lines : List String) (line : Nat) : String :=
  match line with
  | 0 => ""
  | index + 1 => lines.getD index ""

def ofWords (lines : List String) (tokens : List Token) : Statement :=
  match tokens with
  | [] => ⟨.unknown, [], 0, ""⟩
  | first :: rest =>
      let source := lineText lines first.line
      match Directive.ofToken? first.kind with
      | some directive => ⟨.directive directive, rest, first.line, source⟩
      | none =>
          let kind := match first.kind, rest.head?.map (·.kind) with
            | .word _, some (.assign _) => StatementKind.operation
            | .word _, some .openParen => .call
            | _, _ => .unknown
          ⟨kind, tokens, first.line, source⟩

def ofPieces (lines : List String) : List Piece → Except Nat (List Statement)
  | [] => .ok []
  | piece :: rest => do
      let statements ← ofPieces lines rest
      match piece with
      | .words tokens => return ofWords lines tokens :: statements
      | .opening line =>
          match Piece.bodySize? 0 rest with
          | some size => return ⟨.openBlock size, [], line, lineText lines line⟩ :: statements
          | none => .error line
      | .closing line => return ⟨.closeBlock, [], line, lineText lines line⟩ :: statements

def assemble (source : String) (tokens : List Token) :
    Except (Nat × SourceFault) (List Statement) :=
  match ofPieces (sourceLines source) (Piece.ofTokens [] tokens) with
  | .ok statements => .ok statements
  | .error line => .error (line, .unclosedBlock)

def readAll (source : String) : Except (Nat × SourceFault) (List Statement) := do
  assemble source (← Token.readAll source)

end Statement

end ScriptPack
