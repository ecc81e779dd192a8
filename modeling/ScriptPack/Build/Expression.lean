import ScriptPack.Build.Emit
import ScriptPack.Variables.Substitution

/-!
Expressions. When a statement runs, variables in it are replaced by their values and names bound
to what they name; then calls, groups in parentheses, products and sums are evaluated in this
order. Literals are computed at once, counters by commands that leave the result in a temporary.
-/

namespace ScriptPack

open Counter CounterM

def Build.bindName (build : Build) (name : String) : TokenKind :=
  if build.scoreboard.contains name then .counter name
  else if (build.scoreboard.record? name).isSome then .record name
  else if build.environment.templates.contains name then .template name
  else if (build.findRoutine? name).isSome then .routine name
  else .word name

def Build.bindToken (build : Build) (resolves : Bool) (token : Token) :
    Except VariableError (List Token) :=
  match token.kind with
  | .literal (.text text) =>
      let text := if resolves then build.environment.substitute text else text
      .ok [⟨.literal (.text text), token.line⟩]
  | .reference name =>
      if resolves then do
        let values ← build.environment.get name
        return values.map fun value => ⟨.literal value, token.line⟩
      else .ok [token]
  | .word name => .ok [⟨build.bindName name, token.line⟩]
  | _ => .ok [token]

def Build.bindTokens (build : Build) (resolves : Bool) (tokens : List Token) :
    Except VariableError (List Token) :=
  (tokens.mapM (build.bindToken resolves)).map List.flatten

/-- The tokens before the parenthesis that closes `depth` others and the one around them, and the
tokens after it. -/
def splitClose? (depth : Nat) : List Token → Option (List Token × List Token)
  | [] => none
  | token :: rest =>
      match token.kind, depth with
      | .closeParen, 0 => some ([], rest)
      | .closeParen, depth + 1 => keep token (splitClose? depth rest)
      | .openParen, depth => keep token (splitClose? (depth + 1) rest)
      | _, depth => keep token (splitClose? depth rest)
where
  keep (token : Token) (split : Option (List Token × List Token)) :
      Option (List Token × List Token) :=
    split.map fun (inside, after) => (token :: inside, after)

theorem splitClose?_length {depth : Nat} {tokens inside after : List Token}
    (split : splitClose? depth tokens = some (inside, after)) :
    inside.length + after.length < tokens.length := by
  induction tokens generalizing depth inside with
  | nil => simp [splitClose?] at split
  | cons token rest ih =>
    have step (depth : Nat)
        (kept : splitClose?.keep token (splitClose? depth rest) = some (inside, after)) :
        inside.length + after.length < (token :: rest).length := by
      obtain ⟨⟨inner, tail⟩, found, equal⟩ := Option.map_eq_some_iff.1 kept
      simp only [Prod.mk.injEq] at equal
      have shorter := @ih depth inner (by rw [found, equal.2])
      rw [← equal.1]
      simp only [List.length_cons]
      omega
    unfold splitClose? at split
    split at split
    · simp only [Option.some.injEq, Prod.mk.injEq] at split
      simp [← split.1, ← split.2]
    · exact step _ split
    · exact step _ split
    · exact step _ split

namespace BuildM

def emitComputation (computation : CounterM (List Command)) (word : String) : BuildM Unit := do
  let commands ← counters computation
  modify (·.emitAligned commands word)

def lowerInto (result left : Counter) (op : ArithOp) (right : Counter) : BuildM Unit := do
  emitComputation (assign selfTarget result none left) "squash"
  emitComputation (assign selfTarget result (some op) right) "squash"

/-- Evaluates `left op right`. Commands leave their result in a new temporary: of the kind of the
left counter, or of the kind that a literal on the left needs. -/
def evaluatePair (left : Operand) (op : ArithOp) (right : Operand) : BuildM TokenKind := do
  match left, right with
  | .literal left, .literal right =>
      return .literal (← ofExcept .value (Value.apply op left right))
  | .counter left, .counter right =>
      let left ← counters (get left)
      let right ← counters (get right)
      let result ← counters (temporary left.kind)
      lowerInto result left op right
      return .counter result.name
  | .literal left, .counter right =>
      let right ← counters (get right)
      let result ← counters (temporaryFor left)
      emitComputation (pure (result.setLiteral selfTarget left)) "squash"
      emitComputation (assign selfTarget result (some op) right) "squash"
      return .counter result.name
  | .counter left, .literal right =>
      let left ← counters (get left)
      let held ← counters (temporaryFor right)
      emitComputation (pure (held.setLiteral selfTarget right)) "squash"
      let result ← counters (temporary left.kind)
      lowerInto result left op held
      return .counter result.name

def tierStart? (high : Bool) (left operator right : Token) : Option (Operand × ArithOp × Operand) :=
  match operator.kind with
  | .arith op =>
      if op.isHighTier == high then do
        let left ← View.operand.view? left.kind
        let right ← View.operand.view? right.kind
        return (left, op, right)
      else none
  | _ => none

def evaluateTier (high : Bool) (tokens : List Token) : BuildM (List Token) :=
  match tokens with
  | left :: operator :: right :: rest =>
      match tierStart? high left operator right with
      | some (leftOperand, op, rightOperand) => do
          let result ← evaluatePair leftOperand op rightOperand
          evaluateTier high (⟨result, operator.line⟩ :: rest)
      | none => do
          let others ← evaluateTier high (operator :: right :: rest)
          return left :: others
  | tokens => return tokens
termination_by tokens.length

def evaluateTiers (tokens : List Token) : BuildM (List Token) := do
  evaluateTier false (← evaluateTier true tokens)

def takesArguments (token : Token) : Bool :=
  match token.kind with
  | .routine _ | .word _ | .template _ => true
  | _ => false

/-- Looks for the first group that is a single value when evaluated, and puts the value in its
place. `seen` holds the tokens passed, last one first, and `outside` those before the innermost
group that is open, last one first. Groups that do not become a single value are passed over. The
second result tells whether a group was replaced. -/
def replaceGroup (seen : List Token) (outside : Option (List Token)) :
    List Token → BuildM (List Token × Bool)
  | [] => return (seen.reverse, false)
  | token :: rest =>
      match token.kind, outside with
      | .openParen, _ =>
          let isCall := seen.head?.any takesArguments
          replaceGroup (token :: seen) (if isCall then none else some seen) rest
      | .closeParen, some outside => do
          let inside := (seen.take (seen.length - outside.length - 1)).reverse
          match ← evaluateTiers inside with
          | [value] => return (outside.reverse ++ value :: rest, true)
          | _ => replaceGroup (token :: seen) none rest
      | _, outside => replaceGroup (token :: seen) outside rest

def evaluateGroups : Nat → List Token → BuildM (List Token)
  | 0, tokens => return tokens
  | steps + 1, tokens => do
      let (tokens, replaced) ← replaceGroup [] none tokens
      if replaced then evaluateGroups steps tokens else return tokens

/-- Evaluates groups, products and sums. Every group that is replaced shortens the tokens, so
their number bounds the steps. -/
def evaluateArithmetic (tokens : List Token) : BuildM (List Token) := do
  evaluateTiers (← evaluateGroups (tokens.length + 1) tokens)

def toOperands (tokens : List Token) : BuildM (List Operand) :=
  tokens.mapM fun token => orFail (.invalidArgument token.render) (View.operand.view? token.kind)

def evaluateCall (name : String) (arguments : List Operand) : BuildM TokenKind := do
  let build ← get
  let routine ← orFail (.unknownRoutine name) (build.routines.find? (·.hasName name))
  if arguments.length < routine.requiredCount then fail (.missingParameters routine.name)
  let result ← orFail .noReturnValue routine.result
  emitComputation (routine.callCommands selfTarget arguments) "call"
  let copy ← counters (temporary result.kind)
  emitComputation (assign selfTarget copy none result) "call"
  return .counter copy.name

def evaluateCalls (tokens : List Token) : BuildM (List Token) :=
  match tokens with
  | [] => return []
  | first :: rest =>
      match first.kind, rest with
      | .routine name, ⟨.openParen, _⟩ :: inner =>
          match _split : splitClose? 0 inner with
          | none => fail (.unclosedCall name)
          | some (arguments, after) => do
              let arguments ← evaluateArithmetic (← evaluateCalls arguments)
              let result ← evaluateCall name (← toOperands arguments)
              let others ← evaluateCalls after
              return ⟨result, first.line⟩ :: others
      | _, rest => do
          let others ← evaluateCalls rest
          return first :: others
termination_by tokens.length
decreasing_by
  · have := splitClose?_length _split
    simp only [wfParam, List.length_cons] at *
    omega
  · have := splitClose?_length _split
    simp only [wfParam, List.length_cons] at *
    omega
  · simp [wfParam]

/-- The tokens of a statement, bound and evaluated. A statement that is itself a call keeps its
name and parenthesis. -/
def prepare (statement : Statement) : BuildM (List Token) := do
  let resolves := match statement.kind with
    | .directive directive => directive.resolves
    | _ => true
  let tokens ← ofExcept .environment ((← get).bindTokens resolves statement.tokens)
  let kept := match statement.kind with
    | .call => 2
    | _ => 0
  let evaluated ← evaluateCalls (tokens.drop kept)
  evaluateArithmetic (tokens.take kept ++ evaluated)

end BuildM

end ScriptPack
