import ScriptPack.Build.Arguments

/-!
Assignments to counters, and calls of routines as statements of their own.
-/

namespace ScriptPack

/-- An assignment: the counter's accessor, the operator before the equals sign, and the right
side. -/
structure Assignment where
  accessor : String
  op : Option ArithOp
  operand : Operand

def Assignment.read (tokens : List Token) : Except Problem Assignment :=
  match tokens with
  | [] => .error .endOfStatement
  | first :: rest =>
      match View.counter.view? first.kind, rest with
      | none, _ => .error (.unknownValue first.render)
      | some _, [] => .error .endOfStatement
      | some accessor, ⟨.assign op, _⟩ :: rest => do
          let (operand, rest) ← View.operand.take rest
          if rest.isEmpty then return { accessor, op, operand }
          else .error (.extraTokens (rest.map Token.render))
      | some _, _ => .error .expectedAssignment

def Assignment.commands (assignment : Assignment) : CounterM (List Command) := do
  let target ← CounterM.get assignment.accessor
  match assignment.operand with
  | .literal literal => Counter.assignLiteral selfTarget target assignment.op literal
  | .counter other => Counter.assign selfTarget target assignment.op (← CounterM.get other)

def BuildM.runOperation (tokens : List Token) : BuildM Unit := do
  let assignment ← ofExcept id (Assignment.read tokens)
  let commands ← counters assignment.commands
  emitAllSelected commands "operation"

def BuildM.readCall (tokens : List Token) : Except Problem (String × List Token) :=
  match tokens with
  | [] => .error .endOfStatement
  | first :: rest =>
      match first.kind, rest with
      | .routine name, ⟨.openParen, _⟩ :: inner =>
          match splitClose? 0 inner with
          | some (arguments, _) => .ok (name, arguments)
          | none => .error (.unclosedCall name)
      | .routine name, _ => .error (.expectedParenthesis name)
      | kind, _ => .error (.unknownRoutine ((View.identifier.view? kind).getD first.render))

def BuildM.runCall (tokens : List Token) : BuildM Unit := do
  let (name, arguments) ← ofExcept id (readCall tokens)
  let arguments ← toOperands arguments
  let routine ← orFail (.unknownRoutine name) ((← get).routines.find? (·.hasName name))
  if arguments.length < routine.requiredCount then fail (.missingParameters routine.name)
  let commands ← counters (routine.callCommands selfTarget arguments)
  emitAllSelected commands "call"

end ScriptPack
