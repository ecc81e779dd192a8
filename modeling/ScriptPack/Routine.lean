import ScriptPack.Counter.Arithmetic

/-!
Routines, the functions that a script defines. A routine is a command file of its own; before a
call its parameters are set to the arguments, or to their defaults where arguments are left out.
-/

namespace ScriptPack

structure Parameter where
  counter : Counter
  default : Option Operand := none

structure Routine where
  name : String
  /-- Who executes the body. -/
  selector : Selector
  parameters : List Parameter
  /-- The path of the file that holds the body. -/
  file : String
  /-- The counter for the result, once a statement has returned one. -/
  result : Option Counter := none

namespace Routine

def make (name : String) (selector : Selector) (parameters : List Parameter) : Routine :=
  { name, selector, parameters, file := name }

def resultName : String := "_mcc_rv"

def defaultsAreTrailing (parameters : List Parameter) : Bool :=
  (parameters.dropWhile (·.default.isNone)).all (·.default.isSome)

def requiredCount (routine : Routine) : Nat :=
  (routine.parameters.filter (·.default.isNone)).length

def hasName (routine : Routine) (name : String) : Bool :=
  Text.sameWord routine.name name

def assignParameters (target : String) : List Parameter → List Operand → CounterM (List Command)
  | [], _ => return []
  | parameter :: rest, arguments => do
      let operand := match arguments with
        | argument :: _ => some argument
        | [] => parameter.default
      let commands ← match operand with
        | some operand => Counter.assignOperand target parameter.counter operand
        | none => pure []
      return commands ++ (← assignParameters target rest arguments.tail)

def callCommands (routine : Routine) (target : String) (arguments : List Operand) :
    CounterM (List Command) := do
  let commands ← assignParameters target routine.parameters arguments
  return commands ++ [.call routine.file]

/-- The counter for results of a kind, whether it is a new one, and the routine that knows it. A
routine has results of one kind only. -/
def resultSlot? (routine : Routine) (index : Nat) (kind : CounterKind) :
    Option (Counter × Bool × Routine) :=
  match routine.result with
  | some counter => if counter.kind = kind then some (counter, false, routine) else none
  | none =>
      let counter : Counter := ⟨resultName ++ toString index, kind⟩
      some (counter, true, { routine with result := some counter })

end Routine

end ScriptPack
