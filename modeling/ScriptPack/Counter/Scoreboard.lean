import ScriptPack.Counter.Basic
import ScriptPack.Counter.Error
import ScriptPack.Table

/-!
The counters and records of a compilation and its temporary counters. Temporary counters are
numbered; their numbers are given back when the statement that asked for them ends, unless they
are kept. The scores of temporaries are declared once, at the top of the root file.
-/

namespace ScriptPack

structure Scoreboard where
  /-- Counters by their names in upper case. -/
  counters : Table String Counter := .empty
  /-- Records by their names in upper case. -/
  records : Table String RecordType := .empty
  /-- The number of the next temporary. -/
  nextTemporary : Nat := 0
  /-- The numbers to go back to when scopes end, innermost first. -/
  scopes : List Nat := []
  /-- Scores that are declared at the top of the root file. -/
  declared : List String := []
  /-- Declarations that wait for the top of the root file. -/
  pendingHead : List Command := []

abbrev CounterM := EStateM CounterError Scoreboard

namespace Scoreboard

def temporaryName : String := "_mcc_tmp"

def get? (board : Scoreboard) (accessor : String) : Option Counter :=
  match board.counters.get? (Text.upper accessor) with
  | some counter => some counter
  | none => do
      let (base, field) ← Text.cutAt? ':' accessor.toList
      let counter ← board.counters.get? (Text.upper (String.ofList base))
      counter.field? (String.ofList field)

def contains (board : Scoreboard) (accessor : String) : Bool :=
  (board.get? accessor).isSome

def get (board : Scoreboard) (accessor : String) : Except CounterError Counter :=
  match board.get? accessor with
  | some counter => .ok counter
  | none =>
      match Text.cutAt? ':' accessor.toList with
      | some (base, field) =>
          if board.counters.contains (Text.upper (String.ofList base)) then
            .error (.noField (String.ofList base) (String.ofList field))
          else .error (.unknown accessor)
      | none => .error (.unknown accessor)

def record? (board : Scoreboard) (name : String) : Option RecordType :=
  board.records.get? (Text.upper name)

def defineRecord (board : Scoreboard) (record : RecordType) : Scoreboard :=
  { board with records := board.records.insert (Text.upper record.name) record }

def addCounter (board : Scoreboard) (counter : Counter) : Scoreboard :=
  { board with counters := board.counters.insert (Text.upper counter.name) counter }

def define (board : Scoreboard) (counter : Counter) : Except CounterError Scoreboard :=
  let length := counter.name.length
  let max := counter.kind.maxNameLength
  if max < length then .error (.nameTooLong counter.name length max)
  else .ok (board.addCounter counter)

def pushScope (board : Scoreboard) : Scoreboard :=
  { board with scopes := board.nextTemporary :: board.scopes }

def popScope (board : Scoreboard) : Scoreboard :=
  match board.scopes with
  | [] => board
  | next :: rest => { board with nextTemporary := next, scopes := rest }

def keepTemporaries (board : Scoreboard) : Scoreboard :=
  match board.scopes with
  | [] => board
  | _ :: rest => { board with scopes := board.nextTemporary :: rest }

def declareObjective (board : Scoreboard) (objective : String) : Scoreboard :=
  if board.declared.contains objective then board
  else
    { board with
      declared := objective :: board.declared
      pendingHead := board.pendingHead ++ [.objectiveAdd objective] }

def declare (board : Scoreboard) (counter : Counter) : Scoreboard :=
  counter.objectives.foldl declareObjective board

def temporary (board : Scoreboard) (kind : CounterKind) : Counter × Scoreboard :=
  let counter : Counter := ⟨temporaryName ++ toString board.nextTemporary, kind⟩
  let board := { board with nextTemporary := board.nextTemporary + 1 }
  (counter, (board.declare counter).addCounter counter)

end Scoreboard

namespace CounterM

def get (accessor : String) : CounterM Counter := do
  match (← getThe Scoreboard).get accessor with
  | .ok counter => return counter
  | .error error => throw error

def define (counter : Counter) : CounterM Unit := do
  match (← getThe Scoreboard).define counter with
  | .ok board => set board
  | .error error => throw error

def temporary (kind : CounterKind) : CounterM Counter :=
  modifyGet fun board => board.temporary kind

def temporaryFor (literal : Value) : CounterM Counter :=
  match CounterKind.ofLiteral? literal with
  | some kind => temporary kind
  | none => throw (.noTemporary literal.kindName)

end CounterM

end ScriptPack
