import ScriptPack.Build.Arguments

/-!
Definitions of counters, records and routines, and the results of routines.
-/

namespace ScriptPack

open BuildM CounterM View

namespace BuildM

/-- Defines a counter and writes its declaration. With a default, the selected entities are given
it. -/
def defineCounter (definition : Parameter) : BuildM Unit := do
  let counter := definition.counter
  counters (define counter)
  let word := "define" ++ counter.name
  match definition.default with
  | none => emitAll counter.defineCommands word
  | some default =>
      modify Build.align
      let commands ← tryCatch (counters (Counter.assignOperand selfTarget counter default))
        fun error => do
          modify Build.popSelector
          throw error
      emitAll (counter.defineCommands ++ commands) word
      modify Build.popSelector

def initialCommands (board : Scoreboard) (tokens : List Token) : Except Problem (List Command) :=
  match tokens with
  | [] => .ok []
  | token :: rest =>
      match _taken : takeName (token :: rest) with
      | .error problem => .error problem
      | .ok (name, rest) =>
          match board.get? name with
          | none => .error (.undefinedInitial name)
          | some counter => (initialCommands board rest).map (counter.initCommands ++ ·)
termination_by tokens.length
decreasing_by
  obtain ⟨_, same⟩ := exists_of_takeName _taken
  simp [same]

/-- Takes parameters as long as words follow. Every parameter is a counter, declared at the top of
the root file. -/
def takeParameters (parameters : List Parameter) (tokens : List Token) :
    BuildM (List Parameter) := do
  if identifier.isNext tokens then
    let board := (← get).scoreboard
    match _taken : takeDefinition board tokens with
    | .error problem => fail problem
    | .ok (parameter, rest) =>
        if parameter.default.isNone && parameters.any (·.default.isSome) then
          fail .defaultsNotTrailing
        counters (define parameter.counter)
        modifyScoreboard (·.declare parameter.counter)
        takeParameters (parameters ++ [parameter]) rest
  else return parameters
termination_by tokens.length
decreasing_by
  exact (suffix_of_takeDefinition _taken).2

def addRoutine (routine : Routine) : BuildM Nat :=
  modifyGet fun build =>
    match build.findRoutine? routine.name with
    | some index => (index, { build with routines := build.routines.set index routine })
    | none =>
        (build.routines.length, { build with routines := build.routines ++ [routine] })

def defineRoutine (name : String) (selector : Selector) (parameters : List Parameter) :
    BuildM Unit := do
  if !(← get).nextIsBlock then fail .noRoutineBody
  let routine := Routine.make name selector parameters
  let index ← addRoutine routine
  let file : CommandFile := { name := routine.file, routine := some index }
  modify (·.setHooks {
    opening := [.pushSelector selector, .pushFile file]
    closing := [.popSelector, .popFile] })

def resultKind (operand : Operand) : BuildM CounterKind :=
  match operand with
  | .literal literal => orFail (.invalidResult literal.kindName) (CounterKind.ofLiteral? literal)
  | .counter accessor => do return (← counters (get accessor)).kind

def resultCounter (index : Nat) (kind : CounterKind) : BuildM Counter := do
  let build ← get
  let routine ← orFail .resultOutsideRoutine build.routines[index]?
  let (counter, isNew, routine) ← orFail .mixedResults (routine.resultSlot? index kind)
  set { build with routines := build.routines.set index routine }
  if isNew then
    counters (define counter)
    modifyScoreboard (·.declare counter)
  return counter

def takeFields : Nat → RecordType → BuildM RecordType
  | 0, record => return record
  | count + 1, record => do
      let statement ← orFail .unfinishedRecord (← takeStatement?)
      let (kind, tokens) ← ofExcept id (takeKind (← get).scoreboard statement.tokens)
      let (name, _) ← ofExcept id (identifier.take tokens)
      takeFields count (record.addField name (kind.getD .int))

def defineRecord (name : String) : BuildM Unit := do
  if !(← get).nextIsBlock then fail .noRecordBody
  let opening ← takeStatement?
  let record ← takeFields ((opening.bind Statement.size?).getD 0) { name }
  match ← takeStatement? with
  | some statement =>
      if !statement.isCloseBlock then fail .unfinishedRecord
      modifyScoreboard (·.defineRecord record)
  | none => fail .unfinishedRecord

end BuildM

namespace ArgumentM

def definition : ArgumentM Parameter := do
  let board := (← getThe Build).scoreboard
  read (takeDefinition board)

def runDefine : ArgumentM Unit := do
  defineCounter (← definition)

def runInitialise : ArgumentM Unit := do
  let board := (← getThe Build).scoreboard
  let commands ← ofExcept id (initialCommands board (← get))
  modifyThe Build (·.emitBatch (commands.map .plain) "init" true)

def runRoutine : ArgumentM Unit := do
  let selector ← next? selector
  let name ← next identifier
  let tokens := match ← get with
    | ⟨.openParen, _⟩ :: rest => rest
    | tokens => tokens
  let parameters ← takeParameters [] tokens
  defineRoutine name (selector.getD .self) parameters

def runResult : ArgumentM Unit := do
  let index ← orFail .resultOutsideRoutine (← getThe Build).currentRoutine?
  let operand ← next operand
  let kind ← resultKind operand
  let result ← resultCounter index kind
  let commands ← counters (Counter.assignOperand selfTarget result operand)
  emitAll commands "return"

def runRecord : ArgumentM Unit := do
  let name ← next identifier
  defineRecord name

end ArgumentM

end ScriptPack
