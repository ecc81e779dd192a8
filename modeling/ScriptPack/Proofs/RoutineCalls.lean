import ScriptPack.Proofs.CallTerms
import ScriptPack.Proofs.Operations

/-!
The calls of a statement. Each sets the parameters of a routine to the arguments, calls its file and
copies the result into a new temporary. Parameters and what the file writes are scores like any
other, so a call leaves alone only what its routine does not write: the results of earlier calls
stay where no later routine writes their temporaries.
-/

namespace ScriptPack

open Build BuildM CounterM Expression Item List Option Scoreboard Scores Term

variable {scores : Scores} {board : Scoreboard} {tokens : List Token} {before after : Build}
  {name : String} {operands : List Operand} {terms : List Term} {symbols : List Symbol}

namespace Scores

def putAll (scores : Scores) : List String → List Int32 → Scores
  | objective :: objectives, value :: values =>
      (scores.put objective value).putAll objectives values
  | _, _ => scores

variable {objectives : List String} {values : List Int32}

theorem putAll_other {other : String} (unlisted : other ∉ objectives) :
    scores.putAll objectives values other = scores other := by
  induction objectives generalizing scores values with
  | nil => rw [putAll]; nofun
  | cons objective objectives ih =>
    obtain ⟨different, others⟩ := not_or.1 (mem_cons.not.1 unlisted)
    cases values with
    | nil => rw [putAll]; nofun
    | cons value values => rw [putAll, ih others, put_other different]

theorem putAll_congr (length : values.length = objectives.length) {objective : String}
    (listed : objective ∈ objectives) (scores others : Scores) :
    scores.putAll objectives values objective = others.putAll objectives values objective := by
  induction objectives generalizing values scores others with
  | nil => cases listed
  | cons first objectives ih =>
    cases values with
    | nil => cases length
    | cons value values =>
      rw [putAll, putAll]
      by_cases later : objective ∈ objectives
      · exact ih (Nat.succ.inj length) later _ _
      · have isFirst : objective = first := (mem_cons.1 listed).resolve_right later
        rw [putAll_other later, putAll_other later, isFirst, put_same, put_same]

/-- The scores differ in temporaries from a number on and in what may be written only. -/
def AgreesBut (limit : Nat) (written : String → Prop) (scores later : Scores) : Prop :=
  ∀ objective, (∀ index, limit ≤ index → objective ≠ temporaryObjective index) →
    ¬written objective → later objective = scores objective

section AgreesBut

variable {limit : Nat} {written wider : String → Prop} {scores middle later : Scores}

theorem AgreesBut.refl (limit : Nat) (written : String → Prop) (scores : Scores) :
    AgreesBut limit written scores scores :=
  fun _ _ _ => rfl

theorem AgreesBelow.agreesBut (agrees : AgreesBelow limit scores later) (written : String → Prop) :
    AgreesBut limit written scores later :=
  fun objective old _ => agrees objective old

theorem AgreesBut.mono {lower : Nat} (le : lower ≤ limit)
    (wide : ∀ objective, written objective → wider objective)
    (agrees : AgreesBut limit written scores later) : AgreesBut lower wider scores later :=
  fun objective old unwritten => agrees objective
    (fun index bound => old index (le.trans bound)) fun isWritten => unwritten (wide _ isWritten)

theorem AgreesBut.trans (first : AgreesBut limit written scores middle)
    (second : AgreesBut limit written middle later) : AgreesBut limit written scores later := by
  intro objective old unwritten
  rw [second objective old unwritten, first objective old unwritten]

end AgreesBut

end Scores

/-- Tokens that stand for phrases are brought to what these are worth. -/
theorem BuildM.evaluateArithmetic_phrases {α : Type} {quantities : α → Quantity}
    {phrases : List (Phrase α)} {results : List Token}
    (noCalls : ∀ phrase ∈ phrases, phrase.takesArguments = false)
    (known : Forall₂ (fun phrase symbol => phrase.result? quantities =
      some symbol) phrases symbols)
    (denote : DenoteAll before.scoreboard scores tokens (phrases.flatMap (Phrase.symbols quantities)))
    (run : evaluateArithmetic tokens before = .ok results after) :
    ∃ commands later, before.Lowers after commands ∧
      Reaches before.scoreboard.nextTemporary commands scores later ∧
      DenoteAll after.scoreboard later results symbols := by
  obtain ⟨_, _, commands, later, again, spec⟩ := evaluateArithmetic_evaluates denote _
    (foldArithmetic_phrases known noCalls)
  cases run.symm.trans again
  exact ⟨commands, later, spec⟩

/-- A routine with the expression that it returns, the counters that were known when its body was
compiled, and the commands of its file. -/
structure Callee where
  routine : Routine
  slot : Counter
  board : Scoreboard
  body : Expression Atom .sum
  commands : List Command

namespace Callee

def parameters (callee : Callee) : List String :=
  callee.routine.parameters.map (·.counter.name)

def result? (callee : Callee) (arguments : List Int32) : Option Int32 :=
  if arguments.length = callee.parameters.length then
    callee.body.value (Atom.value callee.board (putAll (fun _ => 0) callee.parameters arguments))
  else none

/-- A call writes the parameters, and what the commands of the file write. -/
def Writes (callee : Callee) (objective : String) : Prop :=
  objective ∈ callee.parameters ∨ objective ∈ callee.commands.filterMap Command.objective?

/-- Calls of the file leave in the counter for the result what the body is worth, and its operands
are parameters. -/
structure IsReady (callee : Callee) (calls : Calls) : Prop where
  result : callee.routine.result = some callee.slot
  simple : callee.slot.kind.isIntegerLike = true
  parameters : ∀ parameter ∈ callee.routine.parameters, parameter.counter.kind.isInteger = true ∧
    ¬IsReserved parameter.counter.name
  leaves : ∀ accessor, Atom.counter accessor ∈ callee.body.leaves →
    ∃ counter, callee.board.Holds accessor counter ∧ counter.name ∈ callee.parameters
  runs : ∀ scores value, callee.body.value (Atom.value callee.board scores) = some value →
    ∃ final, calls callee.routine.file scores = some final ∧ final callee.slot.name = value ∧
      ∀ objective, ¬callee.Writes objective → final objective = scores objective

theorem IsReady.value_putAll {callee : Callee} {calls : Calls} (ready : callee.IsReady calls)
    {arguments : List Int32} {value : Int32} (returns : callee.result? arguments = some value)
    (scores : Scores) :
    callee.body.value (Atom.value callee.board (scores.putAll callee.parameters arguments)) =
      some value := by
  obtain ⟨length, returned⟩ := ite_none_right_eq_some.1 returns
  rw [← returned]
  refine value_congr fun atom member => ?_
  cases atom with
  | number value => rfl
  | counter accessor =>
    obtain ⟨counter, holds, listed⟩ := ready.leaves accessor member
    rw [Atom.value, Atom.value, holds.names.scoreOf_eq, holds.names.scoreOf_eq]
    exact putAll_congr length listed _ _

end Callee

namespace Operand

/-- A written integer, or a counter of one score. -/
def IsNumber (board : Scoreboard) : Operand → Prop
  | literal value => ∃ number, value = .int number
  | counter accessor => ∃ counter, board.get? accessor = some counter ∧
      counter.kind.isIntegerLike = true

def objective? (board : Scoreboard) : Operand → Option String
  | literal _ => none
  | counter accessor => (board.get? accessor).map Counter.name

variable {operand : Operand}

theorem valueIn_congr {later : Scores}
    (same : ∀ objective, operand.objective? board = some objective →
      later objective = scores objective) :
    operand.valueIn board later = operand.valueIn board scores := by
  cases operand with
  | literal value => cases value <;> rfl
  | counter accessor =>
    rw [valueIn, valueIn, scoreOf, scoreOf]
    cases found : board.get? accessor with
    | none => rfl
    | some counter => exact same counter.name (congrArg (Option.map Counter.name) found)

theorem of_denotes {quantity : Quantity}
    (denotes : operand.kind.Denotes board scores (.quantity quantity)) :
    operand.IsNumber board ∧ operand.valueIn board scores = quantity.value := by
  cases operand with
  | literal value =>
    cases denotes with
    | literal number => exact ⟨⟨number, rfl⟩, rfl⟩
  | counter accessor =>
    cases denotes with
    | counter names | computed names =>
      exact ⟨⟨_, names.found, names.simple⟩, names.scoreOf_eq scores⟩

end Operand

theorem Counter.assignOperand_copies {left : Counter} {operand : Operand}
    (integer : left.kind.isInteger = true) (number : operand.IsNumber board) :
    ∃ command, assignOperand selfTarget left operand board = .ok [command] board ∧
      ∀ calls scores, command.replay? calls scores =
        some (scores.put left.name (operand.valueIn board scores)) := by
  obtain ⟨name, kind⟩ := left
  cases operand with
  | literal value =>
    obtain ⟨number, rfl⟩ := number
    refine ⟨.scoreSet selfTarget name number, ?_, fun calls _ => replay?_scoreSet calls name number⟩
    exact congrArg (EStateM.Result.ok · board) (setLiteral_of_isInteger integer number)
  | counter accessor =>
    obtain ⟨counter, found, simple⟩ := number
    refine ⟨combine selfTarget name none counter.name, ?_, fun calls scores => ?_⟩
    · unfold assignOperand
      dsimp only
      rw [bind_of_ok (get_of_some found), assign_of_isIntegerLike selfTarget none
        (CounterKind.isIntegerLike_of_isInteger integer) simple]
      rfl
    · rw [replay?_copy, Operand.valueIn, scoreOf, found]

namespace Routine

/-- The scores that a call assigns, each with its argument or else its default. -/
def given : List Parameter → List Operand → List (Parameter × Operand)
  | [], _ => []
  | parameter :: rest, arguments =>
      match arguments.head?.or parameter.default with
      | some operand => (parameter, operand) :: given rest arguments.tail
      | none => given rest arguments.tail

/-- One parameter is assigned after the other. -/
def passAll (board : Scoreboard) (scores : Scores) (given : List (Parameter × Operand)) : Scores :=
  given.foldl (fun scores pair => scores.put pair.1.counter.name (pair.2.valueIn board scores)) scores

variable {parameters : List Parameter}

theorem assignParameters_passes
    (integer : ∀ pair ∈ given parameters operands, pair.1.counter.kind.isInteger = true ∧
      pair.2.IsNumber board) :
    ∃ commands, assignParameters selfTarget parameters operands board = .ok commands board ∧
      ∀ calls scores, replayAll? calls commands scores =
        some (passAll board scores (given parameters operands)) := by
  induction parameters generalizing operands with
  | nil => exact ⟨[], rfl, fun _ _ => rfl⟩
  | cons parameter parameters ih =>
    have step : assignParameters selfTarget (parameter :: parameters) operands = (do
        let commands ← match operands.head?.or parameter.default with
          | some operand => Counter.assignOperand selfTarget parameter.counter operand
          | none => pure []
        return commands ++ (← assignParameters selfTarget parameters operands.tail)) := by
      cases operands <;> rfl
    rw [given] at integer ⊢
    rw [step]
    cases isGiven : operands.head?.or parameter.default with
    | none =>
      rw [isGiven] at integer
      obtain ⟨commands, assigns, replays⟩ := ih integer
      exact ⟨commands, (bind_of_ok assigns).trans rfl, replays⟩
    | some operand =>
      rw [isGiven] at integer
      obtain ⟨⟨isInteger, number⟩, others⟩ := forall_mem_cons.1 integer
      obtain ⟨commands, assigns, replays⟩ := ih others
      obtain ⟨command, copies, puts⟩ := Counter.assignOperand_copies isInteger number
      refine ⟨command :: commands, ?_, fun calls scores => ?_⟩
      · exact (bind_of_ok copies).trans ((bind_of_ok assigns).trans rfl)
      · rw [replayAll?_cons, puts, bind_some, replays]
        rfl

theorem given_eq_zip (length : operands.length = parameters.length) :
    given parameters operands = parameters.zip operands := by
  induction parameters generalizing operands with
  | nil => rfl
  | cons parameter parameters ih =>
    cases operands with
    | nil => cases length
    | cons operand operands => exact congrArg _ (ih (Nat.succ.inj length))

/-- The parameters are given the arguments, where no argument is read from a parameter. -/
theorem passAll_apart (length : operands.length = parameters.length)
    (apart : ∀ operand ∈ operands, ∀ objective, operand.objective? board = some objective →
      objective ∉ parameters.map (·.counter.name)) :
    passAll board scores (given parameters operands) =
      scores.putAll (parameters.map (·.counter.name)) (operands.map (·.valueIn board scores)) := by
  induction parameters generalizing operands scores with
  | nil =>
    cases length_eq_zero_iff.1 length
    rfl
  | cons parameter parameters ih =>
    cases operands with
    | nil => cases length
    | cons operand operands =>
      obtain ⟨-, othersApart⟩ := forall_mem_cons.1 apart
      have stay : operands.map (·.valueIn board (scores.put parameter.counter.name
          (operand.valueIn board scores))) = operands.map (·.valueIn board scores) := by
        refine map_congr_left fun other member => Operand.valueIn_congr fun objective read => ?_
        exact Scores.put_other fun same =>
          othersApart other member objective read (same ▸ mem_cons_self)
      rw [map_cons, map_cons, Scores.putAll, ← stay]
      exact ih (Nat.succ.inj length) fun other member objective read listed =>
        othersApart other member objective read (mem_cons_of_mem _ listed)

end Routine

namespace BuildM

variable {before after : Build}

theorem emitComputation_eq_ok {computation : CounterM (List Command)} {word : String}
    (noFrames : before.frames = []) (run : emitComputation computation word before = .ok () after) :
    ∃ commands board, computation before.scoreboard = .ok commands board ∧
      after = before.lowered board commands := by
  obtain ⟨commands, board, computes, emits⟩ := bind_counters_eq_ok_iff.1 run
  refine ⟨commands, board, computes, ?_⟩
  have unframed : before.framed = fun command => ⟨before.active.alignment, command⟩ := by
    funext command
    rw [framed, noFrames]
    rfl
  have emitted : after = (before.setBoard board).emitAligned commands word := by
    cases emits
    rfl
  rw [emitted, emitAligned, @emitBatchKeeping_of_noFrames (before.setBoard board) noFrames,
    lowered, unframed]
  rfl

/-- A call leaves the result in a new temporary, and writes what the routine writes. -/
theorem evaluateCall_delivers {kind : TokenKind}
    {callee : Callee} {calls : Calls} (noFrames : before.frames = [])
    (found : before.routines.find? (·.hasName name) = some callee.routine)
    (ready : callee.IsReady calls)
    (numbers : ∀ operand ∈ operands, operand.IsNumber before.scoreboard)
    (length : operands.length = callee.parameters.length)
    (apart : ∀ operand ∈ operands, ∀ objective,
      operand.objective? before.scoreboard = some objective → objective ∉ callee.parameters)
    (run : evaluateCall name operands before = .ok kind after) :
    let next := before.scoreboard.nextTemporary
    ∃ commands, before.Lowers after commands ∧ next < after.scoreboard.nextTemporary ∧
      kind = .counter (temporaryObjective next) ∧
      after.scoreboard.Names (temporaryObjective next)
        ⟨temporaryObjective next, callee.slot.kind⟩ ∧
      ∀ scores value, callee.result? (operands.map (·.valueIn before.scoreboard scores)) = some value →
        ∃ later, replayAll? calls commands scores = some later ∧
          later (temporaryObjective next) = value ∧
          AgreesBut next callee.Writes scores later := by
  intro next
  unfold evaluateCall at run
  rw [bind_of_ok (get_apply before)] at run
  obtain ⟨routine, isRoutine, run⟩ := bind_orFail_eq_ok_iff.1 run
  cases found.symm.trans isRoutine
  split at run
  · cases run
  obtain ⟨slot, isSlot, run⟩ := bind_orFail_eq_ok_iff.1 run
  cases ready.result.symm.trans isSlot
  obtain ⟨_, called, emitsCall, run⟩ := bind_eq_ok_iff.1 run
  obtain ⟨callCommands, board, callComputes, rfl⟩ := emitComputation_eq_ok noFrames emitsCall
  have isLength := length.trans (length_map ..)
  obtain ⟨assignments, assigns, replays⟩ := @Routine.assignParameters_passes before.scoreboard operands
    callee.routine.parameters fun pair member => by
      rw [Routine.given_eq_zip isLength] at member
      obtain ⟨isParameter, isOperand⟩ := of_mem_zip member
      exact ⟨(ready.parameters _ isParameter).1, numbers _ isOperand⟩
  cases callComputes.symm.trans (CounterM.bind_of_ok assigns)
  -- the result is copied out of the counter of the routine
  let copied : Counter := ⟨temporaryObjective next, callee.slot.kind⟩
  let parked := (before.scoreboard.temporary callee.slot.kind).2
  obtain ⟨copy, board, takes, run⟩ := bind_counters_eq_ok_iff.1 run
  obtain ⟨rfl, rfl⟩ : copy = copied ∧ board = parked := by
    cases takes
    exact ⟨rfl, rfl⟩
  obtain ⟨_, last, emits, returned⟩ := bind_eq_ok_iff.1 run
  rw [emitComputation_assign copied.name none ready.simple ready.simple "call"] at emits
  cases emits
  cases returned
  refine ⟨assignments ++ [.call callee.routine.file] ++
    [Counter.combine selfTarget copied.name none callee.slot.name], ⟨?_, ?_⟩, ?_, rfl, ?_, ?_⟩
  · simp [lowered, CommandFile.append, framed]
  · exact extends_temporary before.scoreboard callee.slot.kind
  · change next < parked.nextTemporary
    rw [nextTemporary_temporary]
    exact Nat.lt_succ_self next
  · exact names_temporary before.scoreboard ready.simple
  · intro scores value returns
    have assigned : replayAll? calls assignments scores = some (scores.putAll callee.parameters
        (operands.map (·.valueIn before.scoreboard scores))) := by
      rw [replays, Routine.passAll_apart isLength apart]
      rfl
    obtain ⟨final, runs, stored, kept⟩ := ready.runs _ value (ready.value_putAll returns scores)
    refine ⟨final.put copied.name (final callee.slot.name), ?_, ?_, ?_⟩
    · rw [replayAll?_append, replayAll?_append, assigned, bind_some, replayAll?_singleton,
        Command.replay?, runs, bind_some, replayAll?_singleton, replay?_copy]
    · rw [put_same, stored]
    · intro objective old unwritten
      have unlisted : objective ∉ callee.parameters := fun listed => unwritten (.inl listed)
      rw [put_other (old next (Nat.le_refl next)), kept objective unwritten]
      exact putAll_other unlisted

theorem toOperands_eq_ok_iff : toOperands tokens before = .ok operands after ↔
    tokens.map Token.kind = operands.map Operand.kind ∧ before = after := by
  unfold toOperands
  induction tokens generalizing operands with
  | nil => simp [eq_comm]
  | cons token tokens ih =>
    rw [mapM_cons, bind_orFail_eq_ok_iff]
    constructor
    · rintro ⟨operand, viewed, run⟩
      obtain ⟨others, middle, ranOthers, ⟨⟩⟩ := bind_eq_ok_iff.1 run
      obtain ⟨viewedOthers, rfl⟩ := ih.1 ranOthers
      exact ⟨congrArg₂ cons (View.operand_eq_some_iff.1 viewed) viewedOthers, rfl⟩
    · rintro ⟨kinds, rfl⟩
      obtain ⟨operand, others, rfl, viewed, viewedOthers⟩ := map_eq_cons_iff.1 kinds.symm
      refine ⟨operand, View.operand_eq_some_iff.2 viewed.symm, ?_⟩
      rw [bind_of_ok (ih.2 ⟨viewedOthers.symm, rfl⟩), pure_apply]

theorem evaluateCalls_cons {token : Token} {rest results : List Token}
    (notRoutine : ∀ name, token.kind ≠ .routine name)
    (run : evaluateCalls (token :: rest) before = .ok results after) :
    ∃ others, evaluateCalls rest before = .ok others after ∧ results = token :: others := by
  rw [evaluateCalls] at run
  · obtain ⟨others, middle, ranOthers, returned⟩ := bind_eq_ok_iff.1 run
    cases returned
    exact ⟨others, ranOthers, rfl⟩
  · intro name line inner isRoutine
    exact absurd isRoutine (notRoutine name)

section Call

variable {first opening closing : Token} {inside rest results : List Token}
  (isRoutine : first.kind = .routine name) (isOpening : opening.kind = .openParen)
  (split : splitClose? 0 (inside ++ closing :: rest) = some (inside, rest))

include isRoutine isOpening split

theorem evaluateCalls_split :
    evaluateCalls (first :: opening :: (inside ++ closing :: rest)) = do
      let arguments ← evaluateArithmetic (← evaluateCalls inside)
      let result ← evaluateCall name (← toOperands arguments)
      let others ← evaluateCalls rest
      return ⟨result, first.line⟩ :: others := by
  obtain ⟨opens, line⟩ := opening
  cases isOpening
  rw [evaluateCalls.eq_2 first name line _ isRoutine]
  split
  · rename_i fails
    cases split.symm.trans fails
  · rename_i splits
    cases split.symm.trans splits
    rfl

theorem evaluateCalls_call
    (run : evaluateCalls (first :: opening :: (inside ++ closing :: rest)) before =
      .ok results after) :
    ∃ called calledBuild arguments argued operands kind delivered others,
      evaluateCalls inside before = .ok called calledBuild ∧
      evaluateArithmetic called calledBuild = .ok arguments argued ∧
      arguments.map Token.kind = operands.map Operand.kind ∧
      evaluateCall name operands argued = .ok kind delivered ∧
      evaluateCalls rest delivered = .ok others after ∧
      results = ⟨kind, first.line⟩ :: others := by
  rw [evaluateCalls_split isRoutine isOpening split] at run
  obtain ⟨called, calledBuild, calls, run⟩ := bind_eq_ok_iff.1 run
  obtain ⟨arguments, argued, argues, run⟩ := bind_eq_ok_iff.1 run
  obtain ⟨operands, viewed, views, continued⟩ := bind_eq_ok_iff.1 run
  obtain ⟨areOperands, rfl⟩ := toOperands_eq_ok_iff.1 views
  obtain ⟨kind, delivered, delivers, run⟩ := bind_eq_ok_iff.1 continued
  obtain ⟨others, last, ranOthers, returned⟩ := bind_eq_ok_iff.1 run
  cases returned
  exact ⟨called, calledBuild, arguments, _, operands, kind, delivered, others, calls, argues,
    areOperands, delivers, ranOthers, rfl⟩

end Call

end BuildM

/-- Once an operand has called a routine, the ones after it call quiet routines only. -/
inductive Orderly (quiet : String → Prop) : List Term → Prop where
  | nil : Orderly quiet []
  | atom {operand : Atom} {rest : List Term} (others : Orderly quiet rest) :
      Orderly quiet (.atom operand :: rest)
  | call {name : String} {arguments : List (Expression Term .sum)} {rest : List Term}
      (inside : Orderly quiet (arguments.flatMap leaves)) (others : Orderly quiet rest)
      (later : ∀ other inner, .call other inner ∈ rest.flatMap subterms → quiet other) :
      Orderly quiet (.call name arguments :: rest)

/-- What a statement with calls starts from: the routines, what calls of their files do, and the
counters and scores. What it keeps no routine that it calls may write. -/
structure CallSite where
  callees : String → Callee
  calls : Calls
  routines : List Routine
  board : Scoreboard
  scores : Scores
  kept : String → Prop

namespace CallSite

variable (site : CallSite) {objective : String} {later : Scores} {items : List Item}
  {quantities : List Quantity}

def values : Atom → Int32 :=
  Atom.value site.board site.scores

def results (name : String) : List Int32 → Option Int32 :=
  (site.callees name).result?

def quantity : Term → Quantity :=
  Term.quantity site.results site.values

def Admits : Term → Prop
  | .atom (.number _) => True
  | .atom (.counter accessor) =>
      ∃ counter, site.board.Holds accessor counter ∧ site.kept counter.name
  | .call name _ =>
      site.routines.find? (·.hasName name) = some (site.callees name).routine ∧
        (site.callees name).IsReady site.calls ∧
        ∀ objective, site.kept objective → ¬(site.callees name).Writes objective

/-- A routine that writes none of the temporaries of the statement. -/
def IsQuiet (name : String) : Prop :=
  ∀ index, site.board.nextTemporary ≤ index →
    ¬(site.callees name).Writes (temporaryObjective index)

def Written (terms : List Term) (objective : String) : Prop :=
  ∃ name arguments, .call name arguments ∈ terms.flatMap subterms ∧
    (site.callees name).Writes objective

def Stays (scores : Scores) : Prop :=
  AgreesBut site.board.nextTemporary (fun objective => ¬site.kept objective) site.scores
    scores

variable {site}

theorem Written.mono {others : List Term} (subset : terms ⊆ others)
    (written : site.Written terms objective) : site.Written others objective := by
  obtain ⟨name, arguments, member, writes⟩ := written
  obtain ⟨term, listed, inside⟩ := mem_flatMap.1 member
  exact ⟨name, arguments, mem_flatMap.2 ⟨term, subset listed, inside⟩, writes⟩

theorem Written.of_arguments {arguments : List (Expression Term .sum)}
    (written : site.Written (arguments.flatMap leaves) objective) :
    site.Written (.call name arguments :: terms) objective := by
  obtain ⟨other, inner, member, writes⟩ := written
  refine ⟨other, inner, mem_append_left _ ?_, writes⟩
  rw [subterms, subtermsAll_eq]
  exact mem_cons_of_mem _ member

theorem Stays.trans {limit : Nat} (stays : site.Stays scores)
    (le : site.board.nextTemporary ≤ limit)
    (admits : ∀ term ∈ terms.flatMap subterms, site.Admits term)
    (agrees : AgreesBut limit (site.Written terms) scores later) : site.Stays later := by
  refine AgreesBut.trans stays (agrees.mono le ?_)
  rintro objective ⟨name, arguments, member, writes⟩ keeps
  exact (admits _ member).2.2 objective keeps writes

theorem denotes_atom {operand : Atom} (admits : site.Admits (.atom operand))
    (extension : site.board.Extends board) (stays : site.Stays scores) :
    operand.bound.Denotes board scores (.quantity (site.quantity (.atom operand))) := by
  cases operand with
  | number value => exact .literal value
  | counter accessor =>
    obtain ⟨counter, holds, keeps⟩ := admits
    have held : Atom.IsHeld site.board (.counter accessor) := ⟨counter, holds⟩
    refine (Atom.denotes_bound held site.scores).keep extension.grows ?_
    intro other found isCounter names
    cases isCounter
    cases holds.found.symm.trans names.found
    exact stays _ (fun index _ => Scoreboard.ne_temporaryObjective holds.name_free index)
      (not_not.2 keeps)

/-- Operands whose values are known and whose calls can be run one after the other. -/
structure Supports (site : CallSite) (terms : List Term) : Prop where
  admits : ∀ term ∈ terms.flatMap subterms, site.Admits term
  orderly : Orderly site.IsQuiet terms
  known : ∀ term ∈ terms, ∃ value, term.value? site.results site.values = some value

theorem Supports.tail {term : Term} {terms : List Term} (supports : site.Supports (term :: terms)) :
    site.Supports terms where
  admits := fun other member => supports.admits other (mem_append_right _ member)
  orderly := by
    cases supports.orderly with
    | atom others => exact others
    | call _ others _ => exact others
  known := fun other member => supports.known other (mem_cons_of_mem _ member)

theorem Supports.arguments {arguments : List (Expression Term .sum)}
    (supports : site.Supports (.call name arguments :: terms)) :
    ∃ values value, Term.valueAll? site.results site.values arguments = some values ∧
      (site.callees name).result? values = some value ∧
      (site.quantity (.call name arguments)).value = value ∧
      site.Supports (arguments.flatMap leaves) := by
  obtain ⟨value, known⟩ := supports.known _ mem_cons_self
  have worth := Term.value?_eq_quantity known
  rw [Term.value?] at known
  obtain ⟨values, argumentsKnown, returns⟩ := bind_eq_some_iff.1 known
  refine ⟨values, value, argumentsKnown, returns, worth, ?_, ?_, ?_⟩
  · intro term member
    refine supports.admits term (mem_append_left _ ?_)
    rw [Term.subterms, Term.subtermsAll_eq]
    exact mem_cons_of_mem _ member
  · cases supports.orderly with
    | call inside _ _ => exact inside
  · exact (Term.quantities_of_valueAll? argumentsKnown).1

/-- A build and scores that the statement has come to. -/
structure Reached (site : CallSite) (build : Build) (scores : Scores) : Prop where
  noFrames : build.frames = []
  routines : build.routines = site.routines
  extension : site.board.Extends build.scoreboard
  stays : site.Stays scores

theorem Reached.step {commands : List Command} (reached : site.Reached before scores)
    (lowers : before.Lowers after commands) (stays : site.Stays later) :
    site.Reached after later where
  noFrames := lowers.frames.trans reached.noFrames
  routines := by
    rw [lowers.state]
    exact reached.routines
  extension := reached.extension.trans lowers.board
  stays := stays

/-- Commands after which tokens stand for the values of the parts of an expression. -/
def Delivers (site : CallSite) (before after : Build) (scores : Scores) (results : List Token)
    (items : List Item) : Prop :=
  ∃ commands later, before.Lowers after commands ∧
    replayAll? site.calls commands scores = some later ∧
    DenoteAll after.scoreboard later results (items.map (symbol site.quantity)) ∧
    Scores.AgreesBut before.scoreboard.nextTemporary (site.Written (items.filterMap term?))
      scores later

theorem Delivers.cons {before after : Build} {scores : Scores} {results : List Token}
    {token : Token} {item : Item} (others : site.Delivers before after scores results items)
    (reached : site.Reached before scores)
    (admits : ∀ term ∈ (items.filterMap term?).flatMap Term.subterms, site.Admits term)
    (first : ∀ board later, site.board.Extends board → site.Stays later →
      token.kind.Denotes board later (item.symbol site.quantity)) :
    site.Delivers before after scores (token :: results) (item :: items) := by
  obtain ⟨commands, later, lowers, replays, denote, agrees⟩ := others
  have stays := reached.stays.trans reached.extension.next_le admits agrees
  refine ⟨commands, later, lowers, replays, ?_, agrees.mono le_rfl fun objective => ?_⟩
  · exact .cons (first _ _ (reached.extension.trans lowers.board) stays) denote
  · refine Written.mono ?_
    rw [filterMap_cons]
    split
    · exact Subset.refl _
    · exact subset_cons_self _ _

theorem exists_of_source {arguments : List (Expression Term .sum)}
    (each : Forall₂ (fun e result => e.quantity? site.quantity =
      some result) arguments quantities)
    {quantity : Quantity} (member : quantity ∈ quantities) {accessor : String}
    (isCounter : quantity.source = .counter accessor) :
    .atom (.counter accessor) ∈ arguments.flatMap leaves := by
  induction each with
  | nil => cases member
  | @cons e result rest others known _ ih =>
    rw [flatMap_cons]
    obtain rfl | later := mem_cons.1 member
    · refine mem_append_left _ ?_
      obtain ⟨value, -, rfl⟩ := map_eq_some_iff.1 known
      obtain ⟨leaf, isLeaf, isSource⟩ := exists_leaf_of_source isCounter
      cases leaf with
      | atom operand =>
        cases operand <;> cases isSource
        exact isLeaf
      | call => cases isSource
    · exact mem_append_right _ (ih later)

theorem evaluateArithmetic_arguments {arguments : List (Expression Term .sum)}
    {results : List Token}
    (each : Forall₂ (fun e result => e.quantity? site.quantity =
      some result) arguments quantities)
    (denote : DenoteAll before.scoreboard scores tokens
      ((arguments.flatMap Term.items).map (symbol site.quantity)))
    (run : evaluateArithmetic tokens before = .ok results after) :
    ∃ commands later, before.Lowers after commands ∧
      Reaches before.scoreboard.nextTemporary commands scores later ∧
      DenoteAll after.scoreboard later results (quantities.map .quantity) := by
  have symbols : (arguments.map Phrase.operand).flatMap (Phrase.symbols site.quantity) =
      (arguments.flatMap Term.items).map (symbol site.quantity) := by
    rw [flatMap_map, map_flatMap]
    exact flatMap_congr fun e _ => Term.symbols_eq site.quantity e
  rw [← symbols] at denote
  exact evaluateArithmetic_phrases (Phrase.takesArguments_operands arguments)
    (Phrase.result?_operands each) denote run

theorem name_notMem_parameters {callee : Callee} {operand : Operand} {quantity : Quantity}
    (ready : callee.IsReady site.calls)
    (apart : ∀ objective, site.kept objective → ¬callee.Writes objective)
    (extension : site.board.Extends board)
    (admits : ∀ accessor, quantity.source = .counter accessor →
      site.Admits (.atom (.counter accessor)))
    (denotes : operand.kind.Denotes board scores (.quantity quantity))
    (isRead : operand.objective? board = some objective) : objective ∉ callee.parameters := by
  cases operand with
  | literal value => cases isRead
  | counter accessor => ?_
  obtain ⟨counter, found, rfl⟩ := map_eq_some_iff.1 isRead
  cases denotes with
  | counter =>
    obtain ⟨held, holds, keeps⟩ := admits accessor rfl
    cases (holds.names.extend extension).found.symm.trans found
    exact fun listed => apart _ keeps (.inl listed)
  | computed names =>
    cases names.found.symm.trans found
    intro listed
    obtain ⟨parameter, member, isName⟩ := mem_map.1 listed
    refine (ready.parameters parameter member).2 ?_
    rw [isName]
    exact isReserved_temporaryObjective _

theorem Delivers.call {called argued delivered : Build} {arguments : List (Expression Term .sum)}
    {results others : List Token} {kind : TokenKind} {line : Nat}
    (supports : site.Supports (.call name arguments :: items.filterMap term?))
    (reached : site.Reached before scores)
    (inside : site.Delivers before called scores tokens (arguments.flatMap Term.items))
    (argues : evaluateArithmetic tokens called = .ok results argued)
    (areOperands : results.map Token.kind = operands.map Operand.kind)
    (delivers : evaluateCall name operands argued = .ok kind delivered)
    (rest : ∀ later, site.Reached delivered later → site.Delivers delivered after later others items) :
    site.Delivers before after scores (⟨kind, line⟩ :: others) (.term (.call name arguments) :: items) := by
  obtain ⟨values, value, known, returns, worth, argumentsSupported⟩ := supports.arguments
  have listed : .call name arguments ∈
      (.call name arguments :: items.filterMap term?).flatMap subterms := by
    rw [flatMap_cons, subterms]
    exact mem_cons_self
  obtain ⟨found, ready, apart⟩ := supports.admits _ listed
  obtain ⟨-, quantities, rfl, each⟩ := quantities_of_valueAll? known
  -- the calls in the arguments, then their arithmetic
  obtain ⟨calls, called, lowersCalls, replaysCalls, denote, agreesCalls⟩ := inside
  rw [filterMap_flatMap_items] at agreesCalls
  have reachedCalls := reached.step lowersCalls
    (reached.stays.trans reached.extension.next_le argumentsSupported.admits agreesCalls)
  obtain ⟨computing, computed, lowersArguments, reaches, denoteResults⟩ :=
    evaluateArithmetic_arguments each denote argues
  have reachedArguments := reachedCalls.step lowersArguments (AgreesBut.trans
    reachedCalls.stays ((reaches.agrees.agreesBut _).mono reachedCalls.extension.next_le fun _ => id))
  have denoteOperands : Forall₂ (fun operand quantity =>
      operand.kind.Denotes argued.scoreboard computed (.quantity quantity)) operands quantities := by
    have kinds := forall₂_map_left_iff.2 denoteResults
    rw [areOperands] at kinds
    exact forall₂_map_right_iff.1 (forall₂_map_left_iff.1 kinds)
  -- the call itself
  have length : operands.length = (site.callees name).parameters.length := by
    rw [denoteOperands.length_eq, ← (ite_none_right_eq_some.1 returns).1, length_map]
  have found : argued.routines.find? (·.hasName name) = some (site.callees name).routine := by
    rw [reachedArguments.routines, found]
  obtain ⟨numbers, same⟩ := (forall₂_and_left _ _).1
    (denoteOperands.imp fun _ _ denotes => Operand.of_denotes denotes)
  have worths : operands.map (·.valueIn argued.scoreboard computed) =
      quantities.map Quantity.value := by
    rw [← forall₂_eq_eq_eq, forall₂_map_left_iff, forall₂_map_right_iff]
    exact same
  have atoms : ∀ quantity ∈ quantities, ∀ accessor, quantity.source = .counter accessor →
      site.Admits (.atom (.counter accessor)) := by
    intro quantity member accessor isCounter
    refine argumentsSupported.admits _ (mem_flatMap.2
      ⟨_, exists_of_source each member isCounter, ?_⟩)
    rw [subterms]
    exact mem_singleton_self _
  have unread : ∀ operand ∈ operands, ∀ objective,
      operand.objective? argued.scoreboard = some objective →
      objective ∉ (site.callees name).parameters := by
    intro operand member objective isRead
    obtain ⟨index, bound, rfl⟩ := getElem_of_mem member
    have other := denoteOperands.length_eq ▸ bound
    exact name_notMem_parameters ready apart reachedArguments.extension
      (atoms _ (getElem_mem other)) (denoteOperands.get bound other) isRead
  obtain ⟨calling, lowersCall, lt, rfl, names, runs⟩ := evaluateCall_delivers
    reachedArguments.noFrames found ready numbers length unread delivers
  obtain ⟨returned, replaysCall, stored, agreesCall⟩ := runs computed value (worths ▸ returns)
  have reachedCall := reachedArguments.step lowersCall (AgreesBut.trans reachedArguments.stays
    (agreesCall.mono reachedArguments.extension.next_le fun objective writes keeps =>
      apart objective keeps writes))
  obtain ⟨remaining, final, lowersRest, replaysRest, denoteRest, agreesRest⟩ := rest returned reachedCall
  refine ⟨calls ++ computing ++ calling ++ remaining, final,
    ((lowersCalls.trans lowersArguments).trans lowersCall).trans lowersRest, ?_, .cons ?_ denoteRest, ?_⟩
  · rw [replayAll?_append, replayAll?_append, replayAll?_append, replaysCalls, bind_some,
      reaches.replayed, bind_some, replaysCall, bind_some, replaysRest]
  · -- no later routine writes the temporary that holds the result
    have denotes := @TokenKind.Denotes.computed _ returned _ _ names
    rw [stored, ← worth] at denotes
    refine denotes.keep lowersRest.board.grows fun accessor counter isCounter found => ?_
    cases isCounter
    cases names.found.symm.trans found.found
    refine agreesRest _ (fun index bound same => ?_) ?_
    · cases temporaryObjective_inj.1 same
      exact absurd lt (Nat.not_lt.2 bound)
    · rintro ⟨other, inner, member, writes⟩
      cases supports.orderly with
      | call _ _ later => exact later other inner member _ reachedArguments.extension.next_le writes
  · have before_le := lowersCalls.board.next_le
    have called_le := before_le.trans lowersArguments.board.next_le
    have isCall : ∀ objective, (site.callees name).Writes objective →
        site.Written (.call name arguments :: items.filterMap term?) objective :=
      fun objective writes => ⟨name, arguments, listed, writes⟩
    exact (((agreesCalls.mono le_rfl fun _ => Written.of_arguments).trans
      ((reaches.agrees.agreesBut _).mono before_le isCall)).trans
      (agreesCall.mono called_le isCall)).trans
      (agreesRest.mono (called_le.trans lt.le) fun _ => Written.mono (subset_cons_self _ _))

/-- The calls of an expression are run from left to right, those in arguments first. -/
theorem evaluateCalls_delivers {results : List Token}
    (supports : site.Supports (items.filterMap term?)) (reached : site.Reached before scores)
    (spelled : tokens.map Token.kind = items.flatMap (Item.kinds Atom.bound .routine))
    (run : evaluateCalls tokens before = .ok results after) :
    site.Delivers before after scores results items := by
  induction count : tokens.length using Nat.strong_induction_on
    generalizing tokens items before scores results after with
  | h count ih =>
  cases items with
  | nil =>
    cases map_eq_nil_iff.1 spelled
    rw [evaluateCalls] at run
    cases run
    exact ⟨[], scores, .refl _, rfl, .nil, .refl _ _ _⟩
  | cons item items =>
    rw [flatMap_cons] at spelled
    -- every part but a call is one token, and is passed over
    have passes (kind : TokenKind) (isKind : item.kinds Atom.bound .routine = [kind])
        (notRoutine : ∀ name, kind ≠ .routine name)
        (others : site.Supports (items.filterMap term?))
        (denotes : ∀ board later, site.board.Extends board → site.Stays later →
          kind.Denotes board later (item.symbol site.quantity)) :
        site.Delivers before after scores results (item :: items) := by
      rw [isKind] at spelled
      obtain ⟨token, rest, rfl, rfl, isRest⟩ := map_eq_cons_iff.1 spelled
      obtain ⟨later, ranRest, rfl⟩ := evaluateCalls_cons notRoutine run
      have delivers := ih rest.length (count ▸ Nat.lt_succ_self _) others reached isRest ranRest rfl
      exact delivers.cons reached others.admits denotes
    cases item with
    | arith op => exact passes _ rfl (by simp) supports fun _ _ _ _ => .arith op
    | openParen => exact passes _ rfl (by simp) supports fun _ _ _ _ => .openParen
    | closeParen => exact passes _ rfl (by simp) supports fun _ _ _ _ => .closeParen
    | term operand =>
      cases operand with
      | atom operand =>
        have admits : site.Admits (.atom operand) := by
          refine supports.admits _ (mem_append_left _ ?_)
          rw [Term.subterms]
          exact mem_singleton_self _
        have notRoutine : ∀ name, operand.bound ≠ .routine name := by
          cases operand <;> simp [Atom.bound]
        refine passes operand.bound ?_ notRoutine supports.tail fun board later extension stays =>
          denotes_atom admits extension stays
        rw [Item.kinds, Term.kinds]
      | call name arguments =>
        rw [Item.kinds, Term.kinds, cons_append, cons_append, append_assoc] at spelled
        obtain ⟨first, others, rfl, isRoutine, isOthers⟩ := map_eq_cons_iff.1 spelled
        obtain ⟨opening, others, rfl, isOpening, isOthers⟩ := map_eq_cons_iff.1 isOthers
        obtain ⟨inside, others, rfl, isInside, isOthers⟩ := map_eq_append_iff.1 isOthers
        obtain ⟨closing, rest, rfl, isClosing, isRest⟩ := map_eq_cons_iff.1 isOthers
        obtain ⟨called, calledBuild, arguments, argued, operands, kind, delivered, others, calls,
          argues, areOperands, delivers, ranRest, rfl⟩ := evaluateCalls_call isRoutine isOpening
            (splitClose?_eq_some_iff.2 ⟨_, rfl, isClosing, isInside ▸ Term.balancedAll arguments⟩) run
        obtain ⟨-, -, -, -, -, argumentsSupported⟩ := supports.arguments
        simp only [length_cons, length_append] at count
        rw [← Term.filterMap_flatMap_items] at argumentsSupported
        rw [Term.kindsAll_eq] at isInside
        exact .call supports reached
          (ih inside.length (by omega) argumentsSupported reached isInside calls rfl) argues areOperands
          delivers fun later reachedRest =>
            ih rest.length (by omega) supports.tail reachedRest isRest ranRest rfl

end CallSite

end ScriptPack
