import ScriptPack.Proofs.RoutineCalls

/-!
Routines whose body is `return e`, and assignments that call them. The body leaves its value in the
counter for the result, and the call site copies it from there; so a call delivers its own result
as long as no later call writes over the copy.
-/

namespace ScriptPack

open Atom Build BuildM CounterM Expression List Option Routine Scoreboard Term

variable {scores : Scores} {index : Nat} {kind : CounterKind} {counter : Counter}
  {board later : Scoreboard} {accessor : String} {commands : List Command} {before after : Build}

/-- Without calls, commands leave alone every score that none of them writes. -/
theorem replayAll?_unwritten {final : Scores} {objective : String}
    (replays : replayAll? (fun _ _ => none) commands scores = some final)
    (unwritten : objective ∉ commands.filterMap Command.objective?) :
    final objective = scores objective := by
  induction commands generalizing scores with
  | nil =>
    cases replays
    rfl
  | cons command commands ih =>
    rw [replayAll?_cons] at replays
    obtain ⟨middle, first, others⟩ := bind_eq_some_iff.1 replays
    cases isWritten : command.objective? with
    | some written =>
      rw [filterMap_cons_some isWritten, mem_cons, not_or] at unwritten
      have writes : command.Writes (· = written) := ⟨written, isWritten, rfl⟩
      rw [ih others unwritten.2, writes.agrees first objective unwritten.1]
    | none =>
      rw [filterMap_cons_none isWritten] at unwritten
      rw [ih others unwritten]
      cases command <;> cases isWritten <;> cases first
      rfl

theorem Routine.result_of_resultSlot? {routine known : Routine} {slot : Counter} {isNew : Bool}
    (isSlot : routine.resultSlot? index kind = some (slot, isNew, known)) :
    known.result = some slot := by
  unfold resultSlot? at isSlot
  split at isSlot
  · rename_i counter isResult
    obtain ⟨-, same⟩ := ite_none_right_eq_some.1 isSlot
    cases same
    exact isResult
  · cases isSlot
    rfl

namespace BuildM

variable {before after : Build}

theorem resultKind_eq_ok {operand : Operand}
    (run : resultKind operand before = .ok kind after) : after = before := by
  cases operand with
  | literal value => exact (orFail_eq_ok_iff.1 run).2
  | counter accessor =>
    obtain ⟨counter, board, found, returned⟩ := bind_counters_eq_ok_iff.1 run
    rw [(get_eq_ok_iff.1 found).2] at returned
    cases returned
    rfl

/-- The counter for the result is known to the routine, and is the only one that may be new. -/
theorem resultCounter_eq_ok {slot : Counter}
    (run : resultCounter index kind before = .ok slot after) :
    ∃ routine board, index < before.routines.length ∧ routine.result = some slot ∧
      board.nextTemporary = before.scoreboard.nextTemporary ∧
      (∀ key, key ≠ Text.upper slot.name →
        board.counters.get? key = before.scoreboard.counters.get? key) ∧
      after = { before with
        routines := before.routines.set index routine
        scoreboard := board } := by
  unfold resultCounter at run
  rw [bind_of_ok (get_apply before)] at run
  obtain ⟨routine, isRoutine, run⟩ := bind_orFail_eq_ok_iff.1 run
  obtain ⟨⟨counter, isNew, known⟩, isSlot, run⟩ := bind_orFail_eq_ok_iff.1 run
  have length : index < before.routines.length := (List.getElem?_eq_some_iff.1 isRoutine).1
  have isKnown := result_of_resultSlot? isSlot
  dsimp only at run
  rw [bind_of_ok (set_apply _ before)] at run
  split at run
  · obtain ⟨_, board, defines, run⟩ := bind_counters_eq_ok_iff.1 run
    rw [define_eq_ok defines] at run
    obtain ⟨declared, pendingHead, declares⟩ :=
      (before.scoreboard.addCounter counter).declare_eq counter
    refine ⟨known, (before.scoreboard.addCounter counter).declare counter, length, ?_⟩
    cases run
    refine ⟨isKnown, ?_, fun key other => ?_, rfl⟩
    · rw [declares]
      rfl
    · rw [declares]
      exact (Table.get?_insert _ _ _ _).trans (if_neg other)
  · cases run
    exact ⟨known, before.scoreboard, length, isKnown, rfl, fun _ _ => rfl, rfl⟩

end BuildM

theorem ArgumentM.runResult_eq_ok {tokens rest : List Token} (noFrames : before.frames = [])
    (run : runResult tokens before = .ok ((), rest) after) :
    ∃ index token operand routine slot board later commands,
      before.currentRoutine? = some index ∧ index < before.routines.length ∧
      tokens = token :: rest ∧ token.kind = operand.kind ∧ routine.result = some slot ∧
      board.nextTemporary = before.scoreboard.nextTemporary ∧
      (∀ key, key ≠ Text.upper slot.name →
        board.counters.get? key = before.scoreboard.counters.get? key) ∧
      Counter.assignOperand selfTarget slot operand board = .ok commands later ∧
      after = { before with
        routines := before.routines.set index routine
        scoreboard := later
        file := before.file.append (commands.map .plain) } := by
  obtain ⟨build, _, _, gets, afterGet⟩ := bind_eq_ok_iff.1 run
  cases gets
  obtain ⟨index, _, _, finds, afterIndex⟩ := bind_eq_ok_iff.1 afterGet
  obtain ⟨found, rfl⟩ := lift_eq_ok_iff.1 finds
  obtain ⟨isRoutine, rfl⟩ := orFail_eq_ok_iff.1 found
  obtain ⟨operand, _, _, takes, afterOperand⟩ := bind_eq_ok_iff.1 afterIndex
  obtain ⟨token, rfl, viewed, rfl⟩ := next_eq_ok takes
  obtain ⟨kind, _, _, kinds, afterKind⟩ := bind_eq_ok_iff.1 afterOperand
  obtain ⟨isKind, rfl⟩ := lift_eq_ok_iff.1 kinds
  cases resultKind_eq_ok isKind
  obtain ⟨slot, _, _, slots, afterSlot⟩ := bind_eq_ok_iff.1 afterKind
  obtain ⟨isSlot, rfl⟩ := lift_eq_ok_iff.1 slots
  obtain ⟨routine, board, length, isResult, next, same, rfl⟩ := resultCounter_eq_ok isSlot
  obtain ⟨commands, _, _, assigns, emits⟩ := bind_eq_ok_iff.1 afterSlot
  obtain ⟨computes, rfl⟩ := lift_eq_ok_iff.1 assigns
  obtain ⟨later, assigned, rfl⟩ := counters_eq_ok_iff.1 computes
  cases emits
  refine ⟨index, token, operand, routine, slot, board, later, commands, isRoutine, length, rfl,
    View.operand_eq_some_iff.1 viewed, isResult, next, same, assigned, ?_⟩
  exact emitBatch_of_noFrames (by exact noFrames) _ _ _

namespace Scoreboard

variable {board later : Scoreboard}

theorem Names.of_found (names : board.Names accessor counter)
    (next : later.nextTemporary = board.nextTemporary)
    (found : later.get? accessor = some counter) : later.Names accessor counter where
  found := found
  simple := names.simple
  key_old := next ▸ names.key_old
  base_old := next ▸ names.base_old
  name_old := next ▸ names.name_old

theorem get?_temporaryObjective
    (same : later.counters.get? (temporaryKey index) = board.counters.get? (temporaryKey index)) :
    later.get? (temporaryObjective index) = board.get? (temporaryObjective index) := by
  have key : Text.upper (temporaryObjective index) = temporaryKey index := rfl
  rw [get?, get?, key, same, cutAt?_temporaryObjective]
  rfl

theorem get?_popScope (accessor : String) : board.popScope.get? accessor = board.get? accessor := by
  unfold popScope
  split <;> rfl

end Scoreboard

theorem Counter.assignOperand_extends {left : Counter} {operand : Operand}
    (run : assignOperand selfTarget left operand board = .ok commands later) :
    board.Extends later := by
  cases operand with
  | literal literal =>
    change assignLiteral selfTarget left none literal board = _ at run
    exact (assignLiteral_writes run).1
  | counter accessor =>
    obtain ⟨source, middle, found, assigned⟩ := bind_eq_ok_iff.1 run
    rw [(get_eq_ok_iff.1 found).2] at assigned
    exact (assign_writes assigned).1

/-- A token stands for the same once the counter for a result has been added. -/
theorem TokenKind.Denotes.of_found {kind : TokenKind}
    {quantity : Quantity} (denotes : kind.Denotes board scores (.quantity quantity))
    (next : later.nextTemporary = board.nextTemporary)
    (temporaries : ∀ index, later.counters.get? (temporaryKey index) =
      board.counters.get? (temporaryKey index))
    (counters : ∀ accessor, quantity.source = .counter accessor →
      later.get? accessor = board.get? accessor) :
    kind.Denotes later scores (.quantity quantity) := by
  cases denotes with
  | literal value => exact .literal value
  | counter names => exact .counter (names.of_found next ((counters _ rfl).trans names.found))
  | computed names =>
    exact .computed (names.of_found next
      ((get?_temporaryObjective (temporaries _)).trans names.found))

namespace Callee

/-- The file of the routine holds what the statement `return e` has written as its first. Its
operands are parameters, before the statement and after it. -/
structure ReturnsBy (callee : Callee) (run : List Statement → BuildM Unit) (statement : Statement)
    (start finish : Build) : Prop where
  isResult : statement.kind = .directive .result
  spelled : statement.tokens.map Token.kind = callee.body.kinds written
  ran : runScoped run statement start = .ok () finish
  self : start.active = .self
  noFrames : start.frames = []
  first : start.file.lines = []
  board : start.scoreboard = callee.board
  lines : finish.file.lines = callee.commands.map .plain
  routine : finish.currentRoutine?.bind (finish.routines[·]?) = some callee.routine
  result : callee.routine.result = some callee.slot
  integer : callee.slot.kind.isInteger = true
  free : ¬IsReserved callee.slot.name
  parameters : ∀ parameter ∈ callee.routine.parameters, parameter.counter.kind.isInteger = true ∧
    ¬IsReserved parameter.counter.name
  leaves : ∀ accessor, Atom.counter accessor ∈ callee.body.leaves →
    ∃ counter, start.scoreboard.Holds accessor counter ∧
      finish.scoreboard.get? accessor = some counter ∧ counter.name ∈ callee.parameters

variable {callee : Callee}

theorem ReturnsBy.runs {run : Runner} {statement : Statement}
    {start finish : Build} (returns : callee.ReturnsBy run statement start finish) {value : Int32}
    (valued : callee.body.value (Atom.value callee.board scores) = some value) :
    ∃ final, (∀ calls, replayAll? calls callee.commands scores = some final) ∧
      final callee.slot.name = value := by
  obtain ⟨middle, unreachable, ran, finished⟩ := runScoped_eq_ok returns.ran
  obtain ⟨_, _, _, _, _, settled⟩ := (middle.leave unreachable).settlePops_eq
  rw [settled] at finished
  obtain ⟨tokens, prepared, rest, prepares, directed⟩ :=
    runStatement_of_noFeature returns.isResult rfl ran
  -- the value of the body is computed
  have spelled : statement.tokens.map Token.kind =
      [Phrase.operand callee.body].flatMap (Phrase.kinds written) := by
    rw [returns.spelled, flatMap_singleton]
    rfl
  have held : ∀ phrase ∈ [Phrase.operand callee.body],
      phrase.IsHeld (start.enter statement).scoreboard := by
    refine forall_mem_singleton.2 fun atom member => ?_
    cases atom with
    | number value => trivial
    | counter accessor =>
      obtain ⟨counter, holds, -⟩ := returns.leaves accessor member
      exact ⟨counter, holds.pushScope⟩
  have known : (Phrase.operand callee.body).result?
      (quantity (start.enter statement).scoreboard scores) =
      some (.quantity ⟨value, callee.body.source source⟩) := by
    refine Phrase.result?_of_value ?_
    rw [← valued, ← returns.board]
    exact congrArg callee.body.value (value_pushScope start.scoreboard scores)
  obtain ⟨evaluation, lowers, replay⟩ :=
    prepare_spelled (returns.isResult.trans_ne nofun) spelled held returns.self returns.noFrames
      prepares
  obtain ⟨computed, reaches, denote⟩ := replay scores _ (.cons known .nil)
  -- it is copied into the counter for the result, which the routine knows at the end
  obtain ⟨index, token, operand, routine, slot, board, later, commands, isRoutine, length, rfl,
    isOperand, isResult, next, same, assigns, rfl⟩ :=
    ArgumentM.runResult_eq_ok (lowers.frames.trans returns.noFrames) directed
  obtain ⟨denotes, -⟩ := forall₂_cons.1 denote
  rw [isOperand] at denotes
  have isSlot : slot = callee.slot := by
    have finds : finish.routines[index]? = some routine := by
      rw [finished]
      exact getElem?_set_self length
    have current : finish.currentRoutine? = some index := by
      rw [finished]
      exact isRoutine
    have isCallee := returns.routine
    rw [current, bind_some, finds] at isCallee
    cases isCallee
    exact some.inj (isResult.symm.trans returns.result)
  subst isSlot
  have denotesLater : operand.kind.Denotes board computed
      (.quantity ⟨value, callee.body.source source⟩) := by
    refine denotes.of_found next (fun index => same _ fun isSlot => ?_) fun accessor isCounter => ?_
    · exact returns.free (isReserved_of_upper_eq isSlot.symm)
    · obtain ⟨leaf, member, isLeaf⟩ := exists_leaf_of_source isCounter
      have isAtom : leaf = .counter accessor := by
        cases leaf <;> cases isLeaf
        rfl
      obtain ⟨counter, holds, found, -⟩ := returns.leaves accessor (isAtom ▸ member)
      have foundBefore := (holds.pushScope.names.extend lowers.board).found
      rw [finished] at found
      rw [foundBefore, ← found, ← (Counter.assignOperand_extends assigns).get?_eq holds.accessor_free]
      exact (get?_popScope accessor).symm
  obtain ⟨isNumber, worth⟩ := Operand.of_denotes denotesLater
  obtain ⟨command, copies, puts⟩ := Counter.assignOperand_copies returns.integer isNumber
  cases assigns.symm.trans copies
  have isCommands : callee.commands = evaluation ++ [command] := by
    have plain : (start.enter statement).framed = Line.plain :=
      framed_self returns.self returns.noFrames
    have lines := returns.lines
    rw [finished] at lines
    change (prepared.file.append ([command].map .plain)).lines = _ at lines
    rw [lowers.file, plain] at lines
    have injective : Function.Injective Line.plain := fun _ _ same => congrArg Line.command same
    refine (map_injective_iff.2 injective) (lines.symm.trans ?_)
    change start.file.lines ++ evaluation.map Line.plain ++ [command].map Line.plain = _
    rw [returns.first, nil_append, ← map_append]
  refine ⟨computed.put callee.slot.name value, fun calls => ?_, Scores.put_same _ _ _⟩
  rw [isCommands, replayAll?_append, reaches.replayed, bind_some, replayAll?_singleton]
  rw [puts, worth]

def IsCompiled (callee : Callee) (files : List CommandFile) : Prop :=
  ∃ run statement start finish file, callee.ReturnsBy run statement start finish ∧
    Pack.fileAt? files callee.routine.file = some file ∧ file.lines = finish.file.lines

theorem IsCompiled.isReady {files : List CommandFile} (compiled : callee.IsCompiled files)
    (depth : Nat) : callee.IsReady (Pack.calls files (depth + 1)) := by
  obtain ⟨run, statement, start, finish, file, returns, found, lines⟩ := compiled
  refine ⟨returns.result, CounterKind.isIntegerLike_of_isInteger returns.integer, returns.parameters,
    fun accessor member => ?_, fun scores value valued => ?_⟩
  · obtain ⟨counter, holds, -, listed⟩ := returns.leaves accessor member
    exact ⟨counter, returns.board ▸ holds, listed⟩
  · obtain ⟨final, replays, stored⟩ := returns.runs valued
    refine ⟨final, ?_, stored, fun objective unwritten => ?_⟩
    · dsimp only [Pack.calls]
      rw [found, bind_some, lines, returns.lines, replayLines?_plain, replays]
    · exact replayAll?_unwritten (replays fun _ _ => none) fun written => unwritten (.inr written)

end Callee

namespace Build

variable {build : Build}

def BindsTerm (build : Build) : Term → Prop
  | .atom operand => build.Binds operand.written operand.bound
  | .call name _ => build.Binds (.word name) (.routine name)

end Build

namespace Term

variable {build : Build}

mutual

theorem binds : (term : Term) → (∀ part ∈ term.subterms, build.BindsTerm part) →
    Forall₂ build.Binds (term.kinds Atom.written .word) (term.kinds Atom.bound .routine)
  | .atom operand, bound => by
    rw [kinds, kinds]
    rw [subterms] at bound
    exact .cons (bound _ mem_cons_self) .nil
  | .call name arguments, bound => by
    rw [kinds, kinds]
    rw [subterms, forall_mem_cons] at bound
    exact .cons bound.1 (.cons (fun _ _ => rfl)
      (rel_append (bindsAll arguments bound.2) (.cons (fun _ _ => rfl) .nil)))

theorem bindsAll : (arguments : List (Expression Term .sum)) →
    (∀ part ∈ subtermsAll arguments, build.BindsTerm part) →
    Forall₂ build.Binds (kindsAll Atom.written .word arguments)
      (kindsAll bound .routine arguments)
  | [], _ => by
    rw [kindsAll, kindsAll]
    exact .nil
  | e :: rest, bound => by
    rw [kindsAll, kindsAll]
    rw [subtermsAll, forall_mem_append] at bound
    exact rel_append (bindsOf e bound.1) (bindsAll rest bound.2)

theorem bindsOf : {level : Level} → (e : Expression Term level) →
    (∀ part ∈ subtermsOf e, build.BindsTerm part) →
    Forall₂ build.Binds (kindsOf Atom.written .word e) (kindsOf Atom.bound .routine e)
  | _, .leaf term, bound => by
    rw [kindsOf, kindsOf]
    rw [subtermsOf] at bound
    exact binds term bound
  | _, .group inner, bound => by
    rw [kindsOf, kindsOf]
    rw [subtermsOf] at bound
    exact .cons (fun _ _ => rfl)
      (rel_append (bindsOf inner bound) (.cons (fun _ _ => rfl) .nil))
  | _, .factor inner, bound | _, .product inner, bound => by
    rw [kindsOf, kindsOf]
    rw [subtermsOf] at bound
    exact bindsOf inner bound
  | _, .times left op _ right, bound | _, .plus left op _ right, bound => by
    rw [kindsOf, kindsOf]
    rw [subtermsOf, forall_mem_append] at bound
    exact rel_append (bindsOf left bound.1)
      (.cons (fun _ _ => rfl) (bindsOf right bound.2))

end

end Term

theorem CallSite.prepare_delivers {site : CallSite} {statement : Statement} {target : Counter}
    {e : Expression Term .sum} {value : Int32} {results : List Token}
    (noCall : statement.kind ≠ .call)
    (spelled : statement.tokens.map Token.kind = .word accessor :: .assign none :: written e)
    (names : before.scoreboard.Names accessor target)
    (bound : ∀ part ∈ subtermsOf e, before.BindsTerm part) (supports : site.Supports e.leaves)
    (reached : site.Reached before site.scores)
    (known : valueOf? site.results site.values e = some value)
    (run : prepare statement before = .ok results after) :
    ∃ commands later old source, before.Lowers after commands ∧
      replayAll? site.calls commands site.scores = some later ∧
      DenoteAll after.scoreboard later results [.quantity ⟨old, .counter accessor⟩,
        .mark (.assign none), .quantity ⟨value, source⟩] ∧
      Scores.AgreesBut before.scoreboard.nextTemporary (site.Written e.leaves) site.scores later := by
  have binds : Forall₂ before.Binds (statement.tokens.map Token.kind)
      (.counter accessor :: .assign none :: kindsOf Atom.bound .routine e) := by
    rw [spelled]
    exact .cons (binds_counter names) (.cons (fun _ _ => rfl) (bindsOf e bound))
  obtain ⟨tokens, isBound, kinds⟩ := bindTokens_of_binds binds
  rw [prepare_of_bindTokens isBound, kept_of_ne_call noCall] at run
  obtain ⟨called, middle, calls, computes⟩ := bind_eq_ok_iff.1 run
  -- the target and the operator are passed over
  obtain ⟨first, tokens, rfl, isTarget, kinds⟩ := map_eq_cons_iff.1 kinds
  obtain ⟨second, tokens, rfl, isAssign, kinds⟩ := map_eq_cons_iff.1 kinds
  obtain ⟨_, passed, rfl⟩ := evaluateCalls_cons (by rw [isTarget]; nofun) calls
  obtain ⟨others, ran, rfl⟩ := evaluateCalls_cons (by rw [isAssign]; nofun) passed
  rw [kindsOf_eq] at kinds
  rw [← filterMap_items] at supports
  obtain ⟨calling, scores, lowersCalls, replaysCalls, denote, agrees⟩ :=
    evaluateCalls_delivers supports reached kinds ran
  rw [filterMap_items] at agrees
  -- what the calls have left is computed with
  let phrases : List (Phrase Quantity) :=
    [.operand (.product (.factor (.leaf ⟨scores target.name, .counter accessor⟩))),
      .mark (.assign none), .operand (e.map site.quantity)]
  have symbols : phrases.flatMap (Phrase.symbols id) =
      .quantity ⟨scores target.name, .counter accessor⟩ :: .mark (.assign none) ::
        (items e).map (Item.symbol site.quantity) := by
    have mapped : (e.map site.quantity).symbols id = (items e).map (Item.symbol site.quantity) :=
      (symbols_map site.quantity id e).trans (symbols_eq site.quantity e)
    simp [phrases, Phrase.symbols, symbols, mapped]
  have noCalls : ∀ phrase ∈ phrases, phrase.takesArguments = false := by
    simp [phrases, Phrase.takesArguments, takesArguments]
  have worth : (Phrase.operand (e.map site.quantity)).result? id =
      some (.quantity ⟨value, e.source fun term => (site.quantity term).source⟩) := by
    rw [Phrase.result?, quantity?_map]
    exact congrArg (Option.map Symbol.quantity) (quantity?_of_valueOf? known)
  have denoteAll : DenoteAll middle.scoreboard scores (first :: second :: others)
      (phrases.flatMap (Phrase.symbols id)) := by
    rw [symbols]
    refine .cons ?_ (.cons ?_ denote)
    · rw [isTarget]
      exact .counter (names.extend lowersCalls.board)
    · rw [isAssign]
      exact .mark rfl
  obtain ⟨computing, later, lowers, reaches, denoteResults⟩ := evaluateArithmetic_phrases
    noCalls (.cons rfl (.cons rfl (.cons worth .nil))) denoteAll computes
  refine ⟨calling ++ computing, later, _, _, lowersCalls.trans lowers, ?_, denoteResults, ?_⟩
  · rw [replayAll?_append, replaysCalls, bind_some, reaches.replayed]
  · exact agrees.trans ((reaches.agrees.agreesBut _).mono lowersCalls.board.next_le fun _ => id)

/-- An assignment `target = e` whose expression calls routines that return an expression of their
parameters, run for the executing entity without frames. If no operand of it is written by a routine
that it calls, and after each call only routines are called that leave the temporaries of the
statement alone, replaying its commands leaves in the target the value of the expression. -/
theorem call_results_replay {run : List Statement → BuildM Unit} {statement : Statement}
    {before after : Build} {accessor : String} {target : Counter} {e : Expression Term .sum}
    {callees : String → Callee} {files : List CommandFile} {scores : Scores} {value : Int32}
    (isOperation : statement.kind = .operation)
    (spelled : statement.tokens.map Token.kind = .word accessor :: .assign none :: Term.written e)
    (self : before.active = .self) (noFrames : before.frames = [])
    (holds : before.scoreboard.Holds accessor target) (integer : target.kind.isInteger = true)
    (operands : ∀ other, .atom (.counter other) ∈ Term.subtermsOf e →
      ∃ counter, before.scoreboard.Holds other counter ∧ ∀ name arguments,
        .call name arguments ∈ Term.subtermsOf e → ¬(callees name).Writes counter.name)
    (routines : ∀ name arguments, .call name arguments ∈ Term.subtermsOf e →
      before.bindName name = .routine name ∧
      before.routines.find? (·.hasName name) = some (callees name).routine ∧
      (callees name).IsCompiled files)
    (orderly : Orderly (fun name => ∀ index, before.scoreboard.nextTemporary ≤ index →
      ¬(callees name).Writes (Scoreboard.temporaryObjective index)) e.leaves)
    (compiled : BuildM.runScoped run statement before = .ok () after)
    (valued : Term.valueOf? (fun name => (callees name).result?)
      (Atom.value before.scoreboard scores) e = some value) (depth : Nat) :
    ∃ commands final, after.file = before.file.append (commands.map .plain) ∧
      after.pack = before.pack ∧
      replayAll? (Pack.calls files (depth + 1)) commands scores = some final ∧
      final target.name = value ∧
      ∀ objective, objective ≠ target.name →
        (∀ index, objective ≠ Scoreboard.temporaryObjective index) →
        (∀ name arguments, .call name arguments ∈ Term.subtermsOf e →
          ¬(callees name).Writes objective) →
        final objective = scores objective := by
  obtain ⟨middle, unreachable, ran, rfl⟩ := runScoped_eq_ok compiled
  simp only [runStatement, isOperation] at ran
  obtain ⟨tokens, prepared, prepares, operates⟩ := bind_eq_ok_iff.1 ran
  have entered : (before.enter statement).scoreboard.Holds accessor target := holds.pushScope
  let site : CallSite :=
    { callees
      calls := Pack.calls files (depth + 1)
      routines := before.routines
      board := (before.enter statement).scoreboard
      scores
      kept := fun objective => ∀ name arguments, .call name arguments ∈ subtermsOf e →
        ¬(callees name).Writes objective }
  have reached : site.Reached (before.enter statement) site.scores :=
    ⟨noFrames, rfl, .refl _, .refl _ _ _⟩
  have known : valueOf? site.results site.values e = some value :=
    (congrArg (valueOf? site.results · e) (value_pushScope _ scores)).trans valued
  have admits : ∀ term ∈ subtermsOf e, site.Admits term := by
    rintro ((number | other) | ⟨name, arguments⟩) member
    · trivial
    · obtain ⟨counter, held, unwritten⟩ := operands other member
      exact ⟨counter, held.pushScope, unwritten⟩
    · obtain ⟨-, found, isCompiled⟩ := routines name arguments member
      exact ⟨found, isCompiled.isReady depth, fun objective keeps => keeps name arguments member⟩
  have supports : site.Supports e.leaves :=
    ⟨subtermsOf_eq e ▸ admits, orderly, (leaves_of_valueOf? known).1⟩
  have bound : ∀ part ∈ subtermsOf e, (before.enter statement).BindsTerm part := by
    rintro ((number | other) | ⟨name, arguments⟩) member
    · exact fun _ _ => rfl
    · obtain ⟨counter, held, -⟩ := operands other member
      exact binds_counter held.pushScope.names
    · obtain ⟨isRoutine, -⟩ := routines name arguments member
      exact fun resolves line => congrArg (fun kind => Except.ok [Token.mk kind line]) isRoutine
  obtain ⟨evaluation, later, old, source, lowers, replays, denote, agrees⟩ :=
    CallSite.prepare_delivers (by simp [isOperation]) spelled entered.names bound supports
      reached known prepares
  obtain ⟨commands, board, written, assigns⟩ := @runOperation_assigns tokens prepared middle
    accessor target none (lowers.active.trans self) (lowers.frames.trans noFrames)
    (entered.names.extend lowers.board) integer operates
  obtain ⟨final, assigned⟩ := assigns later old _ value denote rfl
  refine ⟨evaluation ++ commands, final, ?_, ?_, ?_, assigned.stored, ?_⟩
  · have plain : (before.enter statement).framed = Line.plain := framed_self self noFrames
    calc (middle.leave unreachable).settlePops.file = middle.file := settlePops_file _
      _ = prepared.file.append (commands.map .plain) := by rw [written]
      _ = before.file.append ((evaluation ++ commands).map .plain) := by
        rw [lowers.file, plain, CommandFile.append_append, ← map_append]
        rfl
  · calc (middle.leave unreachable).settlePops.pack = middle.pack := settlePops_pack _
      _ = prepared.pack := by rw [written]
      _ = before.pack := lowers.pack
  · rw [replayAll?_append, replays, bind_some, assigned.replayed]
  · intro objective different free unwritten
    rw [assigned.kept objective different fun index _ => free index]
    refine agrees objective (fun index _ => free index) ?_
    rintro ⟨name, arguments, member, writes⟩
    rw [← subtermsOf_eq] at member
    exact unwritten name arguments member writes

namespace Calling

def body : Expression Atom .sum :=
  .plus (.product (.factor (.leaf (.counter "x")))) .add (.refl false) (.factor (.leaf (.number 1)))

def inside : Build :=
  { Assignment.defining ["r", "a", "x"] with
    routines := [make "f" .self [⟨⟨"x", .int⟩, none⟩]]
    file := { name := "f", routine := some 0 } }

def returning : Statement where
  kind := .directive .result
  tokens := (body.kinds written).map fun kind => ⟨kind, 1⟩
  line := 1
  source := ""

def returned : EStateM.Result Error Build Unit :=
  runScoped (fun _ => pure ()) returning inside

def finish : Build :=
  match returned with
  | .ok _ after | .error _ after => after

theorem returned_eq_ok : returned = .ok () finish := by
  have success : succeeds returned = true := by decide +kernel
  obtain ⟨_, after, ran⟩ := exists_ok_of_succeeds success
  rw [finish, ran]

theorem finish_routines : finish.routines = [finish.routines.headD (make "f" .self [])] := by
  have length : finish.routines.length = 1 := by decide +kernel
  obtain ⟨routine, isRoutine⟩ := length_eq_one_iff.1 length
  rw [isRoutine]
  rfl

def callee : Callee where
  routine := finish.routines.headD (make "f" .self [])
  slot := ⟨"_mcc_rv0", .int⟩
  board := inside.scoreboard
  body
  commands := finish.file.lines.map (·.command)

theorem callee_returnsBy : callee.ReturnsBy (fun _ => pure ()) returning inside finish where
  isResult := rfl
  spelled := rfl
  ran := returned_eq_ok
  self := rfl
  noFrames := rfl
  first := rfl
  board := rfl
  lines := by decide +kernel
  routine := by
    have current : finish.currentRoutine? = some 0 := by decide +kernel
    rw [current, finish_routines]
    rfl
  result := by decide +kernel
  integer := rfl
  free := by decide +kernel
  parameters := by decide +kernel
  leaves := by
    intro accessor member
    simp only [callee, body, leaves, cons_append, nil_append, mem_cons,
      Atom.counter.injEq, reduceCtorEq, not_mem_nil, or_false] at member
    subst member
    exact ⟨⟨"x", .int⟩, ⟨by decide +kernel, rfl, by decide +kernel, by decide +kernel⟩,
      by decide +kernel, by decide +kernel⟩

def outside : Build :=
  { finish with file := { name := "main" }, pack := finish.pack.addFile finish.file }

def nested : Expression Term .sum :=
  .plus (.product (.factor (.leaf (.call "f" [.product (.factor (.leaf
    (.call "f" [.product (.factor (.leaf (.atom (.number 3))))])))])))) .add (.refl false)
    (.factor (.leaf (.atom (.counter "a"))))

def statement : Statement where
  kind := .operation
  tokens := (.word "r" :: .assign none :: written nested).map fun kind => ⟨kind, 1⟩
  line := 1
  source := ""

theorem nested_orderly (quiet : String → Prop) : Orderly quiet nested.leaves :=
  .call (.call (.atom .nil) .nil nofun) (.atom .nil) (by simp [leaves, subterms])

end Calling

open Calling

/-- For `r = f(f(3)) + a` the inner call delivers 4 and the outer one 5, whatever the first has left
in the parameter and the temporaries. -/
theorem call_results_replay_nested :
    ∃ after, BuildM.runScoped (fun _ => pure ()) Calling.statement Calling.outside = .ok () after ∧
      ∃ commands final, after.file.lines = commands.map .plain ∧
        replayAll? (Pack.calls Calling.outside.pack.files 1) commands (fun _ => 10) = some final ∧
        final "r" = 15 ∧ final "a" = 10 := by
  have success : succeeds (runScoped (fun _ => pure ()) statement
      outside) = true := by decide +kernel
  obtain ⟨_, after, ran⟩ := exists_ok_of_succeeds success
  have target : outside.scoreboard.Holds "r" ⟨"r", .int⟩ :=
    ⟨by decide +kernel, rfl, by decide +kernel, by decide +kernel⟩
  have unwritten : ¬callee.Writes "a" := by
    rw [Callee.Writes]
    decide +kernel
  have operands : ∀ other, .atom (.counter other) ∈ subtermsOf nested →
      ∃ counter, outside.scoreboard.Holds other counter ∧ ∀ name arguments,
        .call name arguments ∈ subtermsOf nested →
          ¬((fun _ => callee) name : Callee).Writes counter.name := by
    intro other member
    simp only [nested, subtermsOf, subterms, subtermsAll, append_nil,
      cons_append, nil_append, mem_cons, atom.injEq, counter.injEq,
      reduceCtorEq, not_mem_nil, or_false, false_or] at member
    subst member
    exact ⟨⟨"a", .int⟩, ⟨by decide +kernel, rfl, by decide +kernel, by decide +kernel⟩,
      fun _ _ _ => unwritten⟩
  have delivered : Pack.fileAt? outside.pack.files callee.routine.file = some finish.file := by
    have files : finish.pack.files = [] := by
      rw [← List.isEmpty_iff]
      decide +kernel
    have path : (finish.file.path == callee.routine.file) = true := by decide +kernel
    change ((finish.pack.files ++ [finish.file]).reverse).find? _ = _
    rw [files]
    exact find?_cons_of_pos path
  have compiled : callee.IsCompiled outside.pack.files :=
    ⟨_, _, _, _, finish.file, callee_returnsBy, delivered, rfl⟩
  have routines : ∀ name arguments, .call name arguments ∈ subtermsOf nested →
      outside.bindName name = .routine name ∧
      outside.routines.find? (·.hasName name) = some ((fun _ => callee) name : Callee).routine ∧
      ((fun _ => callee) name : Callee).IsCompiled outside.pack.files := by
    intro name arguments member
    have isName : name = "f" := by
      simp only [nested, subtermsOf, subterms, subtermsAll, append_nil,
        cons_append, nil_append, mem_cons, call.injEq, reduceCtorEq,
        not_mem_nil, or_false] at member
      exact member.elim And.left And.left
    subst isName
    have found : finish.routines.find? (·.hasName "f") = some callee.routine := by
      rw [finish_routines]
      have named : callee.routine.hasName "f" = true := by decide +kernel
      exact find?_cons_of_pos named
    have bound : outside.bindName "f" = .routine "f" := by
      rw [bindName, if_neg (by decide +kernel), if_neg (by decide +kernel),
        if_neg (by decide +kernel), if_pos (by decide +kernel)]
    exact ⟨bound, found, compiled⟩
  have valued : valueOf? (fun _ => callee.result?)
      (value outside.scoreboard fun _ => 10) nested = some 15 := by
    decide +kernel
  have self : outside.active = .self := by decide +kernel
  obtain ⟨commands, final, file, -, replayed, stored, kept⟩ := call_results_replay rfl rfl self
    (by decide +kernel) target rfl operands routines (nested_orderly _) ran valued 0
  refine ⟨after, ran, commands, final, by rw [file]; rfl, replayed, stored, ?_⟩
  exact kept "a" (by decide) (ne_temporaryObjective (by decide +kernel)) fun _ _ _ => unwritten

end ScriptPack
