import ScriptPack.Proofs.Assignment
import ScriptPack.Proofs.Emission

/-!
Assignments to counters of any kind, under any frames. What an assignment without calls writes is
decided by the counters and variables alone: the commands are the same whatever frames they stand
under. All but those of the last batch write scratch only, so the frames let all of them through or
none, and the statement under frames does what it does without them, or nothing.
-/

namespace ScriptPack

open Build CommandFile Counter CounterM List Scoreboard

variable {build : Build} {counter : Counter} {later : Scoreboard}

namespace BuildM

/-- For the executing entity, the commands are one batch that uses the frames up. -/
theorem emitAllSelected_performs {build : Build} (self : build.active = .self)
    {allowed : String → Prop} {commands : List Command} (writes : AllWrite allowed commands)
    {word : String} (plain : Session.IsPlain word) :
    ∃ lines files session frames, emitAllSelected commands word build =
        .ok () { build.grown lines files session build.scoreboard with frames } ∧
      Performs build.frames commands lines files ∧ build.session.Generates session files := by
  have aligns : build.align = build.pushSelector .self := by
    have unaligned : Selector.self.needsAlign = false := by decide
    rw [align, self, unaligned]
    rfl
  obtain ⟨lines, files, session, frames, emitted, performs, generates⟩ :=
    emitBatch_plain (build.pushSelector .self) writes plain
  refine ⟨lines, files, session, frames, ?_, performs, generates⟩
  unfold emitAllSelected aligned emitAll
  rw [bind_of_ok (modify_apply _ build), bind_of_ok (modify_apply _ _), modify_apply, aligns,
    emitted]
  simp [grown, pushSelector, popSelector, ← self]

end BuildM

def Statement.CallsNothing (statement : Statement) (build : Build) : Prop :=
  ∀ token ∈ statement.tokens, (∀ name, token.kind ≠ .routine name) ∧
    ∀ name, token.kind = .word name → build.findRoutine? name = none

/-- None of the tokens that the statement is bound to is a routine. -/
def Statement.BindsNoRoutine (statement : Statement) (build : Build) : Prop :=
  ∀ tokens, build.bindTokens (BuildM.resolves statement) statement.tokens = .ok tokens →
    ∀ token ∈ tokens, ∀ name, token.kind ≠ .routine name

/-- Binding looks at the counters, the variables and the routines only. -/
theorem Build.bindTokens_congr {other : Build} (counters : other.scoreboard = build.scoreboard)
    (environment : other.environment = build.environment)
    (routines : other.routines = build.routines) (resolves : Bool) (tokens : List Token) :
    other.bindTokens resolves tokens = build.bindTokens resolves tokens := by
  have same : other.bindToken resolves = build.bindToken resolves := by
    funext token
    unfold bindToken bindName findRoutine?
    rw [counters, environment, routines]
  rw [bindTokens, same, bindTokens]

theorem Build.bindToken_notRoutine {resolves : Bool} {token : Token}
    {tokens : List Token} (notRoutine : ∀ name, token.kind ≠ .routine name)
    (unknown : ∀ name, token.kind = .word name → build.findRoutine? name = none)
    (bound : build.bindToken resolves token = .ok tokens) :
    ∀ result ∈ tokens, ∀ name, result.kind ≠ .routine name := by
  obtain ⟨kind, line⟩ := token
  unfold bindToken at bound
  cases kind with
  | word name =>
    cases bound
    refine forall_mem_singleton.2 fun other => ?_
    have none := unknown name rfl
    unfold bindName
    simp only [none, Option.isSome_none, Bool.false_eq_true, if_false]
    split_ifs <;> simp
  | reference name =>
    dsimp only at bound
    split at bound
    · obtain ⟨values, -, returned⟩ := exists_ok_of_bind bound
      cases returned
      intro result member other
      obtain ⟨value, -, rfl⟩ := mem_map.1 member
      simp
    · cases bound
      exact forall_mem_singleton.2 notRoutine
  | literal value =>
    cases value with
    | text text =>
      cases bound
      exact forall_mem_singleton.2 (by simp)
    | _ =>
      cases bound
      exact forall_mem_singleton.2 notRoutine
  | _ =>
    cases bound
    exact forall_mem_singleton.2 notRoutine

theorem Build.bindsNoRoutine_of_callsNothing {statement : Statement}
    (callsNothing : statement.CallsNothing build) : statement.BindsNoRoutine build := by
  intro tokens bound
  generalize BuildM.resolves statement = resolves at bound
  unfold Statement.CallsNothing at callsNothing
  unfold bindTokens at bound
  generalize statement.tokens = written at callsNothing bound
  induction written generalizing tokens with
  | nil =>
    cases bound
    exact forall_mem_nil _
  | cons token rest ih =>
    obtain ⟨⟨notRoutine, unknown⟩, others⟩ := forall_mem_cons.1 callsNothing
    rw [mapM_cons] at bound
    cases first : build.bindToken resolves token with
    | error error =>
      rw [first] at bound
      cases bound
    | ok values =>
      rw [first] at bound
      cases second : rest.mapM (build.bindToken resolves) with
      | error error =>
        rw [second] at bound
        cases bound
      | ok lists =>
        rw [second] at bound
        cases bound
        rw [flatten_cons]
        refine forall_mem_append.2 ⟨bindToken_notRoutine notRoutine unknown first, ?_⟩
        exact ih _ others (by rw [second]; rfl)

theorem Assignment.commands_writes {assignment : Assignment} {board : Scoreboard}
    {commands : List Command} (run : assignment.commands board = .ok commands later) :
    board.Extends later ∧ AllWrite (fun _ => True) commands := by
  obtain ⟨target, found, ranGet, continued⟩ := bind_eq_ok_iff.1 run
  rw [(get_eq_ok_iff.1 ranGet).2] at continued
  obtain ⟨accessor, op, operand⟩ := assignment
  cases operand with
  | literal literal =>
    obtain ⟨extension, writes⟩ := assignLiteral_writes continued
    exact ⟨extension, writes.mono fun _ _ => trivial⟩
  | counter other =>
    obtain ⟨source, middle, ranSource, assigned⟩ := bind_eq_ok_iff.1 continued
    rw [(get_eq_ok_iff.1 ranSource).2] at assigned
    obtain ⟨extension, writes⟩ := assign_writes assigned
    exact ⟨extension, writes.mono fun _ _ => trivial⟩

/-- Two states in which names mean the same. -/
structure Build.Alike (build other : Build) : Prop where
  scoreboard : other.scoreboard = build.scoreboard
  environment : other.environment = build.environment
  routines : other.routines = build.routines

namespace BuildM

/-- What an assignment without calls writes in one state, it writes in all that are alike. -/
theorem runStatement_operation {run : Runner} {statement : Statement} {after : Build}
    (isOperation : statement.kind = .operation) (noRoutine : statement.BindsNoRoutine build)
    (ran : runStatement run statement build = .ok () after) :
    ∃ batches last board, (∀ batch ∈ batches, batch.IsScratch build.scoreboard.nextTemporary) ∧
      AllWrite (fun _ => True) last ∧ build.scoreboard.Extends board ∧
      ∀ other : Build, build.Alike other → runStatement run statement other =
        emitAllSelected last "operation"
          ((other.keepBatches batches).setBoard board) := by
  simp only [runStatement, isOperation] at ran ⊢
  obtain ⟨results, prepared, prepares, operates⟩ := bind_eq_ok_iff.1 ran
  have bound : ∃ tokens, build.bindTokens (resolves statement) statement.tokens = .ok tokens := by
    unfold prepare at prepares
    rw [bind_of_ok (get_apply build)] at prepares
    obtain ⟨tokens, bound, -⟩ := bind_ofExcept_eq_ok_iff.1 prepares
    exact ⟨tokens, bound⟩
  obtain ⟨tokens, bound⟩ := bound
  have noRoutine := noRoutine tokens bound
  have evaluates (other : Build) (alike : build.Alike other) :
      prepare statement other = evaluateArithmetic tokens other := by
    refine prepare_of_bound (by simp [isOperation]) ?_ noRoutine
    rw [bindTokens_congr alike.scoreboard alike.environment alike.routines, bound]
  rw [evaluates build ⟨rfl, rfl, rfl⟩] at prepares
  rcases combining_isUniform.ofEvaluateArithmetic tokens build.scoreboard le_rfl with
    ⟨values, middle, batches, -, extension, scratch, runs⟩ | fails
  · rw [runs build rfl] at prepares
    cases prepares
    obtain ⟨assignment, last, board, read, computed, -⟩ := runOperation_eq_ok operates
    obtain ⟨extensionLast, writes⟩ := Assignment.commands_writes computed
    refine ⟨batches, last, board, scratch, writes, extension.trans extensionLast, ?_⟩
    intro other alike
    rw [bind_of_ok ((evaluates other alike).trans (runs other alike.scoreboard))]
    unfold runOperation
    rw [read]
    change (counters assignment.commands >>= _) _ = _
    have computedOther : assignment.commands ((other.keepBatches batches).setBoard middle).scoreboard =
        .ok last board := computed
    rw [bind_of_ok (counters_of_ok computedOther)]
    rfl
  · obtain ⟨error, failed, fails⟩ := fails build rfl
    rw [fails] at prepares
    cases prepares

section

variable {run : Runner} {statement : Statement} {before after : Build}

/-- The statement under stable frames, and the same commands without them. -/
theorem runStatement_performs (isOperation : statement.kind = .operation)
    (noRoutine : statement.BindsNoRoutine before) (self : before.active = .self)
    (stable : Frame.AreStable before.scoreboard.nextTemporary before.frames)
    (ran : runStatement run statement before = .ok () after) :
    ∃ commands lines files session board frames,
      after = { before.grown lines files session board with frames } ∧
      Performs before.frames commands lines files ∧ before.session.Generates session files ∧
      before.scoreboard.Extends board ∧
      ∀ other : Build, before.Alike other → other.active = .self → other.frames = [] →
        runStatement run statement other =
          .ok () ((other.setBoard board).write (commands.map .plain)) := by
  obtain ⟨batches, last, board, scratch, writes, extension, same⟩ :=
    runStatement_operation isOperation noRoutine ran
  obtain ⟨lines, files, session, kept, performs, generates⟩ :=
    keepBatches_grown self stable scratch
  let middle := before.grown lines files session board
  obtain ⟨lastLines, lastFiles, later, frames, emitted, performsLast, generatesLast⟩ :=
    @emitAllSelected_performs middle self _ last writes "operation" (by decide)
  have scratchAll : AllWrite (IsScratch before.scoreboard.nextTemporary)
      (batches.flatMap Batch.commands) := by
    intro command member
    obtain ⟨batch, batchMember, commandMember⟩ := mem_flatMap.1 member
    exact (scratch batch batchMember).writes command commandMember
  refine ⟨batches.flatMap Batch.commands ++ last, lines ++ lastLines, files ++ lastFiles, later,
    board, frames, ?_, performs.append stable scratchAll performsLast,
    generates.trans generatesLast, extension, ?_⟩
  · have reached : (before.keepBatches batches).setBoard board = middle := by
      rw [kept]
      rfl
    rw [same before ⟨rfl, rfl, rfl⟩, reached, emitted, grown_grown] at ran
    cases ran
    rfl
  · intro other alike otherSelf noFrames
    have unframed : (other.keepBatches batches).setBoard board =
        (other.setBoard board).write ((batches.flatMap Batch.commands).map .plain) := by
      rw [keepBatches_noFrames otherSelf noFrames]
      rfl
    have emits := @emitAllSelected_self
      ((other.setBoard board).write ((batches.flatMap Batch.commands).map .plain)) otherSelf
      noFrames last "operation"
    rw [same other alike, unframed, emits]
    simp [write, append]

end

end BuildM

theorem Scoreboard.Extends.popScope {board : Scoreboard}
    (extension : board.pushScope.Extends later) :
    board.Extends later.popScope ∧ later.popScope.nextTemporary = board.nextTemporary := by
  have scopes : later.scopes = board.nextTemporary :: board.scopes := extension.scopes
  have popped : later.popScope =
      { later with nextTemporary := board.nextTemporary, scopes := board.scopes } := by
    rw [Scoreboard.popScope, scopes]
  rw [popped]
  exact ⟨⟨le_rfl, rfl, extension.records, extension.counters⟩, rfl⟩

/-- Where nothing is around it, the statement writes these commands and nothing else. -/
def Statement.WritesAlone (run : List Statement → BuildM Unit) (statement : Statement)
    (build : Build) (commands : List Command) : Prop :=
  ∃ after, BuildM.runScoped run statement build = .ok () after ∧
    after.file = build.file.append (commands.map .plain) ∧ after.pack = build.pack

/-- The state between statements under no condition. -/
structure Build.IsUnguarded (build : Build) : Prop where
  self : build.active = .self
  noFrames : build.frames = []
  noPops : build.pendingPops = []
  isReachable : build.unreachable = none

namespace BuildM

variable {run : Runner} {statement : Statement} {before after : Build}

theorem runScoped_of_ok {middle : Build}
    (ran : runStatement run statement (before.enter statement) = .ok () middle)
    (isReachable : middle.unreachable = none) :
    runScoped run statement before = .ok () (middle.leave none).settlePops := by
  have checked : checkReachable (middle.leave none) = .ok () (middle.leave none) := rfl
  have closed : always (runStatement run statement) (fun build =>
      { build with scoreboard := build.scoreboard.popScope }) (before.enter statement) =
      .ok () (middle.leave none) := by
    rw [always_eq_ok_iff]
    refine ⟨middle, ran, ?_⟩
    rw [leave, ← isReachable]
  unfold runScoped
  rw [bind_of_ok (modify_apply _ before)]
  change (always (runStatement run statement) _ >>= _) (before.enter statement) = _
  rw [bind_of_ok closed, bind_of_ok checked]
  rfl

theorem runScoped_operation {selector : Selector} {rest : List Selector}
    (isOperation : statement.kind = .operation)
    (noRoutine : statement.BindsNoRoutine (before.enter statement)) (self : before.active = .self)
    (stable : Frame.AreStable before.scoreboard.nextTemporary before.frames)
    (pops : before.pendingPops = [1]) (outer : before.outerSelectors = selector :: rest)
    (ran : runScoped run statement before = .ok () after) :
    ∃ commands lines files session board, after = { before.grown lines files session board with
        line := statement.line
        source := statement.source
        active := selector
        outerSelectors := rest
        frames := []
        pendingPops := []
        unreachable := none } ∧
      Performs before.frames commands lines files ∧ before.session.Generates session files ∧
      before.scoreboard.Extends board ∧
      board.nextTemporary = before.scoreboard.nextTemporary ∧
      ∀ alone : Build, before.Alike alone → alone.IsUnguarded →
        statement.WritesAlone run alone commands := by
  obtain ⟨middle, unreachable, ranInside, rfl⟩ := runScoped_eq_ok ran
  obtain ⟨commands, lines, files, session, board, frames, rfl, performs, generates, extension,
    same⟩ := @runStatement_performs run statement (before.enter statement) middle isOperation
      noRoutine self stable ranInside
  obtain ⟨extends_, next⟩ := extension.popScope
  refine ⟨commands, lines, files, session, board.popScope, ?_, performs, generates, extends_, next, ?_⟩
  · simp [settlePops, leave, grown, enter, pops, outer, countDown, Nat.repeat, popSelector]
  · intro alone alike unguarded
    have entered : (before.enter statement).Alike (alone.enter statement) :=
      ⟨congrArg pushScope alike.scoreboard, alike.environment, alike.routines⟩
    have ranAlone := same (alone.enter statement) entered unguarded.self unguarded.noFrames
    refine ⟨_, runScoped_of_ok ranAlone unguarded.isReachable, ?_, ?_⟩
    · rw [settlePops_file]
      rfl
    · rw [settlePops_pack]
      rfl

end BuildM

end ScriptPack
