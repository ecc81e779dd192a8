import ScriptPack.Proofs.Comparisons

/-!
The frames that conditions put around what follows them. A chain is tested as it stands; negated, a
single comparison is negated itself, and of several a flag in a temporary keeps whether all hold. The
body is the next statement, the inside of a block of one, or a file for the inside of a larger block.
-/

namespace ScriptPack

open Build CommandFile Comparison List Option Scoreboard Scores ScriptPack.Frame

/-- The lines change temporaries from `limit` on only, and the frames then test what `test` says of
the scores before. Temporaries from `next` on are not tested. -/
structure Tests (limit next : Nat) (lines : List Line) (frames : List Frame)
    (test : Scores → Bool) : Prop where
  stable : AreStable next frames
  replay : ∀ scores, ∃ middle, (∀ calls, replayLines? calls lines scores = some middle) ∧
    AgreesOff limit scores middle ∧ admitAll? middle frames = some (test scores)

theorem Prepares.tests {limit next : Nat} {commands : List Command} {frames : List Frame}
    {test : Scores → Bool} {precise : Scores → Prop}
    (prepares : Prepares limit next commands frames test precise) :
    Tests limit next (commands.map .plain) frames test where
  stable := prepares.stable
  replay := fun scores => by
    obtain ⟨middle, reached, admits⟩ := prepares.reaches scores
    refine ⟨middle, fun calls => ?_, reached.agrees.agreesOff, admits⟩
    rw [replayLines?_plain, reached.replayed]

theorem Tests.failure {limit next : Nat} {lines : List Line} {frames : List Frame}
    {test : Scores → Bool} (lt : limit < next) (tests : Tests (limit + 1) next lines frames test)
    (ignores : IgnoresScratch limit test) : let failed := temporaryObjective limit
    Tests limit next
      (.plain (.scoreSet selfTarget failed 1) :: lines ++ [⟨frames, .scoreSet selfTarget failed 0⟩])
      [BuildM.scoreFrame failed (.exactly 1)] fun scores => !test scores := by
  intro failed
  have old : ¬IsScratch (limit + 1) failed :=
    not_isScratch_temporaryObjective (Nat.lt_succ_self limit)
  have agreesPut (scores : Scores) (value : Int32) :
      AgreesOff limit scores (scores.put failed value) :=
    (agreesBelow_put le_rfl scores value).agreesOff
  refine ⟨areStable_scoreFrame ?_ _, fun scores => ?_⟩
  · exact not_isScratch_temporaryObjective lt
  · let started := scores.put failed 1
    obtain ⟨middle, replayed, agrees, admits⟩ := tests.replay started
    have same : test started = test scores :=
      ignores scores started (agreesPut scores 1)
    have stays : middle failed = 1 := (agrees failed old).trans (put_same scores failed 1)
    have reached : AgreesOff limit scores middle :=
      (agreesPut scores 1).trans (agrees.mono (Nat.le_succ limit))
    have first (calls : Calls) :
        replayLines? calls (.plain (.scoreSet selfTarget failed 1) :: lines) scores = some middle := by
      rw [replayLines?_cons, Line.replay?_plain, replay?_scoreSet, bind_some, replayed]
    cases result : test scores with
    | true =>
      refine ⟨middle.put failed 0, fun calls => ?_, reached.trans (agreesPut middle 0), ?_⟩
      · rw [replayLines?_append, first, bind_some, replayLines?_cons, Line.replay?, admits,
          same, result]
        simp only [replay?_scoreSet, bind_some, replayLines?_nil]
      · rw [admitAll?_scoreFrame, put_same]
        decide
    | false =>
      refine ⟨middle, fun calls => ?_, reached, ?_⟩
      · rw [replayLines?_append, first, bind_some, replayLines?_cons, Line.replay?, admits,
          same, result]
        simp only [bind_some, replayLines?_nil]
      · rw [admitAll?_scoreFrame, stays]
        decide

namespace Build

/-- The state when lines have been written and the body of a condition, which is next, stands under
frames. -/
def underGuard (build : Build) (lines : List Line) (frames : List Frame) (board : Scoreboard) :
    Build :=
  let prepared := ((build.setBoard board).write lines).pushSelector .self
  match build.nextBlockSize? with
  | none => { prepared with frames }.popAfterNext
  | some 1 => { prepared with frames }.enterBlock.popAfterNext
  | some _ =>
      let (file, named) := prepared.generatedFile "branch" []
      (named.emitLine ⟨frames, file.call⟩).setHooks {
        opening := [.pushFile file]
        closing := [.popFile, .popSelector] }

theorem underGuard_write (build : Build) (lines others : List Line) (frames : List Frame)
    (middle board : Scoreboard) :
    ((build.setBoard middle).write lines).underGuard others frames board =
      build.underGuard (lines ++ others) frames board := by
  have size : ((build.setBoard middle).write lines).nextBlockSize? = build.nextBlockSize? := rfl
  unfold underGuard
  rw [size]
  split <;> simp [write, setBoard, pushSelector, generatedFile, append]

/-- A statement or a block that is not empty is next. -/
structure HasBody (build : Build) : Prop where
  hasNext : build.hasNext = true
  notEmpty : build.nextBlockSize? ≠ some 0

/-- The state when lines have been written and the next statement stands under frames. -/
def guarding (build : Build) (lines : List Line) (frames : List Frame) (board : Scoreboard) :
    Build :=
  { build with
    scoreboard := board
    file := build.file.append lines
    active := .self
    outerSelectors := build.active :: build.outerSelectors
    frames
    pendingPops := 2 :: build.pendingPops }

/-- The state in front of the body of a condition, past the brace that opens a block of one. -/
def atBody (build : Build) : Build :=
  if build.nextBlockSize? = some 1 then
    { build with upcoming := build.upcoming.tail, openBlocks := [] :: build.openBlocks }
  else
    build

theorem atBody_of_inline {build : Build} (inline : build.nextBlockSize? = none) :
    build.atBody = build := by
  rw [atBody, inline, if_neg nofun]

theorem atBody_pendingPops (build : Build) : build.atBody.pendingPops = build.pendingPops := by
  unfold atBody
  split <;> rfl

theorem guarding_atBody (build : Build) (statement : Statement) (board later : Scoreboard)
    (lines others : List Line) (frames : List Frame) :
    (((build.enter statement).setBoard board).write lines).atBody.guarding others frames later =
      (build.atBody.enter statement).guarding (lines ++ others) frames later := by
  have size : (((build.enter statement).setBoard board).write lines).nextBlockSize? =
      build.nextBlockSize? := rfl
  unfold atBody
  rw [size]
  split <;> simp [guarding, enter, setBoard, write, append]

/-- The next statement, or the only one of the next block, is the body. -/
def HasOneNext (build : Build) : Prop :=
  build.nextBlockSize? = none ∨ build.nextBlockSize? = some 1

theorem exists_of_nextBlockSize? {build : Build} {size : Nat}
    (isBlock : build.nextBlockSize? = some size) :
    ∃ opening rest, build.upcoming = opening :: rest ∧ opening.size? = some size := by
  unfold nextBlockSize? at isBlock
  cases upcoming : build.upcoming with
  | nil =>
    rw [upcoming] at isBlock
    cases isBlock
  | cons opening rest =>
    rw [upcoming] at isBlock
    exact ⟨opening, rest, rfl, isBlock⟩

theorem enterBlock_of_cons {build : Build} {opening : Statement} {rest : List Statement} {size : Nat}
    (upcoming : build.upcoming = opening :: rest) (isBlock : opening.size? = some size) :
    build.enterBlock = { build with upcoming := rest, openBlocks := [] :: build.openBlocks } := by
  have opens : opening.isOpenBlock = true := by
    rw [Statement.isOpenBlock, isBlock]
    rfl
  simp [enterBlock, upcoming, opens]

theorem HasOneNext.underGuard_eq {build : Build} (one : build.HasOneNext) (lines : List Line)
    (frames : List Frame) (board : Scoreboard) :
    build.underGuard lines frames board = build.atBody.guarding lines frames board := by
  rcases one with inline | block
  · simp only [underGuard, atBody, inline]
    rfl
  · obtain ⟨opening, rest, upcoming, isBlock⟩ := exists_of_nextBlockSize? block
    simp only [underGuard, atBody, block, if_true]
    rw [@enterBlock_of_cons { ((build.setBoard board).write lines).pushSelector .self with frames }
      opening rest 1 upcoming isBlock, upcoming]
    rfl

theorem HasOneNext.hasBody {build : Build} (one : build.HasOneNext) (hasNext : build.hasNext = true) :
    build.HasBody := by
  refine ⟨hasNext, ?_⟩
  rcases one with size | size <;> simp [size]

/-- The state before the body of a condition, when the condition has been run. -/
def beforeBody (build : Build) (statement : Statement) (lines : List Line) (frames : List Frame)
    (board : Scoreboard) (unreachable : Option Nat) : Build :=
  { build with
    line := statement.line
    source := statement.source
    scoreboard := board
    file := build.file.append lines
    active := .self
    outerSelectors := build.active :: build.outerSelectors
    frames
    pendingPops := 1 :: build.pendingPops
    unreachable }

end Build

namespace BuildM

variable {entry : Scoreboard} {before : Build}

/-- The step prepares a test of the scores, and the body, which is next, stands under its frames. -/
def Guards (step : BuildM Unit) (before : Build) (test : Scores → Bool) : Prop :=
  ∃ lines frames later, step before = .ok () (before.underGuard lines frames later) ∧
    before.scoreboard.KeepsOn later ∧
    Tests before.scoreboard.nextTemporary later.nextTemporary lines frames test

theorem emitSetup_eq (noFrames : before.frames = []) (lines : List Line) (frames : List Frame) :
    emitSetup { setup := lines, setupFrames := [], frames } before =
      .ok () (before.write lines) := by
  unfold emitSetup
  rw [modify_apply]
  cases lines with
  | nil => simp [write, append]
  | cons line lines => simp [emitBatchKeeping_of_noFrames noFrames]

theorem guardNext_eq (body : before.HasBody) (noFrames : before.frames = [])
    (lines : List Line) (frames : List Frame) :
    guardNext { setup := lines, setupFrames := [], frames } before =
      .ok () (before.underGuard lines frames before.scoreboard) := by
  let prepared := (before.write lines).pushSelector .self
  have sizes : prepared.nextBlockSize? = before.nextBlockSize? := rfl
  have noFramesYet : prepared.frames = [] := noFrames
  unfold guardNext
  rw [bind_of_ok (get_apply before), body.hasNext]
  change (emitSetup _ >>= _) before = _
  rw [bind_of_ok (emitSetup_eq noFrames lines frames), bind_of_ok (modify_apply _ _),
    bind_of_ok (get_apply _)]
  have framed : { prepared with frames := prepared.frames ++ frames } = { prepared with frames } := by
    rw [noFramesYet, nil_append]
  simp only [prepared, write] at sizes
  cases sized : before.nextBlockSize? with
  | none =>
    rw [sized] at sizes
    simp only [underGuard, sized, write, sizes]
    exact congrArg (fun build : Build => EStateM.Result.ok () build.popAfterNext) framed
  | some size =>
    rw [sized] at sizes
    simp only [underGuard, sized, write, sizes]
    rcases size with _ | _ | size
    · rfl
    · exact congrArg (fun build : Build => EStateM.Result.ok () build.enterBlock.popAfterNext) framed
    · rfl

theorem runChain_eq {chain : List Comparison} (nonempty : chain ≠ []) (body : before.HasBody)
    (noFrames : before.frames = []) {lines : List Line} {frames : List Frame} {later : Scoreboard}
    (lowers : lowerChain chain before =
      .ok { setup := lines, setupFrames := [], frames } (before.setBoard later)) :
    runChain chain before = .ok () (before.underGuard lines frames later) := by
  have notEmpty : chain.isEmpty = false := by
    cases chain with
    | nil => contradiction
    | cons first rest => rfl
  unfold runChain
  rw [notEmpty]
  change (skipEmptyBody >>= _) before = _
  rw [bind_of_ok (skipEmptyBody_of_body body.notEmpty)]
  change (lowerChain chain >>= _) before = _
  rw [bind_of_ok lowers]
  exact @guardNext_eq (before.setBoard later) ⟨body.hasNext, body.notEmpty⟩ noFrames lines frames

section

variable (self : before.active = .self) (noFrames : before.frames = []) (body : before.HasBody)
  (grows : entry.Grows before.scoreboard) {chain : List Comparison}

include self noFrames body grows

theorem runChain_tests (settled : ∀ comparison ∈ chain, comparison.IsSettled entry)
    (nonempty : chain ≠ []) : Guards (runChain chain) before (passAll entry chain) := by
  obtain ⟨commands, frames, later, lowers, -, keepsLater, prepares⟩ :=
    lowerChain_prepares self grows settled
  exact ⟨_, frames, later, runChain_eq nonempty body noFrames lowers, keepsLater, prepares.tests⟩

theorem runNegatedChain_several {first second : Comparison} {rest : List Comparison}
    (settled : ∀ comparison ∈ first :: second :: rest, comparison.IsSettled entry) :
    Guards (runNegatedChain (first :: second :: rest)) before
      (failAny entry (first :: second :: rest)) := by
  let failed := temporaryObjective before.scoreboard.nextTemporary
  let started : Line := .plain (.scoreSet selfTarget failed 1)
  have growsFlag := before.scoreboard.grows_keepNew .bool
  have nextFlag := before.scoreboard.nextTemporary_keepNew .bool
  let flagged := (before.setBoard (before.scoreboard.keepNew .bool)).write [started]
  obtain ⟨commands, frames, later, lowers, growsLater, keepsLater, prepares⟩ :=
    @lowerChain_prepares entry flagged self (grows.trans growsFlag) _ settled
  let lines := commands.map Line.plain
  let cleared : Line := ⟨frames, .scoreSet selfTarget failed 0⟩
  let prepared := ((flagged.setBoard later).write lines).write [cleared]
  have bound : before.scoreboard.nextTemporary < later.nextTemporary := by
    have le : (before.scoreboard.keepNew .bool).nextTemporary ≤ later.nextTemporary :=
      growsLater.next_le
    omega
  have tests : Tests (before.scoreboard.nextTemporary + 1) later.nextTemporary lines frames
      (passAll entry (first :: second :: rest)) := nextFlag ▸ prepares.tests
  refine ⟨started :: lines ++ [cleared], [scoreFrame failed (.exactly 1)], later, ?_,
    fun outer keeps => keepsLater outer (keeps.keepNew .bool),
    tests.failure bound ((ignores_passAll settled).mono grows.next_le)⟩
  have unaligned : before.active.alignment = [] := by
    rw [self]
    decide
  have setsUp : emitSetup { setup := lines, setupFrames := [], frames } (flagged.setBoard later) =
      .ok () ((flagged.setBoard later).write lines) :=
    @emitSetup_eq (flagged.setBoard later) noFrames lines frames
  have tested : lowerChain [{ test := .flag ⟨failed, .bool⟩ }] prepared =
      .ok { setup := [], setupFrames := [], frames := [scoreFrame failed (.exactly 1)] }
        (prepared.setBoard later) := by
    unfold lowerChain
    rw [bind_of_ok (get_apply prepared)]
    change lowerOnto { setupFrames := before.active.alignment, frames := before.active.alignment }
      _ _ = _
    rw [unaligned]
    rfl
  have guarded := @runChain_eq prepared [{ test := .flag ⟨failed, .bool⟩ }] nofun
    ⟨body.hasNext, body.notEmpty⟩ noFrames _ _ later tested
  have asks : counters (CounterM.temporary .bool) before =
      .ok ⟨failed, .bool⟩ (before.setBoard (before.scoreboard.temporary .bool).2) :=
    counters_of_ok rfl
  have keepsIt : modifyScoreboard (·.keepTemporaries)
      (before.setBoard (before.scoreboard.temporary .bool).2) =
      .ok () (before.setBoard (before.scoreboard.keepNew .bool)) := rfl
  have keepsLine (build : Build) (line : Line) (unframed : build.frames = []) :
      (modify (·.emitKeeping line) : BuildM Unit) build = .ok () (build.write [line]) := by
    rw [modify_apply, emitKeeping, unframed]
    rfl
  simp only [runNegatedChain]
  rw [bind_of_ok (skipEmptyBody_of_body body.notEmpty)]
  change ((get : BuildM Build) >>= _) before = _
  rw [bind_of_ok (get_apply before), unaligned, bind_of_ok asks, bind_of_ok keepsIt,
    bind_of_ok (keepsLine (before.setBoard (before.scoreboard.keepNew .bool)) _ noFrames)]
  refine (bind_of_ok lowers).trans ((bind_of_ok setsUp).trans ?_)
  have clears := keepsLine ((flagged.setBoard later).write lines) cleared noFrames
  refine (bind_of_ok clears).trans (guarded.trans ?_)
  have written : prepared = (before.setBoard later).write (started :: lines ++ [cleared]) := by
    simp [prepared, flagged, write, setBoard, append]
  rw [written, underGuard_write, append_nil]

theorem runNegatedChain_tests (nonempty : chain ≠ [])
    (settled : ∀ comparison ∈ chain, comparison.IsSettled entry) :
    Guards (runNegatedChain chain) before (failAny entry chain) := by
  rcases chain with _ | ⟨first, _ | ⟨second, rest⟩⟩
  · contradiction
  · have negated : ∀ comparison ∈ [first.negate], comparison.IsSettled entry :=
      forall_mem_singleton.2 (settled first mem_cons_self)
    have same : passAll entry [first.negate] = failAny entry [first] := by
      funext scores
      simp only [passAll, failAny, all_cons, all_nil, Bool.and_true]
    exact same ▸ runChain_tests self noFrames body grows negated (cons_ne_nil _ _)
  · exact runNegatedChain_several self noFrames body grows settled

end

variable {run : Runner} {statement : Statement} {after : Build}

/-- What is due after a statement that guards waits until the body has been run. -/
theorem settlePops_guarded {build kept finished : Build} {board : Scoreboard} {lines : List Line}
    {guard : BuildM Unit} {test : Scores → Bool} {unreachable : Option Nat} (one : build.HasOneNext)
    (isKept : kept = ((build.enter statement).setBoard board).write lines)
    (keeps : build.scoreboard.Keeps board) (guards : Guards guard kept test)
    (ran : guard kept = .ok () finished) :
    ∃ others frames later, (finished.leave unreachable).settlePops =
        build.atBody.beforeBody statement (lines ++ others) frames later unreachable ∧
      build.scoreboard.Extends later ∧
      Tests board.nextTemporary later.nextTemporary others frames test := by
  subst isKept
  obtain ⟨others, frames, later, guarded, keepsOn, tests⟩ := guards
  have keptOne : (((build.enter statement).setBoard board).write lines).HasOneNext := one
  have keepsLater := keepsOn _ keeps
  refine ⟨others, frames, later.popScope, ?_, keepsLater.popped,
    keepsLater.nextTemporary_popScope ▸ tests⟩
  cases ran.symm.trans guarded
  have pops : build.atBody.pendingPops = build.pendingPops := atBody_pendingPops build
  rw [keptOne.underGuard_eq, guarding_atBody,
    @settlePops_of_waiting _ build.pendingPops (congrArg (2 :: ·) pops), leave, beforeBody, pops]
  rfl

/-- What follows the check that there is a body, and the reading of the chain. -/
theorem readChain_of_ok {tokens : List Token} {next : List Comparison → BuildM Unit} (ran : (do
      if !before.hasNext then fail .noBranchBody
      let chain ← ofExcept id (readChain before.scoreboard false tokens)
      next chain : BuildM Unit) before = .ok () after) :
    before.hasNext = true ∧ ∃ chain, readChain before.scoreboard false tokens = .ok chain ∧
      next chain before = .ok () after := by
  cases hasNext : before.hasNext with
  | false =>
    rw [hasNext] at ran
    cases ran
  | true =>
    rw [hasNext] at ran
    obtain ⟨chain, read, continued⟩ := bind_ofExcept_eq_ok_iff.1 ran
    exact ⟨rfl, chain, read, continued⟩

section

variable (self : before.active = .self) (noFrames : before.frames = []) (one : before.HasOneNext)
  (ran : runScoped run statement before = .ok () after)

include self noFrames one ran

/-- A condition reads its tokens with all temporaries kept, and then guards what follows. -/
theorem runScoped_condition (isCondition : statement.kind = .directive .condition) :
    ∃ tokens prepared chain, prepare statement (before.enter statement) = .ok tokens prepared ∧
      readChain prepared.scoreboard.keepTemporaries false tokens = .ok chain ∧
      ∀ evaluation, (before.enter statement).Lowers prepared evaluation → ∀ entry : Scoreboard,
        entry.Grows prepared.scoreboard.keepTemporaries → chain ≠ [] →
        (∀ comparison ∈ chain, comparison.IsSettled entry) →
        ∃ lines frames board unreachable,
          after = (before.rememberCondition tokens).atBody.beforeBody statement
            (evaluation.map .plain ++ lines) frames board unreachable ∧
          before.scoreboard.Extends board ∧
          Tests prepared.scoreboard.nextTemporary board.nextTemporary lines frames
            (passAll entry chain) := by
  obtain ⟨finished, unreachable, ranInside, rfl⟩ := runScoped_eq_ok ran
  obtain ⟨tokens, prepared, rest, prepares, directed⟩ :=
    runStatement_of_noFeature isCondition rfl ranInside
  have conditions := (ArgumentM.lift_eq_ok_iff.1 directed).1
  let kept := (prepared.rememberCondition tokens).setBoard prepared.scoreboard.keepTemporaries
  have keepsAll : modifyScoreboard (·.keepTemporaries) (prepared.rememberCondition tokens) =
      .ok () kept := rfl
  unfold runCondition at conditions
  rw [bind_of_ok (modify_apply _ _), bind_of_ok keepsAll, bind_of_ok (get_apply _)] at conditions
  obtain ⟨hasNext, chain, read, guards⟩ := @readChain_of_ok kept _ tokens runChain conditions
  refine ⟨tokens, prepared, chain, prepares, read, ?_⟩
  intro evaluation lowers entry grows nonempty settled
  have isKept : kept = (((before.rememberCondition tokens).enter statement).setBoard
      kept.scoreboard).write (evaluation.map .plain) := by
    change (prepared.rememberCondition tokens).setBoard kept.scoreboard = _
    generalize kept.scoreboard = board
    rw [lowers.state, lowered, @framed_self (before.enter statement) self noFrames]
    rfl
  have keptOne : kept.HasOneNext := by
    rw [isKept]
    exact one
  have tests := @runChain_tests entry kept (lowers.active.trans self) (lowers.frames.trans noFrames)
    (keptOne.hasBody hasNext) grows chain settled nonempty
  have keeps : before.scoreboard.Keeps kept.scoreboard :=
    (keeps_pushScope before.scoreboard).keepTemporaries lowers.board
  obtain ⟨lines, frames, board, finishes, extension, tested⟩ := @settlePops_guarded statement
    (before.rememberCondition tokens) kept finished kept.scoreboard _ _ _ unreachable one isKept keeps
    tests guards
  exact ⟨lines, frames, board, unreachable, finishes, extension,
    nextTemporary_keepTemporaries prepared.scoreboard ▸ tested⟩

/-- An `else` tests the condition that was remembered last, on the scores as they are now. -/
theorem runScoped_otherwise (isOtherwise : statement.kind = .directive .otherwise)
    (noTokens : statement.tokens = []) {tokens : List Token}
    (remembered : before.lastCondition? = some tokens) :
    ∃ chain, readChain before.scoreboard.pushScope false tokens = .ok chain ∧
      ∀ entry : Scoreboard, entry.Grows before.scoreboard.pushScope → chain ≠ [] →
        (∀ comparison ∈ chain, comparison.IsSettled entry) →
        ∃ lines frames board unreachable,
          after = before.atBody.beforeBody statement lines frames board unreachable ∧
          before.scoreboard.Extends board ∧
          Tests before.scoreboard.nextTemporary board.nextTemporary lines frames
            (failAny entry chain) := by
  obtain ⟨finished, unreachable, ranInside, rfl⟩ := runScoped_eq_ok ran
  obtain ⟨_, prepared, rest, prepares, directed⟩ :=
    runStatement_of_noFeature isOtherwise rfl ranInside
  let entered := before.enter statement
  have nothing : prepare statement entered = .ok [] entered := by
    have isBound : entered.bindTokens (resolves statement) statement.tokens = .ok [] := by
      rw [noTokens]
      rfl
    rw [prepare_of_bound (isOtherwise.trans_ne nofun) isBound (forall_mem_nil _)]
    simp [evaluateArithmetic, evaluateGroups, evaluateTiers, evaluateTier, replaceGroup]
  obtain ⟨-, rfl⟩ := EStateM.Result.ok.inj (prepares.symm.trans nothing)
  have otherwises := (ArgumentM.lift_eq_ok_iff.1 directed).1
  unfold runOtherwise at otherwises
  rw [bind_of_ok (get_apply _)] at otherwises
  obtain ⟨_, isLast, continued⟩ := bind_orFail_eq_ok_iff.1 otherwises
  cases isLast.symm.trans remembered
  obtain ⟨hasNext, chain, read, guards⟩ := @readChain_of_ok entered _ tokens runNegatedChain continued
  refine ⟨chain, read, fun entry grows nonempty settled => ?_⟩
  have enteredOne : entered.HasOneNext := one
  have tests := @runNegatedChain_tests entry entered self noFrames (enteredOne.hasBody hasNext) grows
    chain nonempty settled
  have isEntered : entered = (entered.setBoard entered.scoreboard).write [] := by
    simp [write, append, setBoard]
  obtain ⟨lines, frames, board, finishes⟩ := @settlePops_guarded statement before entered finished
    entered.scoreboard _ _ _ unreachable one isEntered (keeps_pushScope before.scoreboard) tests guards
  exact ⟨lines, frames, board, unreachable, finishes⟩

end

end BuildM

end ScriptPack
