import ScriptPack.Compile
import ScriptPack.Proofs.DirectiveEffects
import ScriptPack.Proofs.Levels

/-!
Watched runs. After every statement, at every depth, a run is watched by a check of the states around
the statement, and ends with an alarm where the check fails. Main result: a watched run passes any
other check that follows from what states have in common with the start and the end of the run, and
it does so on deeper stacks too. Properties of all statement boundaries are proved from it.
-/

namespace ScriptPack

open Build List Statement

variable {statement : Statement} {statements : List Statement} {before after start last : Build}
  {options : Options} {alarm : Error} {guard check : Statement → Build → Build → Prop}

theorem Statement.brace_cases (isBrace : statement.isBrace = true) :
    (∃ size, statement.kind = .openBlock size) ∨ statement.kind = .closeBlock := by
  cases kind : statement.kind with
  | openBlock size => exact .inl ⟨size, rfl⟩
  | closeBlock => exact .inr rfl
  | _ =>
      simp [Statement.isBrace, Statement.isOpenBlock, Statement.isCloseBlock, Statement.size?,
        kind] at isBrace

namespace BuildM

section Watch

variable (alarm : Error) (check : Statement → Build → Build → Prop)
  [∀ statement before after, Decidable (check statement before after)]

def watchScoped (run : List Statement → BuildM Unit) (statement : Statement) : BuildM Unit := do
  let before ← get
  runScoped run statement
  let after ← get
  if check statement before after then return else throw alarm

/-- Runs the upcoming statements as `runUpcoming` does, and checks each. -/
def watchUpcoming (run : List Statement → BuildM Unit) : Nat → BuildM Unit
  | 0 => return
  | steps + 1 => do
      match ← takeStatement? with
      | none => return
      | some statement =>
          watchScoped alarm check run statement
          watchUpcoming run steps

/-- Runs a list of statements as `runSection` does, and checks each at every depth. -/
def watchSection : Nat → List Statement → BuildM Unit
  | 0, _ => fail .tooDeep
  | depth + 1, statements => do
      let outer ← get
      set { outer with upcoming := statements, scoreboard := outer.scoreboard.pushScope }
      always (watchUpcoming alarm check (watchSection depth) statements.length)
        fun build =>
          { build with
            scoreboard := build.scoreboard.popScope
            upcoming := outer.upcoming
            line := outer.line
            source := outer.source }

/-- Runs a script with its options as `runScript` does, and checks each statement at every depth. -/
def watchScript (options : Options) (statements : List Statement) : BuildM Unit := do
  applyOptions options
  modify fun build => { build with upcoming := statements }
  watchUpcoming alarm check (watchSection alarm check greatestDepth) statements.length

end Watch

variable {alarm : Error} {check : Statement → Build → Build → Prop}
  [∀ statement, DecidableRel (check statement)]
  {run : Runner} {statement : Statement} {before after : Build} {steps : Nat}

theorem watchScoped_eq_ok_iff : watchScoped alarm check run statement before = .ok () after ↔
    runScoped run statement before = .ok () after ∧ check statement before after := by
  unfold watchScoped
  rw [bind_of_ok (get_apply before), bind_eq_ok_iff]
  constructor
  · rintro ⟨⟨⟩, middle, ran, continued⟩
    rw [bind_of_ok (get_apply middle)] at continued
    split at continued
    · next holds =>
      cases continued
      exact ⟨ran, holds⟩
    · cases continued
  · rintro ⟨ran, holds⟩
    refine ⟨(), after, ran, ?_⟩
    rw [bind_of_ok (get_apply after), if_pos holds]
    rfl

theorem watchUpcoming_nil_eq_ok_iff (ended : before.upcoming = []) :
    watchUpcoming alarm check run (steps + 1) before = .ok () after ↔ after = before := by
  rw [watchUpcoming, bind_of_ok (takeStatement?_nil ended)]
  constructor
  · intro ran
    cases ran
    rfl
  · rintro rfl
    rfl

theorem watchUpcoming_cons_eq_ok_iff {rest : List Statement}
    (upcoming : before.upcoming = statement :: rest) :
    watchUpcoming alarm check run (steps + 1) before = .ok () after ↔
      ∃ middle, runScoped run statement { before with upcoming := rest } = .ok () middle ∧
        check statement { before with upcoming := rest } middle ∧
        watchUpcoming alarm check run steps middle = .ok () after := by
  rw [watchUpcoming, bind_of_ok (takeStatement?_cons upcoming)]
  constructor
  · intro ran
    obtain ⟨⟨⟩, middle, watched, continued⟩ := bind_eq_ok_iff.1 ran
    obtain ⟨inside, holds⟩ := watchScoped_eq_ok_iff.1 watched
    exact ⟨middle, inside, holds, continued⟩
  · rintro ⟨middle, ran, holds, continued⟩
    exact bind_eq_ok_iff.2 ⟨(), middle, watchScoped_eq_ok_iff.2 ⟨ran, holds⟩, continued⟩

theorem watchSection_eq_ok_iff {depth : Nat} :
    watchSection alarm check (depth + 1) statements before = .ok () after ↔
      ∃ ended, watchUpcoming alarm check (watchSection alarm check depth) statements.length
          { before with upcoming := statements, scoreboard := before.scoreboard.pushScope } =
            .ok () ended ∧
        after = { ended with
          scoreboard := ended.scoreboard.popScope
          upcoming := before.upcoming
          line := before.line
          source := before.source } := by
  unfold watchSection
  rw [bind_of_ok (get_apply before), bind_of_ok (set_apply _ before)]
  exact always_eq_ok_iff

theorem watchScoped_true (alarm : Error) (run : Runner) :
    watchScoped alarm (fun _ _ _ => True) run = runScoped run := by
  funext statement before
  unfold watchScoped
  rw [bind_of_ok (get_apply before)]
  change EStateM.bind _ _ _ = _
  unfold EStateM.bind
  cases runScoped run statement before with
  | error error middle => rfl
  | ok value middle =>
    dsimp only
    rw [bind_of_ok (get_apply middle), if_pos trivial]
    rfl

theorem watchUpcoming_true (alarm : Error) (run : Runner) (steps : Nat) :
    watchUpcoming alarm (fun _ _ _ => True) run steps = runUpcoming run steps := by
  induction steps with
  | zero => rfl
  | succ steps ih =>
    refine bind_congr fun found => ?_
    cases found with
    | none => rfl
    | some statement =>
      change (watchScoped alarm (fun _ _ _ => True) run statement >>= fun _ =>
        watchUpcoming alarm (fun _ _ _ => True) run steps) =
          (runScoped run statement >>= fun _ => runUpcoming run steps)
      rw [watchScoped_true, ih]

theorem watchSection_true (alarm : Error) (depth : Nat) :
    watchSection alarm (fun _ _ _ => True) depth = runSection depth := by
  induction depth with
  | zero => rfl
  | succ depth ih =>
    funext statements
    simp only [watchSection, runSection, watchUpcoming_true, ih]

theorem watchScript_true (alarm : Error) (options : Options) (statements : List Statement) :
    watchScript alarm (fun _ _ _ => True) options statements = runScript options statements := by
  simp only [watchScript, runScript, runAll, watchUpcoming_true, watchSection_true]

/-! Around a statement. -/

theorem runScoped_eq_ok_iff : runScoped run statement before = .ok () after ↔
    ∃ middle reached, runStatement run statement (before.enter statement) = .ok () middle ∧
      checkReachable { middle with scoreboard := middle.scoreboard.popScope } = .ok () reached ∧
      after = reached.settlePops := by
  unfold runScoped
  rw [bind_of_ok (modify_apply _ before), bind_eq_ok_iff]
  constructor
  · rintro ⟨⟨⟩, left, leaves, continued⟩
    obtain ⟨middle, ran, rfl⟩ := always_eq_ok_iff.1 leaves
    obtain ⟨⟨⟩, reached, reaches, settled⟩ := bind_eq_ok_iff.1 continued
    cases settled
    exact ⟨middle, reached, ran, reaches, rfl⟩
  · rintro ⟨middle, reached, ran, reaches, rfl⟩
    refine ⟨(), _, always_eq_ok_iff.2 ⟨middle, ran, rfl⟩, ?_⟩
    rw [bind_of_ok reaches]
    rfl

theorem runStatement_open {size : Nat} (opens : statement.kind = .openBlock size) :
    runStatement run statement before = .ok () (before.openBlock size) := by
  unfold runStatement
  rw [opens]
  rfl

theorem runStatement_close_eq_ok_iff (closes : statement.kind = .closeBlock) :
    runStatement run statement before = .ok () after ↔ before.closeBlock? = some after := by
  unfold runStatement
  rw [closes]
  dsimp only
  rw [bind_of_ok (get_apply before), bind_orFail_eq_ok_iff]
  constructor
  · rintro ⟨closed, isClosed, set⟩
    cases set
    exact isClosed
  · exact fun isClosed => ⟨after, isClosed, rfl⟩

theorem checkReachable_aside (reaches : checkReachable before = .ok () after) :
    before.Aside after ∧ after.upcoming = before.upcoming := by
  obtain ⟨unreachable, rfl⟩ := checkReachable_eq_ok reaches
  exact ⟨.of_board rfl rfl, rfl⟩

theorem checkReachable_onto (reaches : checkReachable before = .ok () after) (ground : Ground) :
    checkReachable (before.onto ground) = .ok () (after.onto ground) := by
  unfold checkReachable at reaches ⊢
  rw [bind_of_ok (get_apply _)] at reaches ⊢
  have unreachable : (before.onto ground).unreachable = before.unreachable := rfl
  rw [unreachable]
  rcases waits : before.unreachable with _ | _ | left <;> rw [waits] at reaches
  · cases reaches
    rfl
  · cases reaches
  · cases reaches
    rfl

end BuildM

namespace Build

/-- One thing that happens in a run: inside a statement, at its end, or at a brace. -/
inductive Move (mayLeak : Prop) : Build → Build → Prop where
  | effect {before after : Build} (effect : Effect mayLeak before after) : Move mayLeak before after
  | aside {before after : Build} (aside : before.Aside after) : Move mayLeak before after
  | finish {ending : Ending} {before after : Build} (noHooks : before.pendingBlock = none)
      (finish : Finish ending before after) : Move mayLeak before after
  | settle {build : Build} (level : build.Level) : Move mayLeak build build.settlePops
  | opens {build : Build} (level : build.Level) (size : Nat) : Move mayLeak build (build.openBlock size)
  | closes {before after : Build} (level : before.Level)
      (closed : before.closeBlock? = some after) : Move mayLeak before after

def Moves (mayLeak : Prop) : Build → Build → Prop :=
  Relation.ReflTransGen (Move mayLeak)

variable {mayLeak : Prop} {ending : Ending} {before after build : Build}

/-- Hooks are set only where a block comes next, halts arm the count, and conditions on a single
statement schedule a pop. -/
theorem Finish.leaves (finish : Finish ending before after) :
    after.upcoming <:+ before.upcoming ∧
      (after.pendingBlock = before.pendingBlock ∨ after.nextIsBlock = true) ∧
      after.unreachable = (if ending = .halt then some 1 else before.unreachable) ∧
      (after.pendingPops = before.pendingPops ∨
        ending ≠ .halt ∧ after.pendingPops = 2 :: before.pendingPops) := by
  have same := suffix_refl before.upcoming
  cases finish with
  | done | halt => exact ⟨same, .inl rfl, rfl, .inl rfl⟩
  | guard => exact ⟨same, .inl rfl, rfl, .inr ⟨nofun, rfl⟩⟩
  | guardOne frames next =>
    obtain ⟨upcoming, opened, entered, suffix, -⟩ := (before.guarded frames).enterBlock_eq
    rw [entered]
    exact ⟨suffix, .inl rfl, rfl, .inr ⟨nofun, rfl⟩⟩
  | routine routine next =>
    obtain ⟨routines, added, -⟩ := before.addRoutine_eq routine
    rw [added]
    exact ⟨same, .inr next, rfl, .inl rfl⟩
  | select _ next | skip next | leaveOut next | branch _ next => exact ⟨same, .inr next, rfl, .inl rfl⟩

theorem settlePops_waits (build : Build) : build.settlePops.pendingBlock = build.pendingBlock ∧
    build.settlePops.upcoming = build.upcoming := by
  obtain ⟨_, _, _, _, _, settled⟩ := build.settlePops_eq
  rw [settled]
  exact ⟨rfl, rfl⟩

/-- Hooks that only wait where a block comes next do not wait at the end. -/
theorem pendingBlock_of_ended (rests : build.pendingBlock.isSome = true → build.nextIsBlock = true)
    (ended : build.upcoming = []) : build.pendingBlock = none := by
  cases waiting : build.pendingBlock with
  | none => rfl
  | some hooks =>
    rw [waiting, nextIsBlock, ended] at rests
    cases rests rfl

/-- Hooks that only wait for an opening brace do not wait at any other statement. -/
theorem pendingBlock_of_noBrace
    (rests : build.pendingBlock.isSome = true → statement.isOpenBlock = true)
    (noBrace : statement.isBrace = false) : build.pendingBlock = none := by
  refine Option.not_isSome_iff_eq_none.1 fun waits => ?_
  rw [isBrace, rests waits] at noBrace
  cases noBrace

theorem Moves.aside (aside : before.Aside after) : Moves mayLeak before after :=
  .single (.aside aside)

theorem aside_enter (build : Build) (statement : Statement) : build.Aside (build.enter statement) :=
  ⟨rfl, [], (append_nil _).symm⟩

theorem aside_popScope (build : Build) :
    build.Aside { build with scoreboard := build.scoreboard.popScope } :=
  ⟨rfl, build.scoreboard.headGrows_popScope⟩

/-- The statement is run, from the state `before` to the state `after`, on the way from `start` to
`last`. -/
structure Occurs (mayLeak : Prop) (start last : Build) (statement : Statement) (before after : Build) :
    Prop where
  reached : Moves mayLeak start before
  level : before.Level
  /-- Hooks wait for a block that opens only. -/
  rests : before.pendingBlock.isSome = true → statement.isOpenBlock = true
  ran : ∃ run, BuildM.runScoped run statement before = .ok () after
  moves : Moves mayLeak before after
  levelAfter : after.Level
  rest : Moves mayLeak after last

end Build

/-- A run that is watched by a guard, and what it shall be watched by beside: a check, on top of some
ground. Silent statements are where the guard lets frames be left behind. -/
structure Watching where
  alarm : Error
  guard : Statement → Build → Build → Prop
  [guards : ∀ statement before after, Decidable (guard statement before after)]
  other : Error
  check : Statement → Build → Build → Prop
  [checks : ∀ statement before after, Decidable (check statement before after)]
  ground : Ground
  mayLeak : Prop
  leaks : ∀ statement before after, guard statement before after →
    statement.isSilent (before.enter statement) = true → mayLeak

attribute [instance] Watching.guards Watching.checks

namespace Watching

open Build (Moves Move Occurs)
open BuildM

variable {watching : Watching} {depth : Nat} {before middle after : Build}

variable (watching) in
def mirror (depth : Nat) : Mirror where
  run := watchSection watching.alarm watching.guard depth
  follow := watchSection watching.other watching.check depth
  ground := watching.ground
  mayLeak := watching.mayLeak

variable (watching) in
/-- The check holds of every statement that is run between two states. -/
def Checks (before after : Build) : Prop :=
  ∀ statement first last, Occurs watching.mayLeak before after statement first last →
    watching.guard statement first last →
    watching.check statement (first.onto watching.ground) (last.onto watching.ground)

theorem Checks.left (checks : watching.Checks before after)
    (rest : Moves watching.mayLeak middle after) : watching.Checks before middle :=
  fun statement first last occurs =>
    checks statement first last { occurs with rest := occurs.rest.trans rest }

theorem Checks.right (checks : watching.Checks before after)
    (start : Moves watching.mayLeak before middle) : watching.Checks middle after :=
  fun statement first last occurs =>
    checks statement first last { occurs with reached := start.trans occurs.reached }

variable (watching) in
/-- A part of a run keeps the level, and is followed where the check holds. -/
structure Passes (before after : Build) (followed : Prop) : Prop where
  level : after.Level
  moves : Moves watching.mayLeak before after
  follows : watching.Checks before after → followed

variable (watching) in
def SectionsPass (depth : Nat) : Prop :=
  ∀ statements before after, (watching.mirror depth).run statements before = .ok () after →
    before.Level → before.pendingBlock = none →
    after.pendingBlock = none ∧ after.upcoming = before.upcoming ∧
      watching.Passes before after ((watching.mirror depth).follow statements
        (before.onto watching.ground) = .ok () (after.onto watching.ground))

theorem passes_settle {reached : Build}
    (reaches : checkReachable { middle with scoreboard := middle.scoreboard.popScope } =
      .ok () reached) (level : middle.Level) :
    reached.settlePops.Level ∧ Moves watching.mayLeak middle reached.settlePops ∧
      reached.settlePops.pendingBlock = middle.pendingBlock ∧
      reached.settlePops.upcoming = middle.upcoming ∧
      (reached.onto watching.ground).settlePops = reached.settlePops.onto watching.ground := by
  obtain ⟨reachAside, upcoming⟩ := checkReachable_aside reaches
  have popped := middle.aside_popScope
  have levelReached : reached.Level := (level.congr popped.sameStacks).congr reachAside.sameStacks
  obtain ⟨hooks, settledUpcoming⟩ := reached.settlePops_waits
  refine ⟨levelReached.settlePops, ?_, ?_, settledUpcoming.trans upcoming,
    levelReached.settlePops_onto _⟩
  · exact .head (.aside popped) (.head (.aside reachAside) (.single (.settle levelReached)))
  · exact hooks.trans reachAside.sameStacks.hooks

section

variable (sections : watching.SectionsPass depth)

include sections

theorem SectionsPass.trace
    (trace : (watching.mirror depth).Trace before after) (level : before.Level)
    (noHooks : before.pendingBlock = none) :
    after.Level ∧ after.pendingBlock = none ∧ after.upcoming <:+ before.upcoming ∧
      Moves watching.mayLeak before after := by
  induction trace with
  | refl => exact ⟨level, noHooks, suffix_refl _, .refl⟩
  | tail reached step ih =>
    obtain ⟨levelSo, noHooksSo, shorter, moves⟩ := ih
    obtain effect | ⟨statements, ran⟩ := step
    · obtain ⟨same, upcoming, -⟩ := effect.leaves
      exact ⟨levelSo.congr same, same.hooks.trans noHooksSo, upcoming.trans shorter,
        moves.tail (.effect effect)⟩
    · obtain ⟨noHooksLast, upcoming, passes⟩ := sections _ _ _ ran levelSo noHooksSo
      exact ⟨passes.level, noHooksLast, upcoming ▸ shorter, moves.trans passes.moves⟩

theorem SectionsPass.isFollowed (level : before.Level)
    (noHooks : before.pendingBlock = none) (checks : watching.Checks before after) :
    (watching.mirror depth).IsFollowed before after := by
  intro statements first last reached ran rest
  obtain ⟨levelFirst, noHooksFirst, -, moves⟩ := sections.trace reached level noHooks
  obtain ⟨noHooksLast, -, passes⟩ := sections _ _ _ ran levelFirst noHooksFirst
  obtain ⟨-, -, -, movesRest⟩ := sections.trace rest passes.level noHooksLast
  exact passes.follows ((checks.right moves).left movesRest)

/-- The inside of a statement: what it does is followed, and hooks wait only for a block that comes
next. -/
theorem SectionsPass.inside (level : before.Level)
    (rests : before.pendingBlock.isSome = true → statement.isOpenBlock = true)
    (silent : statement.isSilent before = true → watching.mayLeak)
    (ran : runStatement (watching.mirror depth).run statement before = .ok () after) :
    (after.pendingBlock.isSome = true → after.nextIsBlock = true) ∧
      after.upcoming <:+ before.upcoming ∧
      watching.Passes before after (runStatement (watching.mirror depth).follow statement
        (before.onto watching.ground) = .ok () (after.onto watching.ground)) := by
  cases isBrace : statement.isBrace with
  | false =>
    have noHooks := pendingBlock_of_noBrace rests isBrace
    have ends := @endsAt_runStatement (watching.mirror depth) before statement isBrace silent
    obtain ⟨middle, trace, finish, mirrored⟩ := ends () after ran
    obtain ⟨levelMiddle, noHooksMiddle, shorter, moves⟩ := sections.trace trace level noHooks
    obtain ⟨upcoming, rests, -⟩ := finish.leaves
    rw [noHooksMiddle] at rests
    refine ⟨fun waits => rests.resolve_left (Option.ne_none_iff_isSome.2 waits), upcoming.trans shorter,
      finish.level noHooksMiddle levelMiddle, moves.tail (.finish noHooksMiddle finish), ?_⟩
    intro checks
    have finished : Moves watching.mayLeak middle after := .single (.finish noHooksMiddle finish)
    exact mirrored (sections.isFollowed level noHooks (checks.left finished))
  | true =>
    obtain ⟨size, opens⟩ | closes := brace_cases isBrace
    · cases (runStatement_open opens).symm.trans ran
      obtain ⟨noHooks, shorter⟩ := before.openBlock_waits size
      refine ⟨fun waits => ?_, shorter, level.openBlock size, .single (.opens level size),
        fun _ => ?_⟩
      · rw [noHooks] at waits
        cases waits
      · rw [← level.openBlock_onto]
        exact runStatement_open opens
    · have closed := (runStatement_close_eq_ok_iff closes).1 ran
      obtain ⟨levelAfter, mirrored⟩ := level.closeBlock closed
      obtain ⟨_, _, _, _, _, _, rfl⟩ := closeBlock?_eq closed
      refine ⟨fun waits => ?_, suffix_refl _, levelAfter,
        .single (.closes level closed), fun _ => ?_⟩
      · have opens := rests waits
        simp [isOpenBlock, size?, closes] at opens
      · exact (runStatement_close_eq_ok_iff closes).2 (mirrored _)

theorem SectionsPass.scoped (level : before.Level)
    (rests : before.pendingBlock.isSome = true → statement.isOpenBlock = true)
    (ran : runScoped (watching.mirror depth).run statement before = .ok () after)
    (guarded : watching.guard statement before after) :
    (after.pendingBlock.isSome = true → after.nextIsBlock = true) ∧
      after.upcoming <:+ before.upcoming ∧
      watching.Passes before after (runScoped (watching.mirror depth).follow statement
        (before.onto watching.ground) = .ok () (after.onto watching.ground)) := by
  obtain ⟨middle, reached, inside, reaches, rfl⟩ := runScoped_eq_ok_iff.1 ran
  have entered := before.aside_enter statement
  have enteredMoves : Moves watching.mayLeak before (before.enter statement) := .aside entered
  obtain ⟨restsMiddle, shorter, levelMiddle, moves, follows⟩ :=
    sections.inside (level.congr entered.sameStacks) (by rwa [entered.sameStacks.hooks])
      (watching.leaks statement before _ guarded) inside
  obtain ⟨levelAfter, settles, hooks, upcoming, mirrored⟩ := passes_settle reaches levelMiddle
  refine ⟨?_, upcoming ▸ shorter, levelAfter, (enteredMoves.trans moves).trans settles, ?_⟩
  · unfold nextIsBlock
    rw [hooks, upcoming]
    exact restsMiddle
  · intro checks
    have insideChecks := (checks.right enteredMoves).left settles
    refine runScoped_eq_ok_iff.2 ⟨_, _, follows insideChecks, checkReachable_onto reaches _, ?_⟩
    exact mirrored.symm

theorem SectionsPass.upcoming {steps : Nat} (level : before.Level)
    (rests : before.pendingBlock.isSome = true → before.nextIsBlock = true)
    (enough : before.upcoming.length ≤ steps)
    (ran : watchUpcoming watching.alarm watching.guard (watching.mirror depth).run steps before =
      .ok () after) :
    after.pendingBlock = none ∧ watching.Passes before after
      (watchUpcoming watching.other watching.check (watching.mirror depth).follow steps
        (before.onto watching.ground) = .ok () (after.onto watching.ground)) := by
  induction steps generalizing before with
  | zero =>
    cases ran
    have ended := length_eq_zero_iff.1 (Nat.le_zero.1 enough)
    exact ⟨pendingBlock_of_ended rests ended, level, .refl, fun _ => rfl⟩
  | succ steps ih =>
    cases waiting : before.upcoming with
    | nil =>
      have waitingOnto : (before.onto watching.ground).upcoming = [] := waiting
      obtain rfl := (watchUpcoming_nil_eq_ok_iff waiting).1 ran
      exact ⟨pendingBlock_of_ended rests waiting, level, .refl,
        fun _ => (watchUpcoming_nil_eq_ok_iff waitingOnto).2 rfl⟩
    | cons statement rest =>
      have waitingOnto : (before.onto watching.ground).upcoming = statement :: rest := waiting
      obtain ⟨middle, ranScoped, guarded, continued⟩ := (watchUpcoming_cons_eq_ok_iff waiting).1 ran
      have takes : before.Aside { before with upcoming := rest } := .of_board rfl rfl
      have takesMoves : Moves watching.mayLeak before { before with upcoming := rest } :=
        .aside takes
      have levelTaken := level.congr takes.sameStacks
      have restsTaken : before.pendingBlock.isSome = true → statement.isOpenBlock = true := by
        intro waits
        have next := rests waits
        rwa [nextIsBlock, waiting] at next
      obtain ⟨restsMiddle, shorter, passes⟩ :=
        sections.scoped levelTaken restsTaken ranScoped guarded
      -- a statement may take others with it, so that the steps still suffice
      have enoughMiddle : middle.upcoming.length ≤ steps := by
        have bound := shorter.length_le
        rw [waiting, length_cons] at enough
        dsimp only at bound
        omega
      obtain ⟨noHooksAfter, passesRest⟩ := ih passes.level restsMiddle enoughMiddle continued
      refine ⟨noHooksAfter, passesRest.level,
        (takesMoves.trans passes.moves).trans passesRest.moves, fun checks => ?_⟩
      have checksAfter := checks.right takesMoves
      have holds := checksAfter statement _ middle
        ⟨.refl, levelTaken, restsTaken, ⟨_, ranScoped⟩, passes.moves, passes.level, passesRest.moves⟩
        guarded
      have follows := passes.follows (checksAfter.left passesRest.moves)
      exact (watchUpcoming_cons_eq_ok_iff waitingOnto).2
        ⟨_, follows, holds, passesRest.follows (checksAfter.right passes.moves)⟩

end

theorem sectionsPass (watching : Watching) (depth : Nat) : watching.SectionsPass depth := by
  -- lists that a statement runs are one level deeper, where they are known to pass
  induction depth with
  | zero =>
    intro statements before after ran
    cases ran
  | succ depth sections =>
    intro statements before after ran level noHooks
    obtain ⟨ended, watched, rfl⟩ := watchSection_eq_ok_iff.1 ran
    have starts : before.Aside { before with
        upcoming := statements, scoreboard := before.scoreboard.pushScope } :=
      ⟨rfl, [], (append_nil _).symm⟩
    have startsMoves := @Moves.aside watching.mayLeak _ _ starts
    have restores : ended.Aside { ended with
        scoreboard := ended.scoreboard.popScope, upcoming := before.upcoming, line := before.line,
        source := before.source } :=
      ⟨rfl, ended.scoreboard.headGrows_popScope⟩
    have restoresMoves := @Moves.aside watching.mayLeak _ _ restores
    obtain ⟨noHooksEnded, passes⟩ := sections.upcoming (level.congr starts.sameStacks)
      (fun waits => by rw [noHooks] at waits; cases waits) le_rfl watched
    refine ⟨noHooksEnded, rfl, passes.level.congr restores.sameStacks,
      (startsMoves.trans passes.moves).trans restoresMoves, fun checks => ?_⟩
    have follows := passes.follows ((checks.right startsMoves).left restoresMoves)
    exact watchSection_eq_ok_iff.2 ⟨_, follows, rfl⟩

end Watching

open BuildM in
/-- A watched script passes the check, where it holds of every statement, on top of the ground. -/
theorem Watching.script (watching : Watching)
    (level : start.Level) (noHooks : start.pendingBlock = none)
    (ran : watchScript watching.alarm watching.guard options statements start = .ok () last) :
    last.pendingBlock = none ∧ watching.Passes start last
      (watchScript watching.other watching.check options statements
        (start.onto watching.ground) = .ok () (last.onto watching.ground)) := by
  obtain ⟨⟨⟩, _, applies, continued⟩ := bind_eq_ok_iff.1 ran
  rw [bind_of_ok (modify_apply _ _)] at continued
  have follows : Mirrors (watching.mirror 0) (applyOptions options) := following.ofApplyOptions options
  obtain ⟨given, trace, rfl, mirrored⟩ := follows start () _ applies
  have sections := watching.sectionsPass 0
  obtain ⟨levelGiven, noHooksGiven, -, moves⟩ := sections.trace trace level noHooks
  have starts : given.Aside { given with upcoming := statements } := .of_board rfl rfl
  have startsMoves := @Moves.aside watching.mayLeak _ _ starts
  obtain ⟨noHooksLast, passes⟩ := (watching.sectionsPass greatestDepth).upcoming
    (levelGiven.congr starts.sameStacks)
    (fun waits => by rw [noHooksGiven] at waits; cases waits) le_rfl continued
  refine ⟨noHooksLast, passes.level, (moves.trans startsMoves).trans passes.moves, fun checks => ?_⟩
  have checksGiven := (checks.left passes.moves).left startsMoves
  have applied := mirrored (sections.isFollowed level noHooks checksGiven)
  unfold watchScript
  refine bind_eq_ok_iff.2 ⟨(), _, applied, ?_⟩
  rw [bind_of_ok (modify_apply _ _)]
  exact passes.follows (checks.right (moves.trans startsMoves))

/-- A script that runs under a guard runs under any check that follows from it, from the moves of the
run, and from what one statement does. -/
theorem BuildM.watchScript_of_guarded
    [∀ statement, DecidableRel (guard statement)]
    [∀ statement, DecidableRel (check statement)] {mayLeak : Prop}
    {options : Options} {statements : List Statement} {start last : Build}
    (leaks : ∀ statement before after, guard statement before after →
      statement.isSilent (before.enter statement) = true → mayLeak)
    (level : start.Level) (noHooks : start.pendingBlock = none)
    (ran : watchScript alarm guard options statements start = .ok () last)
    (checks : ∀ statement before after, Occurs mayLeak start last statement before after →
      guard statement before after → check statement before after)
    (other : Error) : watchScript other check options statements start = .ok () last := by
  let watching : Watching := { alarm, guard, other, check, ground := .none, mayLeak, leaks }
  have passes := (watching.script level noHooks ran).2
  rw [← onto_none last, ← onto_none start]
  apply passes.follows
  intro statement before after occurs guarded
  change check statement (before.onto .none) (after.onto .none)
  rw [onto_none, onto_none]
  exact checks statement before after occurs guarded

/-- A script that runs is a sequence of moves, after which no hooks wait, and does the same on top of
any ground. -/
theorem BuildM.moves_of_runScript (level : start.Level) (noHooks : start.pendingBlock = none)
    (ran : runScript options statements start = .ok () last) :
    last.pendingBlock = none ∧ Moves True start last ∧
      ∀ ground, runScript options statements (start.onto ground) = .ok () (last.onto ground) := by
  let alarm := Error.io ""
  let watching (ground : Ground) : Watching :=
    { alarm, guard := fun _ _ _ => True, other := alarm, check := fun _ _ _ => True
      ground, mayLeak := True, leaks := fun _ _ _ _ _ => trivial }
  have watched : watchScript alarm (fun _ _ _ => True) options statements start = .ok () last := by
    rwa [watchScript_true]
  have passes (ground : Ground) := (watching ground).script level noHooks watched
  refine ⟨(passes .none).1, (passes .none).2.moves, fun ground => ?_⟩
  have follows := (passes ground).2.follows fun _ _ _ _ _ => trivial
  rwa [watchScript_true] at follows

theorem BuildM.runScript_of_watchScript
    [∀ statement, DecidableRel (guard statement)] (level : start.Level)
    (noHooks : start.pendingBlock = none)
    (ran : watchScript alarm guard options statements start = .ok () last) :
    runScript options statements start = .ok () last := by
  have watched := @watchScript_of_guarded _ _ (fun _ _ _ => True) _ _ True _ _ _ _
    (fun _ _ _ _ _ => trivial) level noHooks ran (fun _ _ _ _ _ => trivial) alarm
  rwa [watchScript_true] at watched

/-- A script that runs passes any check that follows from the moves of the run and from what one
statement does. -/
theorem BuildM.watchScript_of_runScript
    [∀ statement, DecidableRel (check statement)] (level : start.Level)
    (noHooks : start.pendingBlock = none) (ran : runScript options statements start = .ok () last)
    (checks : ∀ statement before after, Occurs True start last statement before after →
      check statement before after)
    (alarm : Error) : watchScript alarm check options statements start = .ok () last := by
  have watched : watchScript alarm (fun _ _ _ => True) options statements start = .ok () last := by
    rwa [watchScript_true]
  exact watchScript_of_guarded (fun _ _ _ _ _ => trivial) level noHooks watched
    (fun statement before after occurs _ => checks statement before after occurs) alarm

/-! Statements that run no others. -/

namespace BuildM

variable {run other : Runner} {statement : Statement} {before after : Build}

theorem runStatement_congr (runsNone : statement.runsLists = false) (run other : Runner) :
    runStatement run statement = runStatement other statement := by
  unfold runStatement
  unfold runsLists at runsNone
  cases kind : statement.kind with
  | directive directive =>
    rw [kind] at runsNone
    simp only [runDirective, ArgumentM.runDirective_congr runsNone run other]
  | _ => rfl

/-- A statement that is no brace and runs no others is a sequence of effects with a finish. -/
theorem effects_of_runStatement (noBrace : statement.isBrace = false)
    (runsNone : statement.runsLists = false)
    (ran : runStatement run statement before = .ok () after) :
    ∃ middle, Effects (statement.isSilent before = true) before middle ∧
      Finish statement.ending middle after := by
  let mirror := Mirror.still (statement.isSilent before = true)
  rw [runStatement_congr runsNone run mirror.run] at ran
  obtain ⟨middle, trace, finish, -⟩ := @endsAt_runStatement mirror before statement noBrace id ()
    after ran
  exact ⟨middle, Mirror.effects_of_still trace, finish⟩

/-- The arguments of a statement are prepared by effects that leave no frames behind. -/
theorem effects_of_prepare {tokens : List Token}
    (prepares : prepare statement before = .ok tokens after) : Effects False before after :=
  LeadsAt.effects (following.ofPrepare statement before) prepares

/-- A statement does the same with lists that do at least what they did, where it runs them. -/
theorem runStatement_mono
    (follows : ∀ statements first last, Mirror.Trace ⟨run, other, .none, True⟩ before first →
      run statements first = .ok () last → other statements first = .ok () last)
    (ran : runStatement run statement before = .ok () after) :
    runStatement other statement before = .ok () after := by
  cases isBrace : statement.isBrace with
  | true =>
    have runsNone : statement.runsLists = false := by
      obtain ⟨size, opens⟩ | closes := brace_cases isBrace
      · rw [runsLists, opens]
      · rw [runsLists, closes]
    rwa [runStatement_congr runsNone other run]
  | false =>
    let mirror : Mirror := ⟨run, other, .none, True⟩
    obtain ⟨middle, -, -, mirrored⟩ :=
      @endsAt_runStatement mirror before statement isBrace (fun _ => trivial) () after ran
    have followed : mirror.IsFollowed before middle := by
      intro statements first last trace ranList _
      change other statements (first.onto .none) = .ok () (last.onto .none)
      rw [onto_none, onto_none]
      exact follows statements first last trace ranList
    have same := mirrored followed
    change runStatement other statement (before.onto .none) = .ok () (after.onto .none) at same
    rwa [onto_none, onto_none] at same

theorem runScoped_mono (follows : ∀ statements first last, Mirror.Trace ⟨run, other, .none,
      True⟩ (before.enter statement) first → run statements first = .ok () last →
      other statements first = .ok () last)
    (ran : runScoped run statement before = .ok () after) :
    runScoped other statement before = .ok () after := by
  obtain ⟨middle, reached, inside, reaches, rfl⟩ := runScoped_eq_ok_iff.1 ran
  exact runScoped_eq_ok_iff.2 ⟨middle, reached, runStatement_mono follows inside, reaches, rfl⟩

/-! A run that passes a check passes any weaker one. -/

section

variable {alarm other : Error} {check weaker : Statement → Build → Build → Prop}
  [∀ statement, DecidableRel (check statement)]
  [∀ statement, DecidableRel (weaker statement)]
  (weakens : ∀ statement before after, check statement before after → weaker statement before after)

include weakens

theorem watchUpcoming_mono {follow : Runner} {steps : Nat}
    (follows : ∀ statements first last, run statements first = .ok () last →
      follow statements first = .ok () last)
    (watched : watchUpcoming alarm check run steps before = .ok () after) :
    watchUpcoming other weaker follow steps before = .ok () after := by
  induction steps generalizing before with
  | zero => exact watched
  | succ steps ih =>
    cases upcoming : before.upcoming with
    | nil =>
      rw [watchUpcoming_nil_eq_ok_iff upcoming] at watched ⊢
      exact watched
    | cons statement rest =>
      rw [watchUpcoming_cons_eq_ok_iff upcoming] at watched ⊢
      obtain ⟨middle, ran, holds, continued⟩ := watched
      have other := runScoped_mono (fun statements first last _ => follows statements first last) ran
      exact ⟨middle, other, weakens _ _ _ holds, ih continued⟩

theorem watchSection_mono {depth : Nat}
    (watched : watchSection alarm check depth statements before = .ok () after) :
    watchSection other weaker depth statements before = .ok () after := by
  induction depth generalizing statements before after with
  | zero => cases watched
  | succ depth ih =>
    rw [watchSection_eq_ok_iff] at watched ⊢
    obtain ⟨ended, inside, rfl⟩ := watched
    exact ⟨ended, watchUpcoming_mono weakens (fun _ _ _ => ih) inside, rfl⟩

end

theorem runUpcoming_of_watchUpcoming {alarm : Error} {check : Statement → Build → Build → Prop}
    [∀ statement, DecidableRel (check statement)] {depth steps : Nat}
    (watched : watchUpcoming alarm check (watchSection alarm check depth) steps before =
      .ok () after) : runUpcoming (runSection depth) steps before = .ok () after := by
  rw [← watchUpcoming_true alarm, ← watchSection_true alarm]
  have weakens (statement : Statement) (before after : Build) :
      check statement before after → True :=
    fun _ => trivial
  exact watchUpcoming_mono weakens (fun _ _ _ => watchSection_mono weakens) watched

end BuildM

theorem Build.level_forScript (storage : FileTree) (options : Options) (file : String) :
    (forScript storage options file).Level :=
  ⟨rfl, rfl, nofun, forall_mem_nil _⟩

end ScriptPack
