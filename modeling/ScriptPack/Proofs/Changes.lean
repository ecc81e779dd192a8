import ScriptPack.Proofs.DirectiveRules
import ScriptPack.Proofs.Temporaries

/-!
What a step changes, whether it succeeds or fails, of the numbers of temporaries, the open blocks, the
remembered choices and the statements to come: a handful of changes, of which every step is a
sequence. A step that fails has made some of its changes too, so that steps are seen through the
state they end in.
-/

namespace ScriptPack

/-- One change of the counters: nothing about the numbers of temporaries, a new temporary, or that
those asked for so far are kept. -/
inductive Scoreboard.Change : Scoreboard → Scoreboard → Prop where
  | quiet {board later : Scoreboard} (number : later.nextTemporary = board.nextTemporary)
      (scopes : later.scopes = board.scopes) : Change board later
  | request (board : Scoreboard) (kind : CounterKind) : Change board (board.temporary kind).2
  | keep (board : Scoreboard) : Change board board.keepTemporaries

def Scoreboard.Changes : Scoreboard → Scoreboard → Prop :=
  Relation.ReflTransGen Change

/-- Computations on counters are sequences of changes, also when they fail. -/
theorem CounterM.Yields.changes {α : Type} {computation : CounterM α} {holds : α → Prop}
    (yields : computation.Yields holds) (board : Scoreboard) : board.Changes (final computation board) := by
  induction yields generalizing board with
  | pure isValue => exact .refl
  | throw error => exact .refl
  | get accessor =>
    rw [CounterM.get, final_bind_of_ok (getThe_apply board)]
    cases board.get accessor <;> exact .refl
  | @define counter _ =>
    rw [CounterM.define, final_bind_of_ok (getThe_apply board)]
    by_cases long : counter.kind.maxNameLength < counter.name.length
    · rw [Scoreboard.define, if_pos long]
      exact .refl
    · rw [Scoreboard.define, if_neg long]
      exact .single (.quiet rfl rfl)
  | temporary _ => exact .single (.request board _)
  | bind _ _ first second =>
    exact final_bind (first board) fun value middle _ changes => changes.trans (second value middle)
  | mono _ _ ih => exact ih board

namespace Build

/-- Temporaries, open blocks, remembered choices and the statements to come are the same. -/
structure Quiet (before after : Build) : Prop where
  board : after.scoreboard = before.scoreboard
  choices : after.lastChoices = before.lastChoices
  blocks : after.openBlocks = before.openBlocks
  upcoming : after.upcoming = before.upcoming

section

variable (build : Build)

theorem quiet_align : build.Quiet build.align := by
  unfold align
  split <;> exact ⟨rfl, rfl, rfl, rfl⟩

theorem quiet_emitBatch (lines : List Line) (word : String) (inPlace : Bool) :
    build.Quiet (build.emitBatch lines word inPlace) := by
  unfold emitBatch
  split
  · exact ⟨rfl, rfl, rfl, rfl⟩
  · exact ⟨rfl, rfl, rfl, rfl⟩
  · split <;> exact ⟨rfl, rfl, rfl, rfl⟩

theorem quiet_emitBatchKeeping (lines : List Line) (word : String) :
    build.Quiet (build.emitBatchKeeping lines word) := by
  unfold emitBatchKeeping
  split
  · exact ⟨rfl, rfl, rfl, rfl⟩
  · exact ⟨rfl, rfl, rfl, rfl⟩
  · split <;> exact ⟨rfl, rfl, rfl, rfl⟩

theorem quiet_sharedFile (name : String) (commands : List Command) :
    build.Quiet (build.sharedFile name commands).2 := by
  unfold sharedFile
  dsimp only
  split <;> exact ⟨rfl, rfl, rfl, rfl⟩

end

/-- One change that the inside of a statement makes. Statements to come are only taken away where the
statement `governs` others; then it may also `run` lists of them. A choice is only remembered where the
statement `decides` one. -/
inductive Change (run : List Statement → BuildM Unit) (governs decides : Prop) : Build → Build → Prop where
  | quiet {before after : Build} (same : before.Quiet after) : Change run governs decides before after
  | board {before : Build} {board : Scoreboard} (change : before.scoreboard.Change board) :
      Change run governs decides before { before with scoreboard := board }
  | advance (isGoverning : governs) {before : Build} {upcoming : List Statement}
      (suffix : upcoming <:+ before.upcoming) : Change run governs decides before { before with upcoming }
  | enter (isGoverning : governs) (before : Build) : Change run governs decides before before.enterBlock
  | remember (isDeciding : decides) (before : Build) (chosen : Bool) :
      Change run governs decides before (before.rememberChoice chosen)
  | list (isGoverning : governs) (before : Build) (statements : List Statement) :
      Change run governs decides before (final (run statements) before)

def Changes (run : List Statement → BuildM Unit) (governs decides : Prop) : Build → Build → Prop :=
  Relation.ReflTransGen (Change run governs decides)

variable {run : Runner} {governs decides : Prop} {before after : Build}

theorem Changes.quiet (same : before.Quiet after) : Changes run governs decides before after :=
  .single (.quiet same)

theorem Changes.board {board : Scoreboard} (changes : before.scoreboard.Changes board) :
    Changes run governs decides before { before with scoreboard := board } := by
  induction changes with
  | refl => exact .refl
  | tail _ change ih => exact .tail ih (.board change)

end Build

namespace BuildM

variable {α β : Type} {run : Runner} {governs decides : Prop} {before : Build}
variable {change : Build → Build} {step : BuildM α} {next : α → BuildM β}

/-- From this state, whether it succeeds or fails, the step is a sequence of changes. -/
def MakesAt (run : List Statement → BuildM Unit) (governs decides : Prop) (before : Build)
    (step : BuildM α) : Prop :=
  Build.Changes run governs decides before (final step before)

def Makes (run : List Statement → BuildM Unit) (governs decides : Prop) (step : BuildM α) : Prop :=
  ∀ before, MakesAt run governs decides before step

theorem MakesAt.bind (first : MakesAt run governs decides before step)
    (second : ∀ value middle, step before = .ok value middle →
      MakesAt run governs decides middle (next value)) :
    MakesAt run governs decides before (step >>= next) :=
  final_bind first fun value middle outcome changes => changes.trans (second value middle outcome)

theorem Makes.bind (first : Makes run governs decides step)
    (second : ∀ value, Makes run governs decides (next value)) :
    Makes run governs decides (step >>= next) :=
  fun before => (first before).bind fun value middle _ => second value middle

theorem makes_pure (value : α) : Makes run governs decides (pure value) :=
  fun _ => .refl

theorem makes_throw (error : Error) : Makes run governs decides (throw error : BuildM α) :=
  fun _ => .refl

theorem makes_get : Makes run governs decides (get : BuildM Build) :=
  fun _ => .refl

theorem makesAt_get {next : Build → BuildM α} (makes : MakesAt run governs decides before (next before)) :
    MakesAt run governs decides before (get >>= next) :=
  makes

theorem makes_modify (same : ∀ build : Build, build.Quiet (change build)) :
    Makes run governs decides (modify change : BuildM PUnit) :=
  fun before => .quiet (same before)

theorem makes_modifyThen {next : PUnit → BuildM α}
    (rest : ∀ value, Makes run governs decides (next value))
    (same : ∀ build : Build, build.Quiet (change build)) :
    Makes run governs decides (modify change >>= next) :=
  (makes_modify same).bind rest

theorem makes_modifyGet {change : Build → α × Build}
    (same : ∀ build : Build, build.Quiet (change build).2) :
    Makes run governs decides (modifyGet change : BuildM α) :=
  fun before => .quiet (same before)

theorem makes_modifyScoreboard {change : Scoreboard → Scoreboard}
    (changes : ∀ board : Scoreboard, board.Changes (change board)) :
    Makes run governs decides (modifyScoreboard change) :=
  fun before => .board (changes before.scoreboard)

theorem makes_counters {computation : CounterM α} {holds : α → Prop} (yields : computation.Yields holds) :
    Makes run governs decides (counters computation) := by
  intro before
  have changes := yields.changes before.scoreboard
  rw [final] at changes
  rw [MakesAt, final, counters_eq]
  cases outcome : computation before.scoreboard <;> rw [outcome] at changes <;>
    exact .board changes

theorem final_always (step : BuildM Unit) (last : Build → Build) (before : Build) :
    final (always step last) before = last (final step before) := by
  unfold final always
  cases step before <;> rfl

theorem Makes.always {step : BuildM Unit} {last : Build → Build} (makes : Makes run governs decides step)
    (same : ∀ build : Build, build.Quiet (last build)) : Makes run governs decides (always step last) := by
  intro before
  have changes := makes before
  unfold MakesAt at changes ⊢
  rw [final_always]
  exact changes.tail (.quiet (same _))

theorem Makes.recover (makes : Makes run governs decides step)
    (same : ∀ build : Build, build.Quiet (change build)) :
    Makes run governs decides (tryCatch step fun error => do
      modify change
      throw error) := by
  intro before
  have changes := makes before
  rw [MakesAt, final] at changes ⊢
  rw [recover_apply]
  cases outcome : step before with
  | ok value middle =>
    rw [outcome] at changes
    exact changes
  | error error middle =>
    rw [outcome] at changes
    exact changes.tail (.quiet (same middle))

end BuildM

end ScriptPack
