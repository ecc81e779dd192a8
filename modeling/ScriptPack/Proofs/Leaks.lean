import ScriptPack.Proofs.Balance

/-!
Frames that are left behind. The frames that wait for a command are used up by the statement that has
put them there, or dropped when the scheduled pops come due; only a statement that has nothing to write
for entities that `@s` does not name leaves the frame that was to align it, for whatever comes next.
-/

namespace ScriptPack

open Build BuildM Nested Statement

namespace Build

variable {mayLeak : Prop} {ending : Ending} {before after build : Build}

def IsClean (build : Build) : Prop :=
  build.pendingPops = [] → build.frames = []

instance (build : Build) : Decidable build.IsClean :=
  decidable_of_iff (build.pendingPops.isEmpty = true → build.frames.isEmpty = true) <| by
    rw [IsClean, List.isEmpty_iff, List.isEmpty_iff]

theorem IsClean.congr (clean : before.IsClean) (pops : after.pendingPops = before.pendingPops)
    (frames : after.frames = before.frames) : after.IsClean := by
  unfold IsClean
  rwa [pops, frames]

theorem Aside.isClean (aside : before.Aside after) (clean : before.IsClean) : after.IsClean :=
  clean.congr aside.sameStacks.pops (congrArg Core.frames aside.core)

theorem Effect.isClean (effect : Effect mayLeak before after) (keeps : ¬mayLeak)
    (clean : before.IsClean) : after.IsClean := by
  cases effect with
  | aside aside upcoming => exact aside.isClean clean
  | write calls => exact clean
  | factor word frames calls => exact clean
  | clear => exact fun _ => rfl
  | leak frames leaks => exact absurd leaks keeps
  | share isNew calls =>
    unfold sharedFile
    dsimp only
    split <;> exact clean

theorem Finish.isClean (finish : Finish ending before after) (clean : before.IsClean) :
    after.IsClean := by
  cases finish with
  | guard _ frames =>
    intro noPops
    cases noPops
  | guardOne frames next =>
    intro noPops
    cases noPops
  | branch frames next => exact fun _ => rfl
  | routine routine next =>
    obtain ⟨routines, added, -⟩ := before.addRoutine_eq routine
    rw [added]
    exact clean
  | _ => exact clean

theorem IsClean.settlePops (clean : build.IsClean) : build.settlePops.IsClean := by
  unfold Build.settlePops
  dsimp only
  split
  · next noneDue =>
    intro noPops
    have total := countDown_length build.pendingPops
    rw [beq_iff_eq.1 noneDue, show (countDown build.pendingPops).2 = [] from noPops] at total
    exact clean (List.length_eq_zero_iff.1 total.symm)
  · exact fun _ => rfl

theorem IsClean.openBlock (clean : build.IsClean) (size : Nat) : (build.openBlock size).IsClean := by
  obtain ⟨_, _, _, _, _, _, opened⟩ := build.openBlock_eq size
  rw [opened]
  exact clean

theorem IsClean.closeBlock (clean : before.IsClean) (closed : before.closeBlock? = some after) :
    after.IsClean := by
  obtain ⟨_, _, _, _, _, _, rfl⟩ := closeBlock?_eq closed
  exact clean

theorem Effects.isClean (effects : Effects mayLeak before after) (keeps : ¬mayLeak)
    (clean : before.IsClean) : after.IsClean := by
  induction effects with
  | refl => exact clean
  | tail _ effect ih => exact effect.isClean keeps ih

theorem Moves.isClean (moves : Moves mayLeak before after) (keeps : ¬mayLeak)
    (clean : before.IsClean) : after.IsClean := by
  induction moves with
  | refl => exact clean
  | tail _ move ih =>
    cases move with
    | effect effect => exact effect.isClean keeps ih
    | aside aside => exact aside.isClean ih
    | finish noHooks finish => exact finish.isClean ih
    | settle level => exact ih.settlePops
    | opens level size => exact ih.openBlock size
    | closes level closed => exact ih.closeBlock closed

end Build

namespace BuildM

variable {run : Runner} {statement : Statement} {before after : Build}

/-- A statement that runs no others and is not silent leaves no frames behind. -/
theorem isClean_of_runScoped (runsNone : statement.runsLists = false)
    (loud : statement.isSilent (before.enter statement) = false)
    (ran : runScoped run statement before = .ok () after) (clean : before.IsClean) :
    after.IsClean := by
  obtain ⟨middle, reached, inside, reaches, rfl⟩ := runScoped_eq_ok_iff.1 ran
  have entered := (before.aside_enter statement).isClean clean
  have cleanMiddle : middle.IsClean := by
    cases isBrace : statement.isBrace with
    | false =>
      obtain ⟨last, effects, finish⟩ := effects_of_runStatement isBrace runsNone inside
      exact finish.isClean (effects.isClean (by rw [loud]; nofun) entered)
    | true =>
      obtain ⟨size, opens⟩ | closes := brace_cases isBrace
      · cases (runStatement_open opens).symm.trans inside
        exact entered.openBlock size
      · exact entered.closeBlock ((runStatement_close_eq_ok_iff closes).1 inside)
  exact ((checkReachable_aside reaches).1.isClean
    (middle.aside_popScope.isClean cleanMiddle)).settlePops

/-- An assignment without commands leaves the frame that was to align it. -/
theorem runOperation_of_noCommands {tokens : List Token} {assignment : Assignment}
    {board : Scoreboard} (isRead : Assignment.read tokens = .ok assignment)
    (computed : assignment.commands before.scoreboard = .ok [] board) :
    runOperation tokens before = .ok ()
      { before with scoreboard := board, frames := before.frames ++ before.active.alignment } := by
  unfold runOperation
  rw [bind_of_ok (ofExcept_eq_ok_iff.2 ⟨isRead, rfl⟩), bind_of_ok (counters_of_ok computed)]
  have written (build : Build) : emitAllSelected [] "operation" build =
      .ok () (build.align.emitBatch [] "operation" false).popSelector := rfl
  rw [written, popSelector_emitBatch_align]
  rfl

/-- A definition without commands leaves the frame that was to align its default. -/
theorem defineCounter_of_silent {definition : Parameter}
    (silent : before.definesSilently definition = true)
    (ran : defineCounter definition before = .ok () after) :
    ∃ board, after = { before with scoreboard := board,
                                   frames := before.frames ++ before.active.alignment } := by
  obtain ⟨counter, default⟩ := definition
  obtain ⟨_, middle, defines, written⟩ := bind_eq_ok_iff.1 ran
  obtain ⟨declared, isDeclared, rfl⟩ := counters_eq_ok_iff.1 defines
  cases default with
  | none => simp [definesSilently] at silent
  | some default =>
    obtain ⟨commands, board, computed, rfl⟩ := defineDefault_eq_ok_iff.1 written
    simp [definesSilently, isDeclared, computed] at silent
    rw [silent.1.2, silent.2]
    exact ⟨board, rfl⟩

theorem defineCounter_of_runDirective {tokens rest : List Token} {definition : Parameter}
    (taken : View.takeDefinition before.scoreboard tokens = .ok (definition, rest))
    (ran : runDirective run .define tokens before = .ok () after) :
    defineCounter definition before = .ok () after := by
  obtain ⟨-, left, defines⟩ := runDirective_eq_ok_iff.1 ran
  obtain ⟨⟨other, _⟩, middle, reads, written⟩ := bind_eq_ok_iff.1 defines
  obtain ⟨again, rfl⟩ := ArgumentM.read_eq_ok reads
  cases taken.symm.trans again
  obtain ⟨_, last, defined, returned⟩ := bind_eq_ok_iff.1 written
  cases returned
  exact defined

/-- A silent statement leaves the frame that was to align its commands, and nothing else, behind what
prepares it. -/
theorem runStatement_of_silent (silent : statement.isSilent before = true)
    (ran : runStatement run statement before = .ok () after) :
    ∃ prepared board, Build.Effects False before prepared ∧
      prepared.active.needsAlign = true ∧
      after = { prepared with scoreboard := board,
                              frames := prepared.frames ++ prepared.active.alignment } := by
  unfold isSilent at silent
  rcases prepares : prepare statement before with ⟨tokens, prepared⟩ | ⟨error, last⟩ <;>
    simp only [prepares, Bool.false_eq_true] at silent
  have effects := effects_of_prepare prepares
  unfold runStatement at ran
  cases kind : statement.kind with
  | operation =>
    simp only [kind] at silent ran
    rw [bind_of_ok prepares] at ran
    rcases isRead : Assignment.read tokens with problem | assignment <;>
      simp only [isRead, Bool.false_eq_true] at silent
    unfold assignsSilently at silent
    obtain ⟨needsAlign, noCommands⟩ := Bool.and_eq_true_iff.1 silent
    rcases computed : assignment.commands prepared.scoreboard with ⟨commands, board⟩ | ⟨error, last⟩ <;>
      simp only [computed, Bool.false_eq_true, List.isEmpty_iff] at noCommands
    subst noCommands
    cases (runOperation_of_noCommands isRead computed).symm.trans ran
    exact ⟨prepared, board, effects, needsAlign, rfl⟩
  | directive directive =>
    cases directive with
    | define =>
      simp only [kind] at silent ran
      rcases taken : View.takeDefinition prepared.scoreboard tokens with problem | ⟨definition, rest⟩ <;>
        simp only [taken, Bool.false_eq_true] at silent
      have directs : (prepare statement >>= runDirective run .define) before = .ok () after := ran
      rw [bind_of_ok prepares] at directs
      obtain ⟨board, rfl⟩ := defineCounter_of_silent silent
        (defineCounter_of_runDirective taken directs)
      have needsAlign : prepared.active.needsAlign = true := by
        unfold definesSilently at silent
        exact (Bool.and_eq_true_iff.1 (Bool.and_eq_true_iff.1 silent).1).1
      exact ⟨prepared, board, effects, needsAlign, rfl⟩
    | _ => simp [kind] at silent
  | _ => simp [kind] at silent

/-- A silent statement leaves its frame behind, unless it is dropped with a scheduled pop. -/
theorem frames_of_silent (silent : statement.isSilent (before.enter statement) = true)
    (ran : runScoped run statement before = .ok () after) (clean : before.IsClean) :
    (after.IsClean ↔ before.pendingPops ≠ []) ∧
      (before.pendingPops = [] → after.frames = after.active.alignment) := by
  obtain ⟨middle, reached, inside, reaches, rfl⟩ := runScoped_eq_ok_iff.1 ran
  obtain ⟨prepared, board, effects, needsAlign, rfl⟩ := runStatement_of_silent silent inside
  obtain ⟨unreachable, rfl⟩ := checkReachable_eq_ok reaches
  have pops : prepared.pendingPops = before.pendingPops := (Effects.leaves effects).1.pops
  by_cases noPops : before.pendingPops = []
  · -- what prepares the statement leaves nothing, and no pop drops the alignment
    have noPopsLast := pops.trans noPops
    have frames : prepared.frames = [] :=
      Effects.isClean effects id ((before.aside_enter statement).isClean clean) noPopsLast
    unfold settlePops
    simp only [noPopsLast, frames, countDown, IsClean, List.nil_append]
    simp [noPops, Selector.alignment, needsAlign]
  · refine ⟨iff_of_true (IsClean.settlePops fun none => ?_) noPops, fun none => absurd none noPops⟩
    exact absurd (pops.symm.trans none) noPops

end BuildM

/-- A statement leaves frames behind if it is silent and no scheduled pop is around it, and not
otherwise; what it leaves is the frame that was to align its commands. -/
def Statement.LeavesAlignment (statement : Statement) (before after : Build) : Prop :=
  (after.IsClean ↔ (statement.isSilent (before.enter statement) = true → before.pendingPops ≠ [])) ∧
    (after.IsClean ∨ after.frames = after.active.alignment)

instance (statement : Statement) (before after : Build) :
    Decidable (statement.LeavesAlignment before after) :=
  inferInstanceAs (Decidable (_ ∧ _))

theorem BuildM.leavesAlignment_of_runScoped {run : Runner}
    {statement : Statement} {before after : Build} (runsNone : statement.runsLists = false)
    (ran : runScoped run statement before = .ok () after) (clean : before.IsClean) :
    statement.LeavesAlignment before after := by
  unfold LeavesAlignment
  cases silent : statement.isSilent (before.enter statement) with
  | false =>
    have cleanAfter := isClean_of_runScoped runsNone silent ran clean
    exact ⟨iff_of_true cleanAfter nofun, .inl cleanAfter⟩
  | true =>
    obtain ⟨cleanIff, frames⟩ := frames_of_silent silent ran clean
    refine ⟨cleanIff.trans ⟨fun pops _ => pops, fun pops => pops rfl⟩, ?_⟩
    by_cases noPops : before.pendingPops = []
    · exact .inr (frames noPops)
    · exact .inl (cleanIff.2 noPops)

/-- Of the statements that run no others, exactly the silent ones outside of scheduled pops leave
frames behind, at every depth. A run without silent statements has none left at any boundary where no
pop is scheduled. -/
theorem frames_left_by_silent_statements {storage : FileTree} {options : Options} {file : String}
    {statements : List Statement} {last : Build}
    (ran : runScript options statements (.forScript storage options file) = .ok () last) :
    (∀ alarm, watchScript alarm (fun statement before after =>
          statement.runsLists = false → before.IsClean → statement.LeavesAlignment before after)
        options statements (.forScript storage options file) = .ok () last) ∧
      ∀ alarm, watchScript alarm
          (fun statement before _ => statement.isSilent (before.enter statement) = false)
          options statements (.forScript storage options file) = .ok () last →
        ∀ other, watchScript other (fun _ before after => before.IsClean ∧ after.IsClean)
          options statements (.forScript storage options file) = .ok () last := by
  have level := level_forScript storage options file
  constructor
  · refine watchScript_of_runScript level rfl ran ?_
    intro statement before after occurs runsNone clean
    obtain ⟨run, ranOne⟩ := occurs.ran
    exact leavesAlignment_of_runScoped runsNone ranOne clean
  · -- under this guard no move may leak
    intro alarm loud
    refine @watchScript_of_guarded _ _ _ _ _ False _ _ _ _ ?_ level rfl loud ?_
    · intro statement before after loudOne silentOne
      rw [loudOne] at silentOne
      cases silentOne
    · intro statement before after occurs _
      have cleanStart : (forScript storage options file).IsClean := fun _ => rfl
      have clean := occurs.reached.isClean id cleanStart
      exact ⟨clean, occurs.moves.isClean id clean⟩

/-! A script that gives the counter of selected entities a value. -/

namespace Selected

def script (value : Value) : List Statement := [
  statement (.directive .define) [.word "a"],
  statement (.directive .select) [.literal (.selector { base := .players })],
  statement .operation [.word "a", .assign none, .literal value],
  statement (.directive .rawCommand) [.literal (.text "foo")]]

def written (value : Value) : List String :=
  match runScript {} (script value) start with
  | .ok _ last => last.file.lines.map Line.render
  | .error _ _ => []

theorem text_succeeds : succeeds (runScript {} (script (.text "b")) start) = true := by
  decide +kernel

theorem int_succeeds : succeeds (watchScript (.io "silent")
    (fun statement before _ => statement.isSilent (before.enter statement) = false) {}
    (script (.int 1)) start) = true := by
  decide +kernel

theorem written_text : written (.text "b") =
    ["scoreboard objectives add a dummy", "execute @a ~ ~ ~ foo"] := by
  decide +kernel

theorem written_int : written (.int 1) = ["scoreboard objectives add a dummy",
    "execute @a ~ ~ ~ scoreboard players set @s a 1", "foo"] := by
  decide +kernel

end Selected

open Selected

/-- A text is no value for the counter, and the command after the assignment is executed for the
selected entities; after a number, it is executed as it stands. -/
theorem frames_left_by_silent_statements_selected :
    Selected.written (.text "b") = ["scoreboard objectives add a dummy", "execute @a ~ ~ ~ foo"] ∧
    Selected.written (.int 1) = ["scoreboard objectives add a dummy",
      "execute @a ~ ~ ~ scoreboard players set @s a 1", "foo"] ∧
    (∃ last, runScript {} (Selected.script (.text "b")) Nested.start = .ok () last ∧
      ∀ alarm, watchScript alarm (fun statement before after =>
          statement.runsLists = false → before.IsClean → statement.LeavesAlignment before after)
        {} (Selected.script (.text "b")) Nested.start = .ok () last) ∧
    ∃ last, runScript {} (Selected.script (.int 1)) Nested.start = .ok () last ∧
      ∀ other, watchScript other (fun _ before after => before.IsClean ∧ after.IsClean)
        {} (Selected.script (.int 1)) Nested.start = .ok () last := by
  obtain ⟨_, last, ran⟩ := exists_ok_of_succeeds text_succeeds
  obtain ⟨_, loudLast, loud⟩ := exists_ok_of_succeeds int_succeeds
  have loudRan := runScript_of_watchScript (level_forScript _ _ _) rfl loud
  exact ⟨written_text, written_int, ⟨last, ran, (frames_left_by_silent_statements ran).1⟩,
    ⟨loudLast, loudRan, (frames_left_by_silent_statements loudRan).2 _ loud⟩⟩

end ScriptPack
