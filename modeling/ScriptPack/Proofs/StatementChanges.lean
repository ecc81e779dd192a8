import ScriptPack.Proofs.Changes
import ScriptPack.Proofs.Watch

/-!
Every statement but a brace is a sequence of changes, whether it succeeds or fails. A statement that
has no body and runs no others only asks for temporaries and keeps them.
-/

namespace ScriptPack

open Statement

variable {statement : Statement}

theorem Build.SameWork.quiet {before after : Build} (same : before.SameWork after) :
    before.Quiet after :=
  ⟨same.board, same.choices, same.blocks, same.upcoming⟩

namespace BuildM

open CounterM Build

variable {α β : Type} {run : Runner} {governs decides : Prop} {before : Build}

theorem makes_declare (counter : Counter) :
    Makes run governs decides (modifyScoreboard (·.declare counter)) := by
  apply makes_modifyScoreboard
  intro board
  obtain ⟨declared, pendingHead, declares⟩ := board.declare_eq counter
  rw [declares]
  exact .single (.quiet rfl rfl)

/-- Being a sequence of changes is closed under composing, and holds of the elementary steps but for
the one by which a routine is given a counter for its results. -/
theorem making_unconcerned :
    Unconcerned (Makes run governs decides) (Makes run governs decides) where
  ofPure := makes_pure
  ofThrow := makes_throw
  ofGet := fun _ => makes_get.bind
  ofGetLast := fun _ => makes_get.bind
  bind := Makes.bind
  bindLast := Makes.bind
  mapLast := fun makes => makes.bind fun _ => makes_pure _
  last := id
  unseen := fun unseen _ before => .quiet (unseen before).sameWork.quiet

theorem makes_emitAligned (commands : List Command) (word : String) :
    Makes run governs decides (modify (·.emitAligned commands word) : BuildM PUnit) :=
  makes_modify fun build => build.quiet_emitBatchKeeping _ _

theorem making : Changing (Makes run governs decides) (Makes run governs decides) where
  toUnconcerned := making_unconcerned
  ofCounters := makes_counters
  ofKeepTemporaries := makes_modifyScoreboard fun board => .single (.keep board)
  ofComputation := making_unconcerned.ofEmitComputation makes_counters makes_emitAligned
  ofCall := making_unconcerned.ofEvaluateCall makes_counters makes_emitAligned
  ofDeclare := makes_declare
  ofChange := fun same => makes_modify fun build => (same build).quiet
  ofChangeGet := fun same => makes_modifyGet fun build => (same build).quiet
  ofAddFrames := fun _ => makes_modify fun _ => ⟨rfl, rfl, rfl, rfl⟩
  ofShare := fun _ _ => makes_modifyGet fun build => build.quiet_sharedFile _ _
  ofAlign := makes_modify quiet_align
  ofRecover := fun makes => makes.recover fun build => build.sameWork_popSelector.quiet
  ofEmitBatch := fun _ _ _ => makes_modify fun build => build.quiet_emitBatch _ _ _
  andChange := fun makes same => makes.bind fun _ => makes_modify fun build => (same build).quiet

/-! Conditions. -/

theorem makes_emitSetup (lowered : LoweredChain) : Makes run governs decides (emitSetup lowered) := by
  apply makes_modify
  intro build
  dsimp only
  split
  · exact ⟨rfl, rfl, rfl, rfl⟩
  · split
    · exact build.quiet_emitBatchKeeping _ _
    · obtain ⟨board, choices, blocks, upcoming⟩ := quiet_emitBatch
        { build with frames := build.frames ++ lowered.setupFrames } lowered.setup "compareSetup" false
      exact ⟨board, choices, blocks, upcoming⟩

theorem makes_skipEmptyBody : Makes run governs decides skipEmptyBody := by
  apply makes_get.bind
  intro build
  split
  · exact makes_modifyThen (fun _ => makes_pure _) fun _ => ⟨rfl, rfl, rfl, rfl⟩
  · exact makes_pure _

/-! Conditions and bodies: the statements to come are taken away. -/

section Governing

variable (isGoverning : governs)

include isGoverning

theorem makes_guardNext (lowered : LoweredChain) : Makes run governs decides (guardNext lowered) := by
  apply makes_get.bind; intro build
  apply making.check
  apply (makes_emitSetup lowered).bind; intro _
  refine makes_modifyThen (fun _ => ?_) fun _ => ⟨rfl, rfl, rfl, rfl⟩
  apply makes_get.bind; intro build
  dsimp only
  split
  · exact makes_modify fun _ => ⟨rfl, rfl, rfl, rfl⟩
  · intro before
    let framed : Build := { before with frames := before.frames ++ lowered.frames }
    have frames : before.Quiet framed := ⟨rfl, rfl, rfl, rfl⟩
    exact .tail (.tail (Changes.quiet frames) (.enter isGoverning framed)) (.quiet ⟨rfl, rfl, rfl, rfl⟩)
  · exact makes_modify fun _ => ⟨rfl, rfl, rfl, rfl⟩

theorem guarding_makes : Guarding (Makes run governs decides) (Makes run governs decides)
    fun _ => True where
  ofFail := making.ofFail
  ofGet := making.ofGet
  bind := Makes.bind
  ofRemember := fun _ makes => makes_modifyThen (fun _ => makes) fun _ => ⟨rfl, rfl, rfl, rfl⟩
  ofEmitKeeping := fun _ => makes_modify fun _ => ⟨rfl, rfl, rfl, rfl⟩
  ofEmitSetup := fun _ => makes_emitSetup _
  ofLowerChain := fun _ makes => Makes.bind (making.ofLowerChain _) fun lowered => makes lowered trivial
  ofSkipEmptyBody := fun makes => makes_skipEmptyBody.bind fun skipped => by
    cases skipped with
    | true => exact makes_pure _
    | false => exact makes
  ofGuardNext := fun _ => makes_guardNext isGoverning _

theorem makes_runChosen (chosen : Bool) : Makes run governs decides (runChosen chosen) := by
  intro before
  change Changes run governs decides before (if before.nextIsBlock then _ else _)
  split
  · split <;> exact .quiet ⟨rfl, rfl, rfl, rfl⟩
  · split
    · exact .refl
    · exact .single (.advance isGoverning (List.drop_suffix _ _))

theorem makes_takeBody : Makes run governs decides takeBody := by
  intro before
  apply makesAt_get
  split
  · exact making.ofFail _ before
  · next statement rest upcoming =>
    have rests : rest <:+ before.upcoming := upcoming ▸ List.suffix_cons _ _
    split
    · exact .single (.advance isGoverning rests)
    · exact making.ofFail _ before
    · exact .single (.advance isGoverning ((List.drop_suffix _ _).trans rests))

theorem makes_takeStatement? : Makes run governs decides takeStatement? := by
  intro before
  have taken : final takeStatement? before = { before with upcoming := before.upcoming.tail } := by
    unfold takeStatement?
    rw [final_of_ok (modifyGet_apply _ before)]
    cases upcoming : before.upcoming with
    | nil =>
      change before = { before with upcoming := [] }
      rw [← upcoming]
    | cons statement rest => rfl
  rw [MakesAt, taken]
  exact .single (.advance isGoverning (List.tail_suffix _))

theorem makes_run (statements : List Statement) : Makes run governs decides (run statements) :=
  fun before => .single (.list isGoverning before statements)

end Governing

end BuildM

open ArgumentM BuildM in
theorem ArgumentM.makes_runDirective (run : Runner) (directive : Directive) :
    Over (Makes run (directive.governs = true) (directive = .whenValues)) (runDirective run directive) := by
  by_cases bodiless : directive.governs = false
  · exact making.ofRunDirective bodiless
  -- the lists that a body is run by end with what is no more than quiet
  have ends {governs decides : Prop} {step : BuildM Unit} {last : Build → Build}
      (makes : Makes run governs decides step) (unseen : ∀ build : Build, build.Unseen (last build)) :
      Makes run governs decides (always step last) :=
    makes.always fun build => (unseen build).sameWork.quiet
  cases directive with
  | whenValues =>
    exact making.ofRunWhenValues (makes_runChosen rfl) fun chosen before =>
      .single (.remember rfl before chosen)
  | otherwiseValues => exact making.liftLast (making.ofRunOtherwiseValues (makes_runChosen rfl))
  | repeatBody => exact making.ofRunRepeat (makes_takeBody rfl) (makes_run rfl)
  | template => exact making.ofRunTemplate (makes_takeBody rfl) (makes_run rfl) ends
  | includeFile => exact making.ofRunInclude (makes_run rfl) ends
  | iterate => exact making.ofRunIterate (makes_takeBody rfl) (makes_run rfl)
  | condition =>
    exact making.seq making.ofTokens fun _ =>
      making.lift ((guarding_makes rfl).ofRunCondition making.toEvaluating _)
  | otherwise => exact making.lift ((guarding_makes rfl).ofRunOtherwise making.toEvaluating)
  | record =>
    exact making.ofRunRecord (makes_takeStatement? rfl) fun _ =>
      makes_modifyScoreboard fun _ => .single (.quiet rfl rfl)
  | _ => exact absurd rfl bodiless

/-- Whether the statement takes others from those to come, or runs others. -/
def Statement.governs (statement : Statement) : Bool :=
  match statement.kind with
  | .directive directive => directive.governs
  | _ => false

namespace BuildM

theorem makes_runDirective (run : Runner) (directive : Directive) (tokens : List Token) :
    Makes run (directive.governs = true) (directive = .whenValues) (runDirective run directive tokens) := by
  unfold runDirective
  apply making.check
  exact (ArgumentM.makes_runDirective run directive tokens).bind fun _ => makes_pure _

/-- A statement that is no brace is a sequence of changes, whether it succeeds or fails. -/
theorem makes_runStatement (run : Runner) (noBrace : statement.isBrace = false) :
    Makes run (statement.governs = true) (statement.kind = .directive .whenValues)
      (runStatement run statement) := by
  unfold governs runStatement
  cases kind : statement.kind with
  | openBlock size =>
    simp [isBrace, isOpenBlock, size?, kind] at noBrace
  | closeBlock => simp [isBrace, isCloseBlock, kind] at noBrace
  | unknown => exact makes_get.bind fun _ => makes_throw _
  | operation => exact Makes.bind (making.ofPrepare statement) fun _ => making.ofRunOperation _
  | call => exact Makes.bind (making.ofPrepare statement) fun _ => making.ofRunCall _
  | directive directive =>
    have directed : Makes run (directive.governs = true) (directive = .whenValues)
        (prepare statement >>= fun tokens => runDirective run directive tokens) :=
      Makes.bind (making.ofPrepare statement) fun tokens => makes_runDirective run directive tokens
    simp only [StatementKind.directive.injEq]
    split
    · exact Makes.bind (making.ofRequireFeature _) fun _ => directed
    · exact directed

end BuildM

/-! Braces. -/

theorem BuildM.final_runStatement_close {run : Runner} {before : Build}
    (closes : statement.kind = .closeBlock) :
    final (runStatement run statement) before = before.closeBlock?.getD before := by
  unfold runStatement
  rw [closes]
  dsimp only
  rw [final_bind_of_ok (get_apply before)]
  cases before.closeBlock? <;> rfl

theorem BuildM.final_runStatement_brace (run : Runner)
    (isBrace : statement.isBrace = true) (before : Build) :
    (final (runStatement run statement) before).scoreboard = before.scoreboard ∧
      (final (runStatement run statement) before).lastChoices = before.lastChoices := by
  obtain ⟨size, opens⟩ | closes := brace_cases isBrace
  · obtain ⟨_, _, _, _, _, _, opened⟩ := before.openBlock_eq size
    rw [final_of_ok (runStatement_open opens), opened]
    exact ⟨rfl, rfl⟩
  · rw [final_runStatement_close closes]
    cases closed : before.closeBlock? with
    | none => exact ⟨rfl, rfl⟩
    | some after =>
      obtain ⟨_, _, _, _, _, _, rfl⟩ := Build.closeBlock?_eq closed
      exact ⟨rfl, rfl⟩

end ScriptPack
