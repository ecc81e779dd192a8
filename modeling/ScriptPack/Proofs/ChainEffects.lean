import ScriptPack.Proofs.Evaluation

/-!
Conditions, taken apart into effects. Lowering a chain only declares temporaries. Its preparation is
written, and what comes next is guarded, put into a branch or left out.
-/

namespace ScriptPack

open Build

namespace Build

theorem nextIsBlock_of_size {build : Build} {size : Nat} (next : build.nextBlockSize? = some size) :
    build.nextIsBlock = true := by
  obtain ⟨statement, isNext, isSize⟩ := Option.bind_eq_some_iff.1 next
  rw [nextIsBlock, isNext, Option.any_some, Statement.isOpenBlock, isSize, Option.isSome_some]

theorem enterBlock_onto (build : Build) (ground : Ground) :
    (build.onto ground).enterBlock = build.enterBlock.onto ground := by
  unfold enterBlock
  have upcoming : (build.onto ground).upcoming = build.upcoming := rfl
  rw [upcoming]
  split
  · split <;> rfl
  · rfl

/-- Lines under further frames, written where the waiting frames stay. -/
theorem effects_emitBatchWithin {mayLeak : Prop} {before : Build} {lines : List Line}
    (extra : List Frame) (word : String) (calls : before.Calls lines) :
    Effects mayLeak before
      { ({ before with frames := before.frames ++ extra } : Build).emitBatch lines word false with
        frames := before.frames } := by
  rcases lines with _ | ⟨first, _ | ⟨second, rest⟩⟩
  · exact .refl
  · exact .single (.write (calls.within (before.frames ++ extra)))
  · unfold emitBatch
    dsimp only
    split
    · exact .single (.write (calls.within (before.frames ++ extra)))
    · exact .single (.factor word (before.frames ++ extra) calls)

def guardingNext (build : Build) (frames : List Frame) : Build :=
  match build.nextBlockSize? with
  | none => (build.guarded frames).popAfterNext
  | some 1 => (build.guarded frames).enterBlock.popAfterNext
  | some _ => build.branching frames

theorem finish_guardingNext (build : Build) (frames : List Frame) :
    Finish .plain build (build.guardingNext frames) := by
  unfold guardingNext
  split
  · exact .guard build frames
  · next single => exact .guardOne frames (nextIsBlock_of_size single)
  · next size _ sized => exact .branch frames (nextIsBlock_of_size sized)

theorem guardingNext_onto (build : Build) (frames : List Frame) (ground : Ground) :
    (build.onto ground).guardingNext frames = (build.guardingNext frames).onto ground := by
  unfold guardingNext
  have next : (build.onto ground).nextBlockSize? = build.nextBlockSize? := rfl
  rw [next]
  split
  · rfl
  · change ((build.guarded frames).onto ground).enterBlock.popAfterNext = _
    rw [enterBlock_onto]
    rfl
  · rfl

end Build

namespace BuildM

variable {α β : Type} {mirror : Mirror} {before : Build}

/-- Steps whose results are of a kind. -/
structure Gives (step : BuildM α) (holds : α → Prop) : Prop where
  holds : ∀ before value after, step before = .ok value after → holds value

section Gives

variable {holds : α → Prop}

theorem gives_counters {computation : CounterM α} (yields : computation.Yields holds) :
    Gives (counters computation) holds := by
  constructor
  intro before value after run
  obtain ⟨board, computed, -⟩ := counters_eq_ok_iff.1 run
  exact (yields.of_ok computed).2

theorem Gives.leads {finish : Build → Build → Prop} {step other : BuildM α}
    {next nextOther : α → BuildM β} (gives : Gives step holds) (follows : Follows mirror step other)
    (second : ∀ value, holds value → Leads mirror finish (next value) (nextOther value)) :
    Leads mirror finish (step >>= next) (other >>= nextOther) :=
  fun before => (follows before).bind fun value middle ran =>
    second value (gives.holds _ _ _ ran) middle

end Gives

/-! Lowering. -/

section Lowering

theorem gives_lowerChain (chain : List Comparison) :
    Gives (lowerChain chain) fun lowered => AreLocalLines lowered.setup := by
  constructor
  intro before lowered after run
  unfold lowerChain at run
  rw [bind_of_ok (get_apply before)] at run
  obtain ⟨-, -, locals, -⟩ := (tallies_lowerOnto_any _ chain).of_ok (CounterM.sound_headGrows after.scoreboard)
    (fun board _ => ⟨trivial, board.headGrows_keepTemporaries⟩) trivial run
  exact locals (.refl _) areLocalLines_nil

/-- The preparation of a lowered chain, written by a step that leaves the waiting frames. -/
theorem follows_emitSetup {lowered : LoweredChain} (locals : AreLocalLines lowered.setup) :
    Follows mirror (emitSetup lowered) (emitSetup lowered) := by
  obtain ⟨setup, setupFrames, frames⟩ := lowered
  intro before
  apply followsAt_modify
  · dsimp only
    split
    · exact .refl
    · split
      · exact effects_emitBatchKeeping _ (locals.calls before)
      · exact effects_emitBatchWithin setupFrames _ (locals.calls before)
  · dsimp only
    split
    · rfl
    · split
      · exact emitBatchKeeping_onto _ _ _ _
      · have inner : ({ before.onto mirror.ground with frames :=
            (before.onto mirror.ground).frames ++ setupFrames } : Build) =
              ({ before with frames := before.frames ++ setupFrames } : Build).onto mirror.ground :=
          rfl
        rw [inner, emitBatch_onto]
        rfl

end Lowering

/-! What comes next. -/

theorem guardingNext_apply (lowered : LoweredChain) (build : Build) : (do
    modify (·.pushSelector .self)
    let addFrames := fun (build : Build) => { build with frames := build.frames ++ lowered.frames }
    match (← get).nextBlockSize? with
    | none => modify fun build => (addFrames build).popAfterNext
    | some 1 => modify fun build => (addFrames build).enterBlock.popAfterNext
    | some _ =>
        modify fun build =>
          let (file, build) := build.generatedFile "branch" []
          (build.emitLine ⟨lowered.frames, file.call⟩).setHooks {
            opening := [.pushFile file]
            closing := [.popFile, .popSelector] } : BuildM Unit) build =
      .ok () (build.guardingNext lowered.frames) := by
  rw [bind_of_ok (modify_apply _ build)]
  dsimp only
  rw [bind_of_ok (get_apply _)]
  have next : (build.pushSelector .self).nextBlockSize? = build.nextBlockSize? := rfl
  rw [next]
  unfold guardingNext
  rcases build.nextBlockSize? with _ | _ | _ | size <;> rfl

theorem ends_guardNext {lowered : LoweredChain} (locals : AreLocalLines lowered.setup) :
    Ends mirror .plain (guardNext lowered) (guardNext lowered) := by
  intro before
  apply leadsAt_get
  apply LeadsAt.check
  apply (follows_emitSetup locals before).bind
  intro _ middle _ value after run
  cases (guardingNext_apply lowered middle).symm.trans run
  refine ⟨middle, .refl, middle.finish_guardingNext _, fun _ => ?_⟩
  rw [← guardingNext_onto]
  exact guardingNext_apply lowered _

/-- A body without statements is left out; any other one is dealt with as follows. -/
theorem LeadsAt.skipEmptyBody {next nextOther : BuildM Unit}
    (ends : EndsAt mirror .plain before next nextOther) :
    EndsAt mirror .plain before
      (skipEmptyBody >>= fun skipped => if skipped = true then pure () else next)
      (skipEmptyBody >>= fun skipped => if skipped = true then pure () else nextOther) := by
  intro value after run
  by_cases isEmpty : before.nextBlockSize? = some 0
  · rw [bind_of_ok (skipEmptyBody_of_empty isEmpty)] at run
    cases run
    refine ⟨before, .refl, .leaveOut (Build.nextIsBlock_of_size isEmpty), fun _ => ?_⟩
    have emptyOnto : (before.onto mirror.ground).nextBlockSize? = some 0 := isEmpty
    rw [bind_of_ok (skipEmptyBody_of_empty emptyOnto)]
    rfl
  · rw [bind_of_ok (skipEmptyBody_of_body isEmpty)] at run
    obtain ⟨middle, trace, finish, mirrored⟩ := ends value after run
    refine ⟨middle, trace, finish, fun followed => ?_⟩
    have notEmpty : (before.onto mirror.ground).nextBlockSize? ≠ some 0 := isEmpty
    rw [bind_of_ok (skipEmptyBody_of_body notEmpty)]
    exact mirrored followed

theorem follows_emitKeeping {line : Line} (isLocal : line.command.called? = none) :
    Follows mirror (modify (·.emitKeeping line)) (modify (·.emitKeeping line) : BuildM PUnit) := by
  intro before
  have locals : AreLocalLines [line] := areLocalLines_cons.2 ⟨isLocal, areLocalLines_nil⟩
  exact followsAt_modify (effects_emitBatchKeeping "" (locals.calls before)) rfl

theorem guarding_closes :
    Guarding (Mirrors mirror) (Closes mirror) fun lowered => AreLocalLines lowered.setup where
  ofFail := fun _ => (follows_fail _).ends
  ofGet := following.ofGetLast
  bind := following.bindLast
  ofRemember := fun _ ends => Leads.bind (follows_modify (fun _ => .of_board rfl rfl)
    (fun _ => ⟨rfl, rfl⟩) fun _ => rfl) fun _ => ends
  ofEmitKeeping := follows_emitKeeping
  ofEmitSetup := follows_emitSetup
  ofLowerChain := fun _ => (gives_lowerChain _).leads (following.ofLowerChain _)
  ofSkipEmptyBody := fun ends before => LeadsAt.skipEmptyBody (ends before)
  ofGuardNext := ends_guardNext

end BuildM

end ScriptPack
