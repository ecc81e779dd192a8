import ScriptPack.Proofs.Coverage
import ScriptPack.Proofs.Declarations

/-!
Evaluating and writing, taken apart into effects. The arguments of a statement and the chain of a
condition are evaluated by computations on counters, whose commands are written under the waiting
frames.
-/

namespace ScriptPack

open Build List

namespace BuildM

variable {α β : Type} {mirror : Mirror} {before : Build} {command : Command}
  {commands : List Command} {computation : CounterM (List Command)} {step : BuildM α}

section Counters

variable {computation : CounterM α} {holds : α → Prop}

theorem follows_counters (yields : computation.Yields holds) :
    Follows mirror (counters computation) (counters computation) := by
  intro before
  apply followsAt_of_effects
  intro value after run
  obtain ⟨board, computed, rfl⟩ := counters_eq_ok_iff.1 run
  refine ⟨.aside ⟨rfl, (yields.of_ok computed).1⟩ rfl rfl, ?_⟩
  exact counters_eq_ok_iff.2 ⟨board, computed, rfl⟩

end Counters

/-! Writing commands. -/

theorem followsAt_emitBatch {lines : List Line} (word : String) (inPlace : Bool)
    (calls : before.Calls lines) :
    FollowsAt mirror before (modify fun build => build.emitBatch lines word inPlace)
      (modify fun build => build.emitBatch lines word inPlace : BuildM PUnit) := by
  refine followsAt_modify ?_ (emitBatch_onto _ _ _ _ _)
  have effects := @effects_emitBatch mirror.mayLeak before lines [] word inPlace calls
    fun _ => .inl rfl
  rwa [append_nil] at effects

theorem followsAt_emit (calls : ∀ path, command.called? = some path → before.Callable path) :
    FollowsAt mirror before (emit command) (emit command) :=
  @followsAt_emitBatch mirror before [.plain command] "" false
    (calls_plain (forall_mem_singleton.2 calls))

/-- Commands for the selected entities. Without commands, the frames that align them stay. -/
theorem followsAt_emitAllSelected
    (calls : ∀ command ∈ commands, ∀ path, command.called? = some path → before.Callable path)
    (used : commands = [] → before.active.alignment = [] ∨ mirror.mayLeak) (word : String) :
    FollowsAt mirror before (emitAllSelected commands word) (emitAllSelected commands word) := by
  apply followsAt_of_effects
  intro value after run
  have written (build : Build) : emitAllSelected commands word build =
      .ok () (build.align.emitBatch (commands.map .plain) word false).popSelector := rfl
  rw [written, popSelector_emitBatch_align] at run
  cases run
  refine ⟨effects_emitBatch word false (calls_plain calls) ?_, ?_⟩
  · exact fun isEmpty => used (map_eq_nil_iff.1 isEmpty)
  · rw [written, popSelector_emitBatch_align, ← emitBatch_onto]
    rfl

theorem followsAt_emitSelected (calls : ∀ path, command.called? = some path → before.Callable path) :
    FollowsAt mirror before (emitSelected command) (emitSelected command) :=
  @followsAt_emitAllSelected mirror before [command] (forall_mem_singleton.2 calls) nofun ""

theorem follows_emitAll (locals : AreLocal commands) (word : String) :
    Follows mirror (emitAll commands word) (emitAll commands word) :=
  fun before => followsAt_emitBatch word false (locals.calls before)

theorem follows_emitAllSelected (locals : AreLocal commands) (nonempty : commands ≠ [])
    (word : String) :
    Follows mirror (emitAllSelected commands word) (emitAllSelected commands word) := by
  intro before
  refine followsAt_emitAllSelected (fun command member path called => ?_)
    (fun isEmpty => absurd isEmpty nonempty) word
  exact absurd ((locals command member).symm.trans called) nofun

theorem followsAt_emitComputation
    (yields : computation.Yields fun commands => ∀ command ∈ commands, ∀ path,
      command.called? = some path → before.Callable path)
    (word : String) :
    FollowsAt mirror before (emitComputation computation word) (emitComputation computation word) := by
  apply (follows_counters yields before).bind
  intro commands middle run
  obtain ⟨board, computed, rfl⟩ := counters_eq_ok_iff.1 run
  have calls := (yields.of_ok computed).2
  refine followsAt_modify (effects_emitBatchKeeping word ?_) (emitBatchKeeping_onto _ _ _ _)
  intro line member path called
  obtain ⟨command, isCommand, rfl⟩ := mem_map.1 member
  exact calls command isCommand path called

theorem follows_emitComputation (yields : computation.Yields AreLocal) (word : String) :
    Follows mirror (emitComputation computation word) (emitComputation computation word) :=
  fun _ => followsAt_emitComputation (yields.mono fun _ locals command member _ called =>
    absurd ((locals command member).symm.trans called) nofun) word

/-! Calling routines. -/

theorem callable_of_find? {name : String} {routine : Routine}
    (found : before.routines.find? (·.hasName name) = some routine) :
    before.Callable routine.file :=
  .inl (mem_map_of_mem (mem_of_find?_eq_some found))

theorem follows_evaluateCall (name : String) (arguments : List Operand) :
    Follows mirror (evaluateCall name arguments) (evaluateCall name arguments) := by
  intro before
  apply leadsAt_get
  apply (follows_orFail _ _ before).bind
  intro routine middle found
  obtain ⟨isRoutine, rfl⟩ := orFail_eq_ok_iff.1 found
  apply LeadsAt.check
  apply (follows_orFail _ _ _).bind
  intro result middle found
  obtain ⟨-, rfl⟩ := orFail_eq_ok_iff.1 found
  refine (followsAt_emitComputation ?_ _).bind fun _ later _ => ?_
  · refine (routine.yields_callCommands _ _).mono fun commands calls command member path called => ?_
    rw [calls.2 command member path called]
    exact callable_of_find? isRoutine
  · refine Leads.bind (follows_counters (.temporary trivial)) (fun copy => ?_) later
    exact (follows_emitComputation (Counter.yields_assign _ _ _ _) _).bind fun _ => follows_pure _

/-! Composing. -/

theorem leads_read {next : Build → BuildM α} {finish : Build → Build → Prop}
    (same : ∀ build : Build, next (build.onto mirror.ground) = next build)
    (leads : ∀ build, Leads mirror finish (next build) (next build)) :
    Leads mirror finish (get >>= next) (get >>= next) :=
  fun before => leadsAt_get ((same before).symm ▸ leads before before)

def Mirrors (mirror : Mirror) (step : BuildM α) : Prop :=
  Follows mirror step step

def Closes (mirror : Mirror) (step : BuildM α) : Prop :=
  Ends mirror .plain step step

theorem Closes.map (closes : Closes mirror step) {f : α → β} :
    Closes mirror (step >>= fun value => pure (f value)) := by
  intro before result after run
  obtain ⟨value, middle, ran, ⟨⟩⟩ := bind_eq_ok_iff.1 run
  obtain ⟨last, trace, finish, mirrored⟩ := closes before value _ ran
  exact ⟨last, trace, finish, fun followed => bind_eq_ok_iff.2 ⟨_, _, mirrored followed, rfl⟩⟩

theorem mirrors_unseen (unseen : ∀ build : Build, build.Unseen (final step build))
    (groundless : step.IsGroundless) : Mirrors mirror step := by
  intro before
  apply followsAt_of_effects
  intro value after run
  have same := unseen before
  rw [final_of_ok run] at same
  exact ⟨.aside (.of_board same.core same.board) same.upcoming same.unreachable, groundless _ _ _ _ run⟩

/-- Following oneself is closed under composing, and holds of the elementary steps. -/
theorem following : Writing (Mirrors mirror) (Closes mirror) where
  ofPure := follows_pure
  ofThrow := fun _ _ => followsAt_throws rfl
  ofGet := fun same => leads_read fun build => same build _
  ofGetLast := fun same => leads_read fun build => same build _
  bind := Leads.bind
  bindLast := Leads.bind
  mapLast := fun closes => closes.map
  last := Leads.ends
  unseen := mirrors_unseen
  ofCounters := follows_counters
  ofKeepTemporaries := follows_modifyScoreboard Scoreboard.headGrows_keepTemporaries
  ofComputation := follows_emitComputation
  ofCall := follows_evaluateCall
  ofDeclare := fun _ => follows_modifyScoreboard fun board => board.headGrows_declare _
  ofLimit := fun _ => follows_modify (fun _ => .of_board rfl rfl) (fun _ => ⟨rfl, rfl⟩) fun _ => rfl
  ofEmitBatch := fun locals word inPlace before =>
    (followsAt_emitBatch word inPlace (locals.calls before)).ends
  ofEmitAllSelected := fun locals nonempty word => (follows_emitAllSelected locals nonempty word).ends
  ofEmitUnder := by
    intro commands locals nonempty frame word before
    apply LeadsAt.ends
    apply followsAt_of_effects
    rintro value after ⟨⟩
    constructor
    · exact effects_emitBatch _ _ (locals.calls before) fun isEmpty =>
        absurd (map_eq_nil_iff.1 isEmpty) nonempty
    · rw [← emitBatch_onto]
      rfl

end BuildM

end ScriptPack
