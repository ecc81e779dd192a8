import ScriptPack.Proofs.Effects

/-!
Steps taken apart into effects, and side by side with the same steps on deeper stacks. A step that
never reaches below its own part of the stacks does the same on top of any other selectors and
files. Steps that run lists of statements are followed where the lists are.
-/

namespace ScriptPack

open Build List

variable {problem : Problem} {condition : Prop} {change : Build → Build}

/-- What the stacks may stand on: selectors and files that are no bodies of routines. -/
structure Ground where
  selectors : List Selector := []
  files : List CommandFile := []
  noRoutine : ∀ file ∈ files, file.routine = none

def Ground.none : Ground :=
  ⟨[], [], forall_mem_nil _⟩

namespace Build

def onto (build : Build) (ground : Ground) : Build :=
  { build with
    outerSelectors := build.outerSelectors ++ ground.selectors
    outerFiles := build.outerFiles ++ ground.files }

theorem onto_none (build : Build) : build.onto .none = build := by
  simp [onto, Ground.none]

theorem currentRoutine?_onto (build : Build) (ground : Ground) :
    (build.onto ground).currentRoutine? = build.currentRoutine? := by
  have noRoutine : ground.files.findSome? (·.routine) = none :=
    findSome?_eq_none_iff.2 ground.noRoutine
  change (build.file :: (build.outerFiles ++ ground.files)).findSome? _ = _
  rw [← cons_append, findSome?_append, noRoutine, Option.or_none]
  rfl

variable {build : Build}

theorem popSelector_onto (isInner : build.outerSelectors ≠ []) (ground : Ground) :
    (build.onto ground).popSelector = build.popSelector.onto ground := by
  obtain ⟨selector, rest, outer⟩ := exists_cons_of_ne_nil isInner
  simp only [popSelector, onto, outer, cons_append]

theorem popFile_onto (isInner : build.outerFiles ≠ []) (ground : Ground) :
    (build.onto ground).popFile = build.popFile.onto ground := by
  obtain ⟨file, rest, outer⟩ := exists_cons_of_ne_nil isInner
  simp only [popFile, onto, outer, cons_append]

theorem emitBatchKeeping_onto (build : Build) (ground : Ground) (lines : List Line) (word : String) :
    (build.onto ground).emitBatchKeeping lines word =
      (build.emitBatchKeeping lines word).onto ground := by
  rcases lines with _ | ⟨first, _ | ⟨second, rest⟩⟩
  · rfl
  · rfl
  · unfold emitBatchKeeping
    have frames : (build.onto ground).frames = build.frames := rfl
    dsimp only
    rw [frames]
    split <;> rfl

theorem emitBatch_onto (build : Build) (ground : Ground) (lines : List Line) (word : String)
    (inPlace : Bool) : (build.onto ground).emitBatch lines word inPlace =
      (build.emitBatch lines word inPlace).onto ground := by
  rw [emitBatch_eq, emitBatch_eq, emitBatchKeeping_onto]
  cases inPlace <;> rfl

end Build

/-- Two ways to run lists of statements, of which the second shall do on top of the ground what the
first one does. -/
structure Mirror where
  run : List Statement → BuildM Unit
  follow : List Statement → BuildM Unit
  ground : Ground
  /-- Whether a statement may leave frames behind. -/
  mayLeak : Prop

namespace Mirror

variable (mirror : Mirror)

/-- A change inside a statement, or a whole list of statements that it runs. -/
def Step (before after : Build) : Prop :=
  Effect mirror.mayLeak before after ∨
    ∃ statements, mirror.run statements before = .ok () after

def Trace : Build → Build → Prop :=
  Relation.ReflTransGen mirror.Step

def IsFollowed (before after : Build) : Prop :=
  ∀ statements first last, mirror.Trace before first → mirror.run statements first = .ok () last →
    mirror.Trace last after →
    mirror.follow statements (first.onto mirror.ground) = .ok () (last.onto mirror.ground)

variable {mirror} {before middle after : Build}

theorem Trace.of_effects (effects : Effects mirror.mayLeak before after) :
    mirror.Trace before after :=
  Relation.ReflTransGen.mono (fun _ _ => Or.inl) _ _ effects

def still (mayLeak : Prop) : Mirror where
  run := fun _ => BuildM.fail .tooDeep
  follow := fun _ => BuildM.fail .tooDeep
  ground := .none
  mayLeak := mayLeak

theorem effects_of_still {mayLeak : Prop} (trace : (still mayLeak).Trace before after) :
    Effects mayLeak before after := by
  refine Relation.ReflTransGen.mono ?_ _ _ trace
  rintro first last (effect | ⟨statements, fails⟩)
  · exact effect
  · cases fails

theorem IsFollowed.left (followed : mirror.IsFollowed before after)
    (second : mirror.Trace middle after) : mirror.IsFollowed before middle :=
  fun statements first last reached ran rest =>
    followed statements first last reached ran (rest.trans second)

theorem IsFollowed.right (followed : mirror.IsFollowed before after)
    (first : mirror.Trace before middle) : mirror.IsFollowed middle after :=
  fun statements start last reached ran rest =>
    followed statements start last (first.trans reached) ran rest

end Mirror

namespace BuildM

variable {α β : Type}

/-- From this state, the step is a sequence of changes and a last one, and the other one follows. -/
def LeadsAt (mirror : Mirror) (finish : Build → Build → Prop) (before : Build)
    (step other : BuildM α) : Prop :=
  ∀ value after, step before = .ok value after → ∃ middle, mirror.Trace before middle ∧
    finish middle after ∧
    (mirror.IsFollowed before middle →
      other (before.onto mirror.ground) = .ok value (after.onto mirror.ground))

abbrev FollowsAt (mirror : Mirror) : Build → BuildM α → BuildM α → Prop :=
  LeadsAt mirror Eq

abbrev EndsAt (mirror : Mirror) (ending : Ending) : Build → BuildM α → BuildM α → Prop :=
  LeadsAt mirror (Finish ending)

def Leads (mirror : Mirror) (finish : Build → Build → Prop) (step other : BuildM α) : Prop :=
  ∀ before, LeadsAt mirror finish before step other

abbrev Follows (mirror : Mirror) : BuildM α → BuildM α → Prop :=
  Leads mirror Eq

abbrev Ends (mirror : Mirror) (ending : Ending) : BuildM α → BuildM α → Prop :=
  Leads mirror (Finish ending)

variable {mirror : Mirror} {finish : Build → Build → Prop} {ending : Ending} {before : Build}
  {step other : BuildM α} {next nextOther : α → BuildM β}

theorem LeadsAt.ends (follows : FollowsAt mirror before step other) :
    EndsAt mirror .plain before step other := by
  intro value after run
  obtain ⟨_, trace, rfl, mirrored⟩ := follows value after run
  exact ⟨_, trace, .done _, mirrored⟩

theorem LeadsAt.effects {mayLeak : Prop} {value : α} {after : Build}
    (follows : FollowsAt (.still mayLeak) before step other) (ran : step before = .ok value after) :
    Effects mayLeak before after := by
  obtain ⟨_, trace, rfl, -⟩ := follows value after ran
  exact Mirror.effects_of_still trace

theorem Leads.ends (follows : Follows mirror step other) : Ends mirror .plain step other :=
  fun before => (follows before).ends

theorem LeadsAt.bind (first : FollowsAt mirror before step other)
    (second : ∀ value middle, step before = .ok value middle →
      LeadsAt mirror finish middle (next value) (nextOther value)) :
    LeadsAt mirror finish before (step >>= next) (other >>= nextOther) := by
  intro result after run
  obtain ⟨value, middle, ran, continued⟩ := bind_eq_ok_iff.1 run
  obtain ⟨_, trace, rfl, mirrored⟩ := first value middle ran
  obtain ⟨last, traceLater, finishes, mirroredLater⟩ := second value _ ran result after continued
  -- lists that are followed in both parts are followed in each, since the other part is a trace
  refine ⟨last, trace.trans traceLater, finishes, fun followed => ?_⟩
  rw [bind_of_ok (mirrored (followed.left traceLater))]
  exact mirroredLater (followed.right trace)

theorem Leads.bind (first : Follows mirror step other)
    (second : ∀ value, Leads mirror finish (next value) (nextOther value)) :
    Leads mirror finish (step >>= next) (other >>= nextOther) :=
  fun before => (first before).bind fun value middle _ => second value middle

theorem followsAt_of_effects (changes : ∀ value after, step before = .ok value after →
      Effects mirror.mayLeak before after ∧
      other (before.onto mirror.ground) = .ok value (after.onto mirror.ground)) :
    FollowsAt mirror before step other := by
  intro value after run
  obtain ⟨effects, mirrored⟩ := changes value after run
  exact ⟨after, .of_effects effects, rfl, fun _ => mirrored⟩

theorem followsAt_modify (effects : Effects mirror.mayLeak before (change before))
    (mirrored : change (before.onto mirror.ground) = (change before).onto mirror.ground) :
    FollowsAt mirror before (modify change) (modify change : BuildM PUnit) := by
  apply followsAt_of_effects
  rintro _ after ⟨⟩
  exact ⟨effects, congrArg (EStateM.Result.ok PUnit.unit) mirrored⟩

theorem followsAt_modifyGet {change : Build → α × Build}
    (effects : Effects mirror.mayLeak before (change before).2)
    (mirrored : change (before.onto mirror.ground) =
      ((change before).1, (change before).2.onto mirror.ground)) :
    FollowsAt mirror before (modifyGet change) (modifyGet change : BuildM α) := by
  apply followsAt_of_effects
  intro value after run
  rw [modifyGet_apply] at run
  cases run
  refine ⟨effects, ?_⟩
  rw [modifyGet_apply, mirrored]

theorem follows_modify (aside : ∀ build : Build, build.Aside (change build))
    (same : ∀ build, (change build).upcoming = build.upcoming ∧
      (change build).unreachable = build.unreachable)
    (mirrored : ∀ build : Build, change (build.onto mirror.ground) = (change build).onto mirror.ground) :
    Follows mirror (modify change) (modify change : BuildM PUnit) :=
  fun before =>
    followsAt_modify (.aside (aside before) (same before).1 (same before).2) (mirrored before)

theorem endsAt_modify (finish : Finish ending before (change before))
    (mirrored : change (before.onto mirror.ground) = (change before).onto mirror.ground) :
    EndsAt mirror ending before (modify change) (modify change : BuildM PUnit) := by
  rintro _ after ⟨⟩
  exact ⟨before, .refl, finish, fun _ => congrArg (EStateM.Result.ok PUnit.unit) mirrored⟩

theorem follows_pure (value : α) : Follows mirror (pure value) (pure value) := by
  rintro before _ after ⟨⟩
  exact ⟨before, .refl, rfl, fun _ => rfl⟩

theorem followsAt_throws {error : Error} {last : Build} (fails : step before = .error error last) :
    FollowsAt mirror before step other := by
  intro value after run
  rw [fails] at run
  cases run

theorem follows_fail (problem : Problem) :
    Follows mirror (fail problem) (fail problem : BuildM α) :=
  fun before => followsAt_throws (fail_apply problem before)

theorem leadsAt_get {next nextOther : Build → BuildM α}
    (leads : LeadsAt mirror finish before (next before) (nextOther (before.onto mirror.ground))) :
    LeadsAt mirror finish before (get >>= next) (get >>= nextOther) := by
  intro value after run
  rw [bind_of_ok (get_apply before)] at run
  obtain ⟨middle, trace, finishes, mirrored⟩ := leads value after run
  refine ⟨middle, trace, finishes, fun followed => ?_⟩
  rw [bind_of_ok (get_apply _)]
  exact mirrored followed

theorem LeadsAt.check {next nextOther : PUnit → BuildM α} [Decidable condition]
    (leads : LeadsAt mirror finish before (next ⟨⟩) (nextOther ⟨⟩)) :
    LeadsAt mirror finish before (if condition then fail problem >>= next else next ⟨⟩)
      (if condition then fail problem >>= nextOther else nextOther ⟨⟩) := by
  split
  · intro value after run
    cases run
  · exact leads

theorem follows_orFail (problem : Problem) (found : Option α) :
    Follows mirror (orFail problem found) (orFail problem found) := by
  cases found with
  | none => exact follows_fail problem
  | some value => exact follows_pure value

theorem follows_ofExcept {ε : Type} (problem : ε → Problem) (outcome : Except ε α) :
    Follows mirror (ofExcept problem outcome) (ofExcept problem outcome) := by
  cases outcome with
  | error error => exact follows_fail (problem error)
  | ok value => exact follows_pure value

theorem environment_eq (computation : VariableM α) (build : Build) : environment computation build =
    match computation.run build.environment with
    | .ok value environment => .ok value { build with environment }
    | .error error environment =>
        .error (({ build with environment } : Build).failure (.environment error))
          { build with environment } := by
  unfold environment
  rw [bind_of_ok (get_apply build)]
  cases computation.run build.environment <;> rfl

theorem follows_modifyVariables (change : Variables → Variables) :
    Follows mirror (modifyVariables change) (modifyVariables change) :=
  follows_modify (fun _ => .of_board rfl rfl) (fun _ => ⟨rfl, rfl⟩) fun _ => rfl

theorem follows_modifyScoreboard {change : Scoreboard → Scoreboard}
    (grows : ∀ board : Scoreboard, board.HeadGrows (change board)) :
    Follows mirror (modifyScoreboard change) (modifyScoreboard change) :=
  follows_modify (fun build => ⟨rfl, grows build.scoreboard⟩) (fun _ => ⟨rfl, rfl⟩) fun _ => rfl

end BuildM

end ScriptPack
