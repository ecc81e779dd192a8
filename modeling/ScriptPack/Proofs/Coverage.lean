import ScriptPack.Proofs.DirectiveRules
import ScriptPack.Proofs.Emission

/-!
What statements write under waiting frames. A step keeps frames when all that it writes to the
current file stands under them and they still wait afterwards; it covers frames when all that it
writes stands under them and they may be used up. A covering step can only come last: evaluating
the arguments of a statement keeps the frames, and every statement that writes by itself ends with
one covering step.
-/

namespace ScriptPack

open Build CommandFile List

namespace Build

/-- What has been written to the current file between the two states stands under the frames, and
files have only been added in the folder of generated ones. -/
structure CoveredBy (frames : List Frame) (before after : Build) : Prop where
  lines : ∃ lines, after.file = before.file.append lines ∧ ∀ line ∈ lines, frames <+: line.frames
  files : ∃ files, after.pack.files = before.pack.files ++ files ∧
    ∀ file ∈ files, file.folder = some generatedFolder
  outer : after.outerFiles = before.outerFiles

/-- All is written under the frames, and the same pops of selectors are scheduled. -/
structure WritesUnder (frames : List Frame) (before after : Build) : Prop
    extends CoveredBy frames before after where
  pops : after.pendingPops = before.pendingPops

/-- Nothing has been written, and the same frames wait. -/
structure SameOutput (before after : Build) : Prop where
  file : after.file = before.file
  files : after.pack.files = before.pack.files
  outer : after.outerFiles = before.outerFiles
  pops : after.pendingPops = before.pendingPops
  frames : after.frames = before.frames

variable {frames : List Frame} {before middle after : Build}

theorem SameOutput.refl (build : Build) : build.SameOutput build :=
  ⟨rfl, rfl, rfl, rfl, rfl⟩

theorem SameWork.sameOutput (same : before.SameWork after) : before.SameOutput after :=
  ⟨same.file, same.files, same.outer, same.pops, same.frames⟩

theorem SameOutput.writesUnder (same : before.SameOutput after) (frames : List Frame) :
    before.WritesUnder frames after where
  lines := ⟨[], by rw [same.file, append, append_nil], forall_mem_nil _⟩
  files := ⟨[], by rw [same.files, append_nil], forall_mem_nil _⟩
  outer := same.outer
  pops := same.pops

theorem CoveredBy.trans (first : before.CoveredBy frames middle)
    (second : middle.CoveredBy frames after) : before.CoveredBy frames after where
  lines := by
    obtain ⟨lines, file, under⟩ := first.lines
    obtain ⟨others, otherFile, othersUnder⟩ := second.lines
    refine ⟨lines ++ others, ?_, forall_mem_append.2 ⟨under, othersUnder⟩⟩
    rw [otherFile, file, append, append, append, append_assoc]
  files := by
    obtain ⟨files, added, generated⟩ := first.files
    obtain ⟨others, othersAdded, othersGenerated⟩ := second.files
    refine ⟨files ++ others, ?_, forall_mem_append.2 ⟨generated, othersGenerated⟩⟩
    rw [othersAdded, added, append_assoc]
  outer := second.outer.trans first.outer

theorem WritesUnder.trans (first : before.WritesUnder frames middle)
    (second : middle.WritesUnder frames after) : before.WritesUnder frames after :=
  ⟨first.toCoveredBy.trans second.toCoveredBy, second.pops.trans first.pops⟩

theorem writesUnder_write {lines : List Line} (under : ∀ line ∈ lines, frames <+: line.frames) :
    before.WritesUnder frames (before.write lines) where
  lines := ⟨lines, rfl, under⟩
  files := ⟨[], (append_nil _).symm, forall_mem_nil _⟩
  outer := rfl
  pops := rfl

/-- The state has only grown by lines under all waiting frames, generated files and counters. -/
def GrowsTo (before after : Build) : Prop :=
  ∃ lines files session board, after = before.grown lines files session board ∧
    (∀ line ∈ lines, before.frames <+: line.frames) ∧
    ∀ file ∈ files, file.folder = some generatedFolder

theorem GrowsTo.refl (build : Build) : build.GrowsTo build :=
  ⟨[], [], build.session, build.scoreboard, build.grown_nil.symm, forall_mem_nil _,
    forall_mem_nil _⟩

theorem GrowsTo.trans (first : before.GrowsTo middle) (second : middle.GrowsTo after) :
    before.GrowsTo after := by
  obtain ⟨lines, files, session, board, rfl, under, generated⟩ := first
  obtain ⟨others, otherFiles, later, last, rfl, othersUnder, othersGenerated⟩ := second
  refine ⟨lines ++ others, files ++ otherFiles, later, last, grown_grown _ _ _ _ _ _ _ _ _, ?_, ?_⟩
  · exact forall_mem_append.2 ⟨under, othersUnder⟩
  · exact forall_mem_append.2 ⟨generated, othersGenerated⟩

theorem GrowsTo.writesUnder (grows : before.GrowsTo after) (waiting : frames <+: before.frames) :
    before.WritesUnder frames after ∧ frames <+: after.frames := by
  obtain ⟨lines, files, session, board, rfl, under, generated⟩ := grows
  refine ⟨⟨⟨⟨lines, rfl, ?_⟩, ⟨files, rfl, generated⟩, rfl⟩, rfl⟩, waiting⟩
  exact fun line member => waiting.trans (under line member)

theorem growsTo_emitBatchKeeping (build : Build) (lines : List Line) (word : String) :
    build.GrowsTo (build.emitBatchKeeping lines word) := by
  have under (line : Line) : build.frames <+: (line.within build.frames).frames :=
    prefix_append _ _
  rcases lines with _ | ⟨first, _ | ⟨second, rest⟩⟩
  · exact .refl build
  · refine ⟨[first.within build.frames], [], build.session, build.scoreboard, ?_,
      forall_mem_singleton.2 (under first), forall_mem_nil _⟩
    simp [emitBatchKeeping, emitKeeping, write, grown]
  · by_cases noFrames : build.frames = []
    · refine ⟨first :: second :: rest, [], build.session, build.scoreboard, ?_, ?_,
        forall_mem_nil _⟩
      · simp [emitBatchKeeping, noFrames, write, grown]
      · rw [noFrames]
        exact fun _ _ => nil_prefix
    · let name := (build.session.generateName word).1
      let file := generated name (first :: second :: rest)
      refine ⟨[(Line.plain file.call).within build.frames], [file],
        (build.session.generateName word).2, build.scoreboard, ?_,
        forall_mem_singleton.2 (under _), forall_mem_singleton.2 rfl⟩
      simp [emitBatchKeeping, noFrames, factorOut, generatedFile, Pack.addFile, emitKeeping, write,
        grown, file, name]

theorem writesUnder_emitBatch (waiting : frames <+: before.frames) (lines : List Line)
    (word : String) (inPlace : Bool) :
    before.WritesUnder frames (before.emitBatch lines word inPlace) := by
  have written : before.WritesUnder frames
      (if inPlace then before.write (lines.map (·.within before.frames))
        else before.emitBatchKeeping lines word) := by
    split
    · apply writesUnder_write
      intro line member
      obtain ⟨inner, -, rfl⟩ := mem_map.1 member
      exact waiting.trans (prefix_append _ _)
    · exact ((before.growsTo_emitBatchKeeping lines word).writesUnder waiting).1
  rw [emitBatch_eq]
  exact ⟨⟨written.lines, written.files, written.outer⟩, written.pops⟩

end Build

namespace BuildM

variable {α β : Type}
variable {before : Build} {step : BuildM α} {next : α → BuildM β} {change : Build → Build}

/-- From this state, the step writes under waiting frames only and leaves them waiting. -/
def KeepsAt (before : Build) (step : BuildM α) : Prop :=
  ∀ value after, step before = .ok value after → ∀ frames, frames <+: before.frames →
    before.WritesUnder frames after ∧ frames <+: after.frames

def CoversAt (before : Build) (step : BuildM α) : Prop :=
  ∀ value after, step before = .ok value after → ∀ frames, frames <+: before.frames →
    before.WritesUnder frames after

def Keeps (step : BuildM α) : Prop :=
  ∀ before, KeepsAt before step

def Covers (step : BuildM α) : Prop :=
  ∀ before, CoversAt before step

theorem Keeps.covers (keeps : Keeps step) : Covers step :=
  fun before value after run frames waiting => (keeps before value after run frames waiting).1

theorem KeepsAt.bind {before : Build} (first : KeepsAt before step)
    (second : ∀ value middle, step before = .ok value middle → KeepsAt middle (next value)) :
    KeepsAt before (step >>= next) := by
  intro result after run frames waiting
  obtain ⟨value, middle, ran, continued⟩ := bind_eq_ok_iff.1 run
  obtain ⟨written, stillWaiting⟩ := first value middle ran frames waiting
  obtain ⟨writtenLater, lastWaiting⟩ :=
    second value middle ran result after continued frames stillWaiting
  exact ⟨written.trans writtenLater, lastWaiting⟩

theorem KeepsAt.bindCovers (first : KeepsAt before step)
    (second : ∀ value middle, step before = .ok value middle → CoversAt middle (next value)) :
    CoversAt before (step >>= next) := by
  intro result after run frames waiting
  obtain ⟨value, middle, ran, continued⟩ := bind_eq_ok_iff.1 run
  obtain ⟨written, stillWaiting⟩ := first value middle ran frames waiting
  exact written.trans (second value middle ran result after continued frames stillWaiting)

theorem Keeps.bind (first : Keeps step) (second : ∀ value, Keeps (next value)) :
    Keeps (step >>= next) :=
  fun before => (first before).bind fun value middle _ => second value middle

theorem Keeps.bindCovers (first : Keeps step) (second : ∀ value, Covers (next value)) :
    Covers (step >>= next) :=
  fun before => (first before).bindCovers fun value middle _ => second value middle

theorem keepsAt_of_same
    (same : ∀ value after, step before = .ok value after → before.SameOutput after) :
    KeepsAt before step := by
  intro value after run frames waiting
  have sameOutput := same value after run
  exact ⟨sameOutput.writesUnder frames, sameOutput.frames ▸ waiting⟩

/-- Evaluating only writes under all waiting frames, and changes no more than counters. -/
def Grows (step : BuildM α) : Prop :=
  ∀ before value after, step before = .ok value after → before.GrowsTo after

theorem Grows.keeps (grows : Grows step) : Keeps step :=
  fun before value after run _ waiting => (grows before value after run).writesUnder waiting

theorem Grows.bind (first : Grows step) (second : ∀ value, Grows (next value)) :
    Grows (step >>= next) := by
  intro before result after run
  obtain ⟨value, middle, ran, continued⟩ := bind_eq_ok_iff.1 run
  exact (first before value middle ran).trans (second value middle result after continued)

theorem grows_pure (value : α) : Grows (pure value : BuildM α) := by
  rintro before _ after ⟨⟩
  exact .refl before

theorem grows_get : Grows (get : BuildM Build) := by
  rintro before _ after ⟨⟩
  exact .refl before

theorem grows_counters (computation : CounterM α) : Grows (counters computation) := by
  intro before value after run
  obtain ⟨board, -, rfl⟩ := counters_eq_ok_iff.1 run
  refine ⟨[], [], before.session, board, ?_, forall_mem_nil _, forall_mem_nil _⟩
  simp [grown, append]

theorem grows_modifyScoreboard (change : Scoreboard → Scoreboard) :
    Grows (modifyScoreboard change) := by
  rintro before _ after ⟨⟩
  refine ⟨[], [], before.session, change before.scoreboard, ?_, forall_mem_nil _, forall_mem_nil _⟩
  simp [grown, append]

theorem grows_emitAligned (commands : List Command) (word : String) :
    Grows (modify (·.emitAligned commands word) : BuildM PUnit) := by
  rintro before _ after ⟨⟩
  exact growsTo_emitBatchKeeping before _ word

theorem growing_closed : Closed Grows Grows where
  ofPure := grows_pure
  ofThrow := fun _ _ _ _ run => nomatch run
  ofGet := fun _ => grows_get.bind
  ofGetLast := fun _ => grows_get.bind
  bind := Grows.bind
  bindLast := Grows.bind
  mapLast := fun grows => grows.bind fun _ => grows_pure _
  last := id

theorem growing : Evaluating Grows Grows where
  toClosed := growing_closed
  ofCounters := fun _ => grows_counters _
  ofKeepTemporaries := grows_modifyScoreboard _
  ofComputation := growing_closed.ofEmitComputation (fun _ => grows_counters _) grows_emitAligned
  ofCall := growing_closed.ofEvaluateCall (fun _ => grows_counters _) grows_emitAligned

theorem keeps_pure (value : α) : Keeps (pure value : BuildM α) :=
  (grows_pure value).keeps

theorem keeps_get : Keeps (get : BuildM Build) :=
  grows_get.keeps

theorem keeps_modify (same : ∀ build : Build, build.SameOutput (change build)) :
    Keeps (modify change : BuildM PUnit) := by
  intro before
  apply keepsAt_of_same
  rintro _ after ⟨⟩
  exact same before

theorem keeps_modifyGet {change : Build → α × Build}
    (same : ∀ build : Build, build.SameOutput (change build).2) : Keeps (modifyGet change : BuildM α) := by
  intro before
  apply keepsAt_of_same
  intro value after run
  rw [modifyGet_apply] at run
  cases run
  exact same before

theorem keeps_modifyScoreboard (change : Scoreboard → Scoreboard) :
    Keeps (modifyScoreboard change) :=
  (grows_modifyScoreboard change).keeps

theorem Covers.andThen (covers : Covers step)
    (same : ∀ build : Build, build.SameOutput (change build)) :
    Covers (step >>= fun _ => (modify change : BuildM PUnit)) := by
  intro before result after run frames waiting
  obtain ⟨value, middle, ran, continued⟩ := bind_eq_ok_iff.1 run
  cases continued
  exact (covers before value middle ran frames waiting).trans ((same middle).writesUnder frames)

theorem covers_emitBatch (lines : List Line) (word : String) (inPlace : Bool) :
    Covers (modify (·.emitBatch lines word inPlace) : BuildM PUnit) := by
  rintro before _ after ⟨⟩ frames waiting
  exact writesUnder_emitBatch waiting _ word inPlace

theorem keeps_align : Keeps (modify align : BuildM PUnit) := by
  rintro before _ after ⟨⟩ frames waiting
  unfold align
  split
  · have longer : frames <+: before.frames ++ [.under before.active] :=
      waiting.trans (prefix_append _ _)
    refine ⟨?_, longer⟩
    obtain ⟨⟨lines, files, outer⟩, pops⟩ := (SameOutput.refl before).writesUnder frames
    exact ⟨⟨lines, files, outer⟩, pops⟩
  · refine ⟨SameOutput.writesUnder ?_ frames, waiting⟩
    exact ⟨rfl, rfl, rfl, rfl, rfl⟩

theorem keeps_sharedFile (name : String) (commands : List Command) :
    Keeps (modifyGet fun build => build.sharedFile name commands : BuildM Command) := by
  intro before value after run frames waiting
  rw [modifyGet_apply] at run
  cases run
  unfold sharedFile
  dsimp only
  split
  · refine ⟨⟨⟨⟨[], ?_, forall_mem_nil _⟩, ⟨_, rfl, ?_⟩, rfl⟩, rfl⟩, waiting⟩
    · rw [append, append_nil]
    · exact forall_mem_singleton.2 rfl
  · refine ⟨SameOutput.writesUnder ?_ frames, waiting⟩
    exact ⟨rfl, rfl, rfl, rfl, rfl⟩

theorem keeps_addFrames (added : List Frame) : Keeps
    (modify fun build => { build with frames := build.frames ++ added } : BuildM PUnit) := by
  rintro before _ after ⟨⟩ frames waiting
  refine ⟨?_, waiting.trans (prefix_append _ _)⟩
  obtain ⟨⟨lines, files, outer⟩, pops⟩ := (SameOutput.refl before).writesUnder frames
  exact ⟨⟨lines, files, outer⟩, pops⟩

/-- An error is thrown again, so that what succeeds has made no last change. -/
theorem Keeps.recover (keeps : Keeps step) (change : Build → Build) :
    Keeps (tryCatch step fun error => do
      modify change
      throw error) :=
  fun before value after ran => keeps before value after (recover_eq_ok_iff.1 ran)

/-- Keeping frames is closed under composing, a covering step comes last, and a step that nothing
notices writes nothing. -/
theorem covering_unconcerned : Unconcerned Keeps Covers where
  ofPure := keeps_pure
  ofThrow := fun _ _ _ _ run => nomatch run
  ofGet := fun _ => keeps_get.bind
  ofGetLast := fun _ => keeps_get.bindCovers
  bind := Keeps.bind
  bindLast := Keeps.bindCovers
  mapLast := by
    intro α β step f covers before result after run
    obtain ⟨value, middle, ran, ⟨⟩⟩ := bind_eq_ok_iff.1 run
    exact covers before value _ ran
  last := Keeps.covers
  unseen := by
    intro α step unseen _ before
    apply keepsAt_of_same
    intro value after run
    exact final_of_ok run ▸ (unseen before).sameWork.sameOutput

theorem covering : Changing Keeps Covers where
  toUnconcerned := covering_unconcerned
  ofCounters := fun _ => (grows_counters _).keeps
  ofKeepTemporaries := growing.ofKeepTemporaries.keeps
  ofComputation := fun yields word => (growing.ofComputation yields word).keeps
  ofCall := fun name arguments => (growing.ofCall name arguments).keeps
  ofDeclare := fun _ => keeps_modifyScoreboard _
  ofChange := fun same => keeps_modify fun build => (same build).sameOutput
  ofChangeGet := fun same => keeps_modifyGet fun build => (same build).sameOutput
  ofAddFrames := keeps_addFrames
  ofShare := keeps_sharedFile
  ofAlign := keeps_align
  ofRecover := fun keeps => keeps.recover _
  ofEmitBatch := covers_emitBatch
  andChange := fun covers same => covers.andThen fun build => (same build).sameOutput

theorem keeps_runChosen (chosen : Bool) : Keeps (runChosen chosen) := by
  apply keeps_modify
  intro build
  split_ifs <;> exact ⟨rfl, rfl, rfl, rfl, rfl⟩

theorem keeps_takeStatement? : Keeps takeStatement? := by
  apply keeps_modifyGet
  intro build
  split
  · exact .refl build
  · exact ⟨rfl, rfl, rfl, rfl, rfl⟩

end BuildM

def Directive.runsLists : Directive → Bool
  | repeatBody | iterate | template | includeFile => true
  | _ => false

def Directive.isCondition : Directive → Bool
  | condition | otherwise => true
  | _ => false

open ArgumentM BuildM in
/-- Each directive that neither runs lists nor is a condition ends with at most one step that
writes. -/
theorem ArgumentM.covers_runDirective {run : Runner} {directive : Directive}
    (runsNone : directive.runsLists = false) (notCondition : directive.isCondition = false) :
    Over Covers (runDirective run directive) := by
  by_cases bodiless : directive.governs = false
  · exact covering.ofRunDirective bodiless
  cases directive with
  | whenValues =>
    exact covering.ofRunWhenValues (fun chosen => (keeps_runChosen chosen).covers) fun _ =>
      keeps_modify fun _ => ⟨rfl, rfl, rfl, rfl, rfl⟩
  | otherwiseValues =>
    exact covering.liftLast
      (covering.ofRunOtherwiseValues fun chosen => (keeps_runChosen chosen).covers)
  | record =>
    exact covering.overLast (covering.ofRunRecord keeps_takeStatement? fun _ =>
      keeps_modifyScoreboard _)
  | repeatBody | iterate | template | includeFile => cases runsNone
  | condition | otherwise => cases notCondition
  | _ => exact absurd rfl bodiless

end ScriptPack
