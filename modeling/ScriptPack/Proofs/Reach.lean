import ScriptPack.Proofs.Scope

/-!
How far a condition reaches. By induction on the depth of lists that run in place, its frames get to
one statement that uses them up; a condition on the way adds its own. So the other statements of a
template, of an included script or of a repetition, and what stands in a block that the statement
opens, are not under the condition.
-/

namespace ScriptPack

open Build BuildM List Statement

variable {chain : List Comparison}

/-- Lines written under further frames, where only those from before stay. -/
theorem Build.growsTo_emitBatch (build : Build) {frames : List Frame}
    (longer : build.frames <+: frames) (lines : List Line) (word : String) :
    build.GrowsTo
      { ({ build with frames } : Build).emitBatch lines word false with frames := build.frames } := by
  obtain ⟨written, files, session, board, grown, under, generated⟩ :=
    ({ build with frames } : Build).growsTo_emitBatchKeeping lines word
  refine ⟨written, files, session, board, ?_, fun line member => longer.trans (under line member),
    generated⟩
  rw [emitBatch_eq, if_neg Bool.false_ne_true, grown]
  rfl

namespace BuildM

theorem lowerOnto_frames {lowered result : LoweredChain} {before after : Build}
    (ran : lowerOnto lowered chain before = .ok result after) :
    lowered.frames.length + chain.length ≤ result.frames.length := by
  induction chain generalizing lowered before with
  | nil =>
    cases ran
    exact Nat.le_refl _
  | cons comparison rest ih =>
    obtain ⟨part, middle, -, continued⟩ := bind_eq_ok_iff.1 ran
    have bound := ih continued
    rw [length_append, length_singleton] at bound
    rw [length_cons]
    omega

theorem lowerChain_frames_ne_nil {result : LoweredChain} {before after : Build}
    (nonempty : chain ≠ []) (ran : lowerChain chain before = .ok result after) : result.frames ≠ [] := by
  unfold lowerChain at ran
  rw [bind_of_ok (get_apply before)] at ran
  have bound := lowerOnto_frames ran
  have positive : 0 < chain.length := length_pos_iff.2 nonempty
  exact length_pos_iff.1 (by omega)

theorem grows_emitSetup (lowered : LoweredChain) : Grows (emitSetup lowered) := by
  obtain ⟨setup, setupFrames, chainFrames⟩ := lowered
  rintro before _ after ⟨⟩
  rcases setup with _ | ⟨first, rest⟩
  · exact .refl before
  · by_cases unmoved : setupFrames = []
    · simp only [unmoved, isEmpty_cons, isEmpty_nil, Bool.false_eq_true, if_false, if_true]
      exact growsTo_emitBatchKeeping before _ _
    · simp only [isEmpty_cons, isEmpty_eq_false_iff.2 unmoved, Bool.false_eq_true, if_false]
      exact growsTo_emitBatch before (prefix_append _ _) _ _

end BuildM

namespace Build

/-- All that has been written stands under the waiting frames, which still wait for the same
statements. -/
structure LeadsTo (before after : Build) : Prop where
  writes : before.WritesUnder before.frames after
  frames : after.frames = before.frames
  upcoming : after.upcoming = before.upcoming

/-- A file is called under the frames, and takes the inside of the block that is next. -/
structure CallsBranch (frames : List Frame) (build : Build) (file : CommandFile) : Prop where
  called : ∃ line ∈ build.file.lines, frames <+: line.frames ∧ line.command = file.call
  opening : build.pendingBlock = some {
    opening := [.pushFile file]
    closing := [.popFile, .popSelector] }
  used : build.frames = []

/-- The statements from the body of a condition on, past the brace that opens a block of one. -/
def atNext (build : Build) : List Statement :=
  if build.nextBlockSize? = some 1 then build.upcoming.tail else build.upcoming

/-- What a condition makes of that which follows: frames wait for one statement, several statements
go into a file, and a block without statements is skipped. -/
inductive Outcome (before after : Build) : Prop where
  | next (added : List Frame)
      (single : before.nextBlockSize? = none ∨ before.nextBlockSize? = some 1)
      (nonempty : added ≠ [])
      (frames : after.frames = before.frames ++ added)
      (pops : after.pendingPops = 2 :: before.pendingPops)
      (upcoming : after.upcoming = before.atNext)
  | file (size : Nat) (file : CommandFile)
      (several : before.nextBlockSize? = some size ∧ size ≠ 1)
      (calls : after.CallsBranch before.frames file)
      (pops : after.pendingPops = before.pendingPops)
  | skipped
      (empty : before.nextBlockSize? = some 0)
      (skips : after.pendingBlock = some { closing := [.popSelector], skip := true })
      (pops : after.pendingPops = before.pendingPops)

structure Branches (before after : Build) : Prop where
  covered : before.CoveredBy before.frames after
  outcome : before.Outcome after

variable {frames longer : List Frame} {before middle after : Build}

theorem CoveredBy.of_longer (covered : before.CoveredBy longer after)
    (shorter : frames <+: longer) : before.CoveredBy frames after where
  lines := by
    obtain ⟨lines, file, under⟩ := covered.lines
    exact ⟨lines, file, fun line member => shorter.trans (under line member)⟩
  files := covered.files
  outer := covered.outer

theorem GrowsTo.leadsTo (grows : before.GrowsTo after) : before.LeadsTo after := by
  have written := (@GrowsTo.writesUnder before.frames _ _ grows prefix_rfl).1
  obtain ⟨lines, files, session, board, rfl, -, -⟩ := grows
  exact ⟨written, rfl, rfl⟩

theorem LeadsTo.branches (leads : before.LeadsTo middle) (branches : middle.Branches after) :
    before.Branches after := by
  obtain ⟨writes, sameFrames, upcoming⟩ := leads
  obtain ⟨covered, outcome⟩ := branches
  have sizes : middle.nextBlockSize? = before.nextBlockSize? := by
    rw [nextBlockSize?, nextBlockSize?, upcoming]
  rw [sameFrames] at covered
  refine ⟨writes.toCoveredBy.trans covered, ?_⟩
  cases outcome with
  | next added single nonempty frames pops next =>
    have same : middle.atNext = before.atNext := by rw [atNext, atNext, sizes, upcoming]
    exact .next added (sizes ▸ single) nonempty (sameFrames ▸ frames) (writes.pops ▸ pops)
      (next.trans same)
  | file size file several calls pops =>
    exact .file size file (sizes ▸ several) (sameFrames ▸ calls) (pops.trans writes.pops)
  | skipped empty skips pops => exact .skipped (sizes ▸ empty) skips (pops.trans writes.pops)

end Build

namespace BuildM

variable {before after : Build}

theorem sameOutput_enterBlock (build : Build) : build.SameOutput build.enterBlock := by
  unfold enterBlock
  split
  · split
    · exact ⟨rfl, rfl, rfl, rfl, rfl⟩
    · exact .refl build
  · exact .refl build

theorem enterBlock_upcoming {build : Build} (size : before.nextBlockSize? = some 1)
    (same : build.upcoming = before.upcoming) : build.enterBlock.upcoming = before.atNext := by
  unfold nextBlockSize? at size
  rw [atNext, nextBlockSize?, if_pos size]
  unfold enterBlock
  cases upcoming : before.upcoming with
  | nil =>
    rw [upcoming] at size
    cases size
  | cons opening rest =>
    rw [upcoming] at size same
    have isBlock : opening.size? = some 1 := size
    simp [same, isOpenBlock, isBlock]

/-- The inside of a block goes into a file, which is called under the frames. -/
theorem branches_file (lowered : LoweredChain) {size : Nat}
    (several : before.nextBlockSize? = some size ∧ size ≠ 1) :
    let (file, build) := (before.pushSelector .self).generatedFile "branch" []
    before.Branches ((build.emitLine ⟨lowered.frames, file.call⟩).setHooks {
      opening := [.pushFile file]
      closing := [.popFile, .popSelector] }) := by
  have longer : before.frames <+: before.frames ++ lowered.frames := prefix_append _ _
  refine ⟨⟨⟨_, rfl, ?_⟩, ⟨[], ?_, forall_mem_nil _⟩, rfl⟩, ?_⟩
  · exact forall_mem_singleton.2 longer
  · exact (append_nil _).symm
  · refine .file size _ several ⟨?_, rfl, rfl⟩ rfl
    exact ⟨_, mem_append_right _ mem_cons_self, longer, rfl⟩

theorem guardNext_branches {lowered : LoweredChain} (nonempty : lowered.frames ≠ [])
    (ran : guardNext lowered before = .ok () after) : before.Branches after := by
  unfold guardNext at ran
  rw [bind_of_ok (get_apply before)] at ran
  by_cases hasNext : before.hasNext = true
  · rw [hasNext] at ran
    obtain ⟨_, prepared, setUp, continued⟩ := bind_eq_ok_iff.1 ran
    have leads := (grows_emitSetup lowered before _ prepared setUp).leadsTo
    apply leads.branches
    have sizes : (prepared.pushSelector .self).nextBlockSize? = prepared.nextBlockSize? := rfl
    rw [bind_of_ok (modify_apply _ prepared), bind_of_ok (get_apply _), sizes] at continued
    have same := (SameOutput.refl prepared).writesUnder prepared.frames
    rcases size : prepared.nextBlockSize? with _ | _ | _ | count
    · simp only [size] at continued
      cases continued
      exact ⟨⟨same.lines, same.files, same.outer⟩,
        .next lowered.frames (.inl size) nonempty rfl rfl (by rw [atNext, size]; rfl)⟩
    · simp only [size] at continued
      cases continued
      exact branches_file lowered ⟨size, by decide⟩
    · simp only [size] at continued
      cases continued
      have inside := sameOutput_enterBlock
        { prepared.pushSelector .self with frames := prepared.frames ++ lowered.frames }
      have written := inside.writesUnder prepared.frames
      exact ⟨⟨written.lines, written.files, written.outer⟩,
        .next lowered.frames (.inr size) nonempty inside.frames (congrArg (2 :: ·) inside.pops)
          (enterBlock_upcoming size rfl)⟩
    · simp only [size] at continued
      cases continued
      exact branches_file lowered ⟨size, by omega⟩
  · simp only [hasNext] at ran
    cases ran

theorem grows_emitKeeping (line : Line) : Grows (modify (·.emitKeeping line) : BuildM PUnit) := by
  rintro before _ after ⟨⟩
  exact growsTo_emitBatchKeeping before [line] ""

def Branching {α : Type} (step : BuildM α) : Prop :=
  ∀ before value after, step before = .ok value after → before.Branches after

/-- Conditions branch after steps that only write. -/
theorem guarding_branches : Guarding Grows Branching fun lowered => lowered.frames ≠ [] where
  ofFail := fun _ _ _ _ ran => nomatch ran
  ofGet := fun _ branching before => branching before before
  bind := fun grows branching before value after ran => by
    obtain ⟨given, middle, first, second⟩ := bind_eq_ok_iff.1 ran
    exact (grows before given middle first).leadsTo.branches (branching given middle value after second)
  ofRemember := fun tokens branching before value after ran => by
    have same : before.SameOutput (before.rememberCondition tokens) := ⟨rfl, rfl, rfl, rfl, rfl⟩
    have remembered : before.LeadsTo (before.rememberCondition tokens) :=
      ⟨same.writesUnder _, rfl, rfl⟩
    exact remembered.branches (branching _ value after ran)
  ofEmitKeeping := fun _ => grows_emitKeeping _
  ofEmitSetup := fun _ => grows_emitSetup _
  ofLowerChain := fun nonempty branching before value after ran => by
    obtain ⟨lowered, middle, lowers, guards⟩ := bind_eq_ok_iff.1 ran
    exact (growing.ofLowerChain _ before lowered middle lowers).leadsTo.branches
      (branching lowered (lowerChain_frames_ne_nil nonempty lowers) middle value after guards)
  ofSkipEmptyBody := fun branching before value after ran => by
    by_cases empty : before.nextBlockSize? = some 0
    · rw [bind_of_ok (skipEmptyBody_of_empty empty)] at ran
      cases ran
      have same := (SameOutput.refl before).writesUnder before.frames
      exact ⟨⟨same.lines, same.files, same.outer⟩, .skipped empty rfl rfl⟩
    · rw [bind_of_ok (skipEmptyBody_of_body empty)] at ran
      exact branching before value after ran
  ofGuardNext := fun nonempty _ _ _ ran => guardNext_branches nonempty ran

variable {run : Runner} {statement : Statement}

theorem runStatement_condition (isCondition : statement.isCondition = true)
    (ran : runStatement run statement before = .ok () after) : before.Branches after := by
  cases kind : statement.kind with
  | directive directive =>
    rw [Statement.isCondition, kind] at isCondition
    obtain ⟨tokens, prepared, rest, grows, directed⟩ := runStatement_directive_eq_ok kind ran
    apply grows.leadsTo.branches
    cases directive with
    | condition =>
      change ((runCondition tokens >>= fun _ => pure ((), tokens)) : BuildM _) prepared = _ at directed
      obtain ⟨_, middle, ranCondition, ⟨⟩⟩ := bind_eq_ok_iff.1 directed
      exact guarding_branches.ofRunCondition growing _ _ _ _ ranCondition
    | otherwise =>
      change ((runOtherwise >>= fun _ => pure ((), tokens)) : BuildM _) prepared = _ at directed
      obtain ⟨_, middle, ranOtherwise, ⟨⟩⟩ := bind_eq_ok_iff.1 directed
      exact guarding_branches.ofRunOtherwise growing _ _ _ ranOtherwise
    | _ => cases isCondition
  | _ =>
    rw [Statement.isCondition, kind] at isCondition
    cases isCondition

end BuildM

theorem Build.settlePops_pendingBlock (build : Build) :
    build.settlePops.pendingBlock = build.pendingBlock := by
  obtain ⟨_, _, _, _, _, settled⟩ := build.settlePops_eq
  rw [settled]

/-- What follows on a condition that is under frames itself stays under them: one statement, for
which the frames still wait, or a block that goes into a file called under them, or is skipped. -/
def Build.PassesOn (frames : List Frame) (after : Build) : Prop :=
  after.IsGuarded frames ∨ after.IsFree ∧
    ((∃ file, after.CallsBranch frames file) ∨
      after.pendingBlock = some { closing := [.popSelector], skip := true })

/-- How far waiting frames reach into the run of the next statement, from the state before it to the
one after. Beyond that, no frame waits. -/
inductive Reach (frames : List Frame) : Nat → Statement → Build → Build → Prop where
  | itself {depth : Nat} {statement : Statement} {before after : Build}
      (plain : statement.isPlain = true) (covered : before.CoveredBy frames after)
      (free : after.IsFree) :
      Reach frames depth statement before after
  /-- No statement is run in place. -/
  | idle {depth : Nat} {statement : Statement} {before after : Build}
      (lists : statement.runsLists = true) (covered : before.CoveredBy frames after)
      (free : after.IsFree) :
      Reach frames depth statement before after
  /-- The first of the statements that are run in place is the next one. -/
  | first {depth : Nat} {statement : Statement} {before after : Build} {directive : Directive}
      {prepared entered reached last : Build} {first : Statement} {others : List Statement}
      (isDirective : statement.kind = .directive directive)
      (prepares : (before.enter statement).GrowsTo prepared)
      (opens : directive.Opens prepared (first :: others))
      (covered : before.CoveredBy frames entered) (upcoming : entered.upcoming = others)
      (ran : runScoped (runSection depth) first entered = .ok () reached)
      (inside : Reach frames depth first entered reached)
      (ranOthers : runUpcoming (runSection depth) others.length reached =
        .ok () last) :
      Reach frames (depth + 1) statement before after
  | condition {depth : Nat} {statement : Statement} {before after : Build}
      (isCondition : statement.isCondition = true) (covered : before.CoveredBy frames after)
      (passes : after.PassesOn frames) :
      Reach frames depth statement before after
  /-- A brace is the next statement too. -/
  | brace {depth : Nat} {statement : Statement} {before after : Build}
      (isBrace : statement.isOpenBlock = true ∨ statement.isCloseBlock = true)
      (free : after.IsFree) :
      Reach frames depth statement before after

namespace BuildM

variable {run : Runner} {statement : Statement} {frames : List Frame}
  {before after : Build}

theorem runScoped_passesOn (isCondition : statement.isCondition = true)
    (guarded : before.IsGuarded frames) (ran : runScoped run statement before = .ok () after) :
    before.CoveredBy frames after ∧ after.PassesOn frames := by
  obtain ⟨middle, unreachable, ranInside, rfl⟩ := runScoped_eq_ok ran
  obtain ⟨inside, outcome⟩ := runStatement_condition isCondition ranInside
  have freed (pops : middle.pendingPops = before.pendingPops) := guarded.isFree pops unreachable
  refine ⟨(inside.of_longer guarded.waiting).leave unreachable, ?_⟩
  cases outcome with
  | next added single nonempty isFrames pops _ =>
    left
    have waits : (middle.leave unreachable).pendingPops = 2 :: before.pendingPops := pops
    rw [settlePops_of_waiting waits]
    refine ⟨?_, nofun, forall_mem_cons.2 ⟨rfl, guarded.due⟩⟩
    have longer : middle.frames = before.frames ++ added := isFrames
    exact longer ▸ guarded.waiting.trans (prefix_append _ _)
  | file size file several calls pops =>
    refine .inr ⟨freed pops, .inl ⟨file, ?_, ?_, (freed pops).frames⟩⟩
    · rw [settlePops_file]
      obtain ⟨line, member, under, isCall⟩ := calls.called
      exact ⟨line, member, guarded.waiting.trans under, isCall⟩
    · rw [settlePops_pendingBlock]
      exact calls.opening
  | skipped empty skips pops =>
    refine .inr ⟨freed pops, .inr ?_⟩
    rw [settlePops_pendingBlock]
    exact skips

theorem runStatement_brace (isBrace : statement.isOpenBlock = true ∨ statement.isCloseBlock = true)
    (ran : runStatement run statement before = .ok () after) :
    after.pendingPops = before.pendingPops := by
  cases kind : statement.kind with
  | openBlock size =>
    simp only [runStatement, kind] at ran
    cases ran
    obtain ⟨_, _, _, _, _, _, opened⟩ := before.openBlock_eq size
    change (before.openBlock size).pendingPops = before.pendingPops
    rw [opened]
  | closeBlock =>
    simp only [runStatement, kind] at ran
    rw [bind_of_ok (get_apply before)] at ran
    obtain ⟨closed, closes, continued⟩ := bind_orFail_eq_ok_iff.1 ran
    cases continued
    obtain ⟨_, _, _, _, _, _, rfl⟩ := closeBlock?_eq closes
    rfl
  | _ =>
    simp [isOpenBlock, size?, isCloseBlock, kind] at isBrace

theorem runScoped_brace (isBrace : statement.isOpenBlock = true ∨ statement.isCloseBlock = true)
    (guarded : before.IsGuarded frames) (ran : runScoped run statement before = .ok () after) :
    after.IsFree := by
  obtain ⟨middle, unreachable, ranInside, rfl⟩ := runScoped_eq_ok ran
  have pops := runStatement_brace isBrace ranInside
  exact guarded.isFree pops unreachable

theorem runScoped_single {depth : Nat} (single : statement.runsLists = false)
    (guarded : before.IsGuarded frames)
    (ran : runScoped (runSection depth) statement before = .ok () after) :
    Reach frames depth statement before after := by
  have braced (isBrace : statement.isOpenBlock = true ∨ statement.isCloseBlock = true) :
      Reach frames depth statement before after :=
    .brace isBrace (runScoped_brace isBrace guarded ran)
  have written (plain : statement.isPlain = true) : Reach frames depth statement before after := by
    obtain ⟨covered, free⟩ := runScoped_plain plain guarded ran
    exact .itself plain covered free
  cases kind : statement.kind with
  | openBlock size =>
    apply braced
    left
    rw [isOpenBlock, size?, kind]
    rfl
  | closeBlock =>
    apply braced
    right
    rw [isCloseBlock, kind]
  | unknown =>
    obtain ⟨middle, unreachable, ranInside, -⟩ := runScoped_eq_ok ran
    simp only [runStatement, kind] at ranInside
    cases ranInside
  | operation =>
    apply written
    rw [isPlain, kind]
  | call =>
    apply written
    rw [isPlain, kind]
  | directive directive =>
    have runsNone : directive.runsLists = false := by
      simpa only [runsLists, kind] using single
    by_cases isCondition : directive.isCondition = true
    · have tests : statement.isCondition = true := by
        simpa only [Statement.isCondition, kind] using isCondition
      obtain ⟨covered, passes⟩ := runScoped_passesOn tests guarded ran
      exact .condition tests covered passes
    · apply written
      simp [isPlain, kind, runsNone, isCondition]

/-- By induction on the depth: a directive runs statements in place one level down. -/
theorem runScoped_reach {depth : Nat} (guarded : before.IsGuarded frames)
    (ran : runScoped (runSection depth) statement before = .ok () after) :
    Reach frames depth statement before after := by
  induction depth using Nat.strong_induction_on generalizing statement before after with
  | _ depth ih =>
    by_cases lists : statement.runsLists = true
    · obtain ⟨directive, isDirective, runsLists⟩ := exists_of_runsLists lists
      rcases runScoped_lists (keeps_runSection_nil _) isDirective runsLists guarded ran with
        ⟨covered, free⟩ | ⟨_, first, others, entered, _, prepares, opens, covered, waits, runs⟩
      · exact .idle lists covered free
      · cases depth with
        | zero => cases runs
        | succ depth =>
          obtain ⟨reached, last, ranFirst, ranOthers⟩ := runSection_cons runs
          have waitsInside : (entered.inPlace others).IsGuarded frames :=
            ⟨waits.waiting, waits.scheduled, waits.due⟩
          have coveredInside : before.CoveredBy frames (entered.inPlace others) :=
            ⟨covered.lines, covered.files, covered.outer⟩
          exact .first isDirective prepares opens coveredInside rfl ranFirst
            (ih depth (Nat.lt_succ_self depth) waitsInside ranFirst) ranOthers
    · exact runScoped_single (Bool.eq_false_of_not_eq_true lists) guarded ran

/-- A condition in front of a single statement leaves its frames waiting for it. -/
theorem runScoped_waits (isCondition : statement.isCondition = true)
    (single : before.nextBlockSize? = none ∨ before.nextBlockSize? = some 1)
    (ran : runScoped run statement before = .ok () after) :
    ∃ added, added ≠ [] ∧ before.CoveredBy before.frames after ∧
      after.frames = before.frames ++ added ∧ after.pendingPops = 1 :: before.pendingPops ∧
      after.upcoming = before.atNext := by
  obtain ⟨middle, unreachable, ranInside, rfl⟩ := runScoped_eq_ok ran
  obtain ⟨inside, outcome⟩ := runStatement_condition isCondition ranInside
  have sizes : (before.enter statement).nextBlockSize? = before.nextBlockSize? := rfl
  cases outcome with
  | next added _ nonempty frames pops upcoming =>
    have waits : (middle.leave unreachable).pendingPops = 2 :: before.pendingPops := pops
    refine ⟨added, nonempty, inside.leave unreachable, ?_⟩
    rw [settlePops_of_waiting waits]
    exact ⟨frames, rfl, upcoming⟩
  | file size file several calls pops =>
    rw [sizes] at several
    rcases single with none | one
    · cases none.symm.trans several.1
    · cases one.symm.trans several.1
      exact absurd rfl several.2
  | skipped empty skips pops =>
    rw [sizes] at empty
    rcases single with none | one
    · cases none.symm.trans empty
    · cases one.symm.trans empty

end BuildM

/-- A condition and the statement that is its body. The condition puts frames in front of it, and they
reach into it as far as `Reach` says: all that a statement writes by itself, but of statements that it
runs in place the first one only. -/
theorem condition_reach {depth : Nat} {condition statement : Statement} {body rest : List Statement}
    {steps : Nat} {before after : Build} (isCondition : condition.isCondition = true)
    (isBody : statement.IsBody steps body) (due : ∀ count ∈ before.pendingPops, count = 1)
    (upcoming : before.upcoming = condition :: (body ++ rest))
    (compiled : BuildM.runUpcoming (BuildM.runSection depth) 2 before = .ok () after) :
    ∃ added reached next, added ≠ [] ∧
      (BuildM.runScoped (BuildM.runSection depth) condition { before with upcoming := body ++ rest } =
        .ok () { reached with upcoming := statement :: next } ∧
        before.CoveredBy before.frames reached ∧ reached.frames = before.frames ++ added) ∧
      BuildM.runScoped (BuildM.runSection depth) statement { reached with upcoming := next } =
        .ok () after ∧
      Reach (before.frames ++ added) depth statement { reached with upcoming := next } after := by
  obtain ⟨reached, ranCondition, continued⟩ := runUpcoming_cons upcoming compiled
  let entered := { before with upcoming := body ++ rest }
  obtain ⟨added, nonempty, covered, frames, pops, next⟩ :=
    @runScoped_waits _ condition entered reached isCondition (isBody.nextBlockSize? rfl)
      ranCondition
  obtain ⟨others, isNext⟩ : ∃ others, entered.atNext = statement :: others := by
    cases isBody with
    | inline isSingle =>
      refine ⟨rest, ?_⟩
      simp [Build.atNext, Build.nextBlockSize?, entered, isSingle]
    | @block opening closing opens closes =>
      refine ⟨closing :: rest, ?_⟩
      simp [Build.atNext, Build.nextBlockSize?, entered, opens]
  rw [isNext] at next
  obtain ⟨finished, ranStatement, ⟨⟩⟩ := runUpcoming_cons next continued
  have guarded : ({ reached with upcoming := others } : Build).IsGuarded (before.frames ++ added) := by
    refine ⟨frames ▸ prefix_rfl, ?_, ?_⟩
    · rw [pops]
      exact cons_ne_nil _ _
    · rw [pops]
      exact forall_mem_cons.2 ⟨rfl, due⟩
  have waiting : reached = { reached with upcoming := statement :: others } := by rw [← next]
  exact ⟨added, reached, others, nonempty, ⟨waiting ▸ ranCondition,
    ⟨covered.lines, covered.files, covered.outer⟩, frames⟩, ranStatement,
    runScoped_reach guarded ranStatement⟩

def Repetition.twice : Statement := ⟨.directive .repeatBody, [⟨.literal (.int 2), 1⟩], 1, ""⟩

def Repetition.start : Build :=
  { Build.start {} "main" {} with
    scoreboard := (({} : Scoreboard).addCounter ⟨"a", .int⟩).addCounter ⟨"b", .int⟩
    upcoming := [
      ⟨.directive .condition, [⟨.word "a", 1⟩, ⟨.compare .eq, 1⟩, ⟨.literal (.int 1), 1⟩], 1, ""⟩,
      twice,
      ⟨.operation, [⟨.word "b", 1⟩, ⟨.assign (some .add), 1⟩, ⟨.literal (.int 1), 1⟩], 1, ""⟩] }

def Repetition.framed? (outcome : EStateM.Result Error Build Unit) : Option (List Bool) :=
  match outcome with
  | .ok _ after => some (after.file.lines.map fun line => !line.frames.isEmpty)
  | .error _ _ => none

/-- Of a statement that is repeated under a condition, the first run is covered, the second is not. -/
theorem condition_reach_repetition :
    let outcome := BuildM.runUpcoming (BuildM.runSection 1) 2 Repetition.start
    Repetition.framed? outcome = some [true, false] ∧
      ∃ after added reached, outcome = .ok () after ∧ added ≠ [] ∧
        Reach added 1 Repetition.twice reached after := by
  intro outcome
  have success : succeeds outcome = true := by decide +kernel
  obtain ⟨_, after, ran⟩ := exists_ok_of_succeeds success
  obtain ⟨added, reached, next, nonempty, -, -, reach⟩ := condition_reach rfl (.inline rfl)
    (forall_mem_nil _) rfl ran
  exact ⟨by decide +kernel, after, added, _, ran, nonempty, reach⟩

end ScriptPack
