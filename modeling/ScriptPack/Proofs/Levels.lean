import ScriptPack.Proofs.Mirrors

/-!
The level of the stacks: every selector and file on them is matched by a pop that is scheduled, that
an open block makes when it closes, or that the block to come brings along. Whatever a run does keeps
the level, so that no pop finds an empty stack, and all of it is the same on deeper stacks.
-/

namespace ScriptPack

open BlockAction BlockHooks List Option

namespace BlockAction

def pushesSelector : BlockAction → Bool
  | pushSelector _ => true
  | _ => false

def popsSelector : BlockAction → Bool
  | popSelector => true
  | _ => false

def pushesFile : BlockAction → Bool
  | pushFile _ => true
  | _ => false

def popsFile : BlockAction → Bool
  | popFile => true
  | _ => false

def isPush (action : BlockAction) : Bool :=
  action.pushesSelector || action.pushesFile

def isPop (action : BlockAction) : Bool :=
  action.popsSelector || action.popsFile

end BlockAction

namespace BlockHooks

/-- How many selectors the block pushes when it opens: none, if it is left out. -/
def selectorPushes (hooks : BlockHooks) : Nat :=
  if hooks.skip then 0 else hooks.opening.countP (·.pushesSelector)

def selectorPops (hooks : BlockHooks) : Nat :=
  hooks.closing.countP (·.popsSelector)

/-- How many files the block pushes when it opens: none, if it is left out. -/
def filePushes (hooks : BlockHooks) : Nat :=
  if hooks.skip then 0 else hooks.opening.countP (·.pushesFile)

def filePops (hooks : BlockHooks) : Nat :=
  hooks.closing.countP (·.popsFile)

/-- A block only pushes when it opens and only pops when it closes, and pops what it has pushed. -/
structure IsTidy (hooks : BlockHooks) : Prop where
  opening : ∀ action ∈ hooks.opening, action.isPush = true
  closing : ∀ action ∈ hooks.closing, action.isPop = true
  selectors : hooks.selectorPushes ≤ hooks.selectorPops
  files : hooks.filePushes ≤ hooks.filePops
  skipped : hooks.skip = true → hooks.opening = []

end BlockHooks

namespace Build

variable {mayLeak : Prop} {ending : Ending} {before after build : Build}

def openSelectorPops (build : Build) : Nat :=
  build.openBlocks.flatten.countP (·.popsSelector)

def openFilePops (build : Build) : Nat :=
  build.openBlocks.flatten.countP (·.popsFile)

/-- The selectors that the block to come pops when it closes, if hooks wait for it. -/
def waitingSelectorPops (build : Build) : Nat :=
  build.pendingBlock.elim 0 selectorPops

def waitingSelectorPushes (build : Build) : Nat :=
  build.pendingBlock.elim 0 selectorPushes

def waitingFilePops (build : Build) : Nat :=
  build.pendingBlock.elim 0 filePops

def waitingFilePushes (build : Build) : Nat :=
  build.pendingBlock.elim 0 filePushes

/-- The stacks hold their roots, and what scheduled pops, open blocks and the block to come will
pop. -/
structure IsBalanced (build : Build) : Prop where
  selectors : ((build.active :: build.outerSelectors).length : ℤ) =
    1 + build.pendingPops.length + build.openSelectorPops +
      (build.waitingSelectorPops - build.waitingSelectorPushes)
  files : ((build.file :: build.outerFiles).length : ℤ) =
    1 + build.openFilePops + (build.waitingFilePops - build.waitingFilePushes)

instance (build : Build) : Decidable build.IsBalanced :=
  decidable_of_iff (_ ∧ _) ⟨fun ⟨selectors, files⟩ => ⟨selectors, files⟩,
    fun ⟨selectors, files⟩ => ⟨selectors, files⟩⟩

/-- The stacks are balanced, by blocks that push before they pop. -/
structure Level (build : Build) : Prop where
  selectors : build.outerSelectors.length + build.waitingSelectorPushes =
    build.pendingPops.length + build.openSelectorPops + build.waitingSelectorPops
  files : build.outerFiles.length + build.waitingFilePushes =
    build.openFilePops + build.waitingFilePops
  waiting : ∀ hooks, build.pendingBlock = some hooks → hooks.IsTidy
  closings : ∀ actions ∈ build.openBlocks, ∀ action ∈ actions, action.isPop = true

theorem Level.balanced (level : build.Level) : build.IsBalanced := by
  obtain ⟨selectors, files, -, -⟩ := level
  constructor
  · rw [length_cons]
    omega
  · rw [length_cons]
    omega

theorem Level.waitingPushes_le (level : build.Level) :
    build.waitingSelectorPushes ≤ build.waitingSelectorPops ∧
      build.waitingFilePushes ≤ build.waitingFilePops := by
  unfold waitingSelectorPushes waitingSelectorPops waitingFilePushes waitingFilePops
  cases waiting : build.pendingBlock with
  | none => exact ⟨le_rfl, le_rfl⟩
  | some hooks => exact ⟨(level.waiting hooks waiting).selectors, (level.waiting hooks waiting).files⟩

/-! Changes that leave the stacks alone. -/

/-- The stacks and what waits to be done to them are the same. -/
structure SameStacks (before after : Build) : Prop where
  selectors : after.outerSelectors = before.outerSelectors
  files : after.outerFiles = before.outerFiles
  pops : after.pendingPops = before.pendingPops
  hooks : after.pendingBlock = before.pendingBlock
  blocks : after.openBlocks = before.openBlocks

theorem Aside.sameStacks (aside : before.Aside after) : before.SameStacks after where
  selectors := congrArg Core.outerSelectors aside.core
  files := congrArg Core.outerFiles aside.core
  pops := congrArg Core.pendingPops aside.core
  hooks := congrArg Core.pendingBlock aside.core
  blocks := congrArg Core.openBlocks aside.core

theorem Effect.leaves (effect : Effect mayLeak before after) : before.SameStacks after ∧
    after.upcoming <:+ before.upcoming ∧ after.unreachable = before.unreachable := by
  cases effect with
  | aside aside upcoming reach => exact ⟨aside.sameStacks, upcoming, reach⟩
  | share isNew calls =>
    unfold sharedFile
    dsimp only
    split <;> exact ⟨⟨rfl, rfl, rfl, rfl, rfl⟩, suffix_refl _, rfl⟩
  | _ => exact ⟨⟨rfl, rfl, rfl, rfl, rfl⟩, suffix_refl _, rfl⟩

theorem Effects.leaves (effects : Effects mayLeak before after) :
    before.SameStacks after ∧ after.unreachable = before.unreachable := by
  induction effects with
  | refl => exact ⟨⟨rfl, rfl, rfl, rfl, rfl⟩, rfl⟩
  | tail _ effect ih =>
    obtain ⟨⟨selectors, files, pops, hooks, blocks⟩, reach⟩ := ih
    obtain ⟨same, -, sameReach⟩ := effect.leaves
    exact ⟨⟨same.selectors.trans selectors, same.files.trans files, same.pops.trans pops,
      same.hooks.trans hooks, same.blocks.trans blocks⟩, sameReach.trans reach⟩

section

variable {hooks : Option BlockHooks} {pops : List Nat} {blocks : List (List BlockAction)}
  (isHooks : build.pendingBlock = hooks) (isPops : build.pendingPops = pops)
  (isBlocks : build.openBlocks = blocks)

include isHooks isPops isBlocks

/-- The level of a state of which it is known what waits and which blocks are open. -/
theorem level_iff : build.Level ↔ (build.outerSelectors.length + hooks.elim 0 selectorPushes =
      pops.length + blocks.flatten.countP (·.popsSelector) + hooks.elim 0 selectorPops ∧
    build.outerFiles.length + hooks.elim 0 filePushes =
      blocks.flatten.countP (·.popsFile) + hooks.elim 0 filePops) ∧
    (∀ waiting, hooks = some waiting → waiting.IsTidy) ∧
      ∀ actions ∈ blocks, ∀ action ∈ actions, action.isPop = true := by
  subst isHooks isPops isBlocks
  exact ⟨fun ⟨selectors, files, waiting, closings⟩ => ⟨⟨selectors, files⟩, waiting, closings⟩,
    fun ⟨⟨selectors, files⟩, waiting, closings⟩ => ⟨selectors, files, waiting, closings⟩⟩

end

theorem Level.congr (level : before.Level) (same : before.SameStacks after) : after.Level := by
  rw [level_iff rfl rfl rfl] at level
  rw [level_iff same.hooks same.pops same.blocks, same.selectors, same.files]
  exact level

/-! The finish of a statement. -/

/-- Hooks wait for the next block, and the stacks have got what it pops beyond what it pushes. -/
theorem Level.setHooks {hooks : BlockHooks} (level : before.Level)
    (noHooks : before.pendingBlock = none) (tidy : hooks.IsTidy)
    (selectors : build.outerSelectors.length + hooks.selectorPushes =
      before.outerSelectors.length + hooks.selectorPops)
    (files : build.outerFiles.length + hooks.filePushes =
      before.outerFiles.length + hooks.filePops)
    (pops : build.pendingPops = before.pendingPops)
    (blocks : build.openBlocks = before.openBlocks) : (build.setHooks hooks).Level := by
  rw [level_iff noHooks rfl rfl] at level
  rw [@level_iff (build.setHooks hooks) _ _ _ rfl pops blocks]
  refine ⟨⟨?_, ?_⟩, ?_, level.2.2⟩
  · change build.outerSelectors.length + hooks.selectorPushes = _ + hooks.selectorPops
    have := level.1.1
    dsimp only [elim_none] at this
    omega
  · change build.outerFiles.length + hooks.filePushes = _ + hooks.filePops
    have := level.1.2
    dsimp only [elim_none] at this
    omega
  · rintro _ ⟨⟩
    exact tidy

theorem Level.guarded (level : before.Level) (frames : List Frame) :
    (before.guarded frames).popAfterNext.Level := by
  obtain ⟨selectors, files, waiting, closings⟩ := level
  refine ⟨?_, files, waiting, closings⟩
  change before.outerSelectors.length + 1 + before.waitingSelectorPushes =
    before.pendingPops.length + 1 + before.openSelectorPops + before.waitingSelectorPops
  omega

theorem Level.opened (level : build.Level) {opened : List (List BlockAction)}
    (empty : ∀ actions ∈ opened, actions = []) (upcoming : List Statement) :
    ({ build with upcoming, openBlocks := opened ++ build.openBlocks } : Build).Level := by
  have flat : (opened ++ build.openBlocks).flatten = build.openBlocks.flatten := by
    rw [flatten_append, flatten_eq_nil_iff.2 empty, nil_append]
  rw [level_iff rfl rfl rfl] at level ⊢
  rw [flat]
  refine ⟨level.1, level.2.1, fun actions member => ?_⟩
  obtain isNew | isOld := mem_append.1 member
  · rw [empty actions isNew]
    exact forall_mem_nil _
  · exact level.2.2 actions isOld

theorem Finish.level (finish : Finish ending before after) (noHooks : before.pendingBlock = none)
    (level : before.Level) : after.Level := by
  cases finish with
  | done => exact level
  | select selector next =>
    refine level.setHooks noHooks ?_ rfl rfl rfl rfl
    exact ⟨by simp [isPush, pushesSelector], by simp [isPop, popsSelector], le_rfl, le_rfl, by simp⟩
  | skip next =>
    refine level.setHooks noHooks ?_ rfl rfl rfl rfl
    exact ⟨forall_mem_nil _, forall_mem_nil _, le_rfl, le_rfl, fun _ => rfl⟩
  | leaveOut next =>
    refine level.setHooks noHooks ?_ rfl rfl rfl rfl
    exact ⟨forall_mem_nil _, by simp [isPop, popsSelector], Nat.zero_le 1, le_rfl, fun _ => rfl⟩
  | guard _ frames => exact level.guarded frames
  | halt => exact level.congr ⟨rfl, rfl, rfl, rfl, rfl⟩
  | guardOne frames next =>
    obtain ⟨upcoming, opened, entered, -, empty⟩ := (before.guarded frames).enterBlock_eq
    rw [entered]
    exact (level.guarded frames).opened empty upcoming
  | branch frames next =>
    refine level.setHooks noHooks ?_ rfl rfl rfl rfl
    exact ⟨by simp [isPush, pushesFile], by simp [isPop, popsSelector, popsFile],
      Nat.zero_le 1, le_rfl, by simp⟩
  | routine routine next =>
    obtain ⟨routines, added, -⟩ := before.addRoutine_eq routine
    rw [added]
    refine level.setHooks noHooks ?_ rfl rfl rfl rfl
    exact ⟨by simp [isPush, pushesFile, pushesSelector], by simp [isPop, popsSelector, popsFile],
      le_rfl, le_rfl, by simp⟩

/-! Pops that are due. -/

theorem countDown_length (pendingPops : List Nat) :
    (countDown pendingPops).1 + (countDown pendingPops).2.length = pendingPops.length := by
  induction pendingPops with
  | nil => rfl
  | cons waiting rest ih =>
    unfold countDown
    split
    · change (countDown rest).1 + 1 + (countDown rest).2.length = rest.length + 1
      omega
    · exact Nat.zero_add _

theorem popSelector_length (isInner : build.outerSelectors ≠ []) :
    build.popSelector.outerSelectors.length + 1 = build.outerSelectors.length := by
  obtain ⟨selector, rest, outer⟩ := exists_cons_of_ne_nil isInner
  simp only [popSelector, outer, length_cons]

theorem popFile_length (isInner : build.outerFiles ≠ []) :
    build.popFile.outerFiles.length + 1 = build.outerFiles.length := by
  obtain ⟨file, rest, outer⟩ := exists_cons_of_ne_nil isInner
  simp only [popFile, outer, length_cons]

theorem repeat_popSelector {count : Nat} (enough : count ≤ build.outerSelectors.length) :
    (Nat.repeat popSelector count build).outerSelectors.length + count =
        build.outerSelectors.length ∧
      ∀ ground, Nat.repeat popSelector count (build.onto ground) =
        (Nat.repeat popSelector count build).onto ground := by
  induction count with
  | zero => exact ⟨rfl, fun _ => rfl⟩
  | succ count ih =>
    obtain ⟨shorter, onto⟩ := ih (Nat.le_of_succ_le enough)
    have isInner : (Nat.repeat popSelector count build).outerSelectors ≠ [] :=
      ne_nil_of_length_pos (by omega)
    have popped := popSelector_length isInner
    refine ⟨?_, fun ground => ?_⟩
    · change (Nat.repeat popSelector count build).popSelector.outerSelectors.length + (count + 1) = _
      omega
    · change (Nat.repeat popSelector count (build.onto ground)).popSelector = _
      rw [onto, popSelector_onto isInner]
      rfl

theorem Level.pendingPops_le (level : build.Level) :
    build.pendingPops.length ≤ build.outerSelectors.length := by
  have selectors := level.selectors
  have pushes := level.waitingPushes_le.1
  omega

theorem Level.due_le (level : build.Level) :
    (countDown build.pendingPops).1 ≤ build.outerSelectors.length := by
  have total := countDown_length build.pendingPops
  have enough := level.pendingPops_le
  omega

theorem Level.settlePops (level : build.Level) : build.settlePops.Level := by
  have total := countDown_length build.pendingPops
  have popped := (repeat_popSelector level.due_le).1
  obtain ⟨active, outerSelectors, same⟩ := build.repeat_popSelector_eq (countDown build.pendingPops).1
  obtain ⟨selectors, files, waiting, closings⟩ := level
  have settled {outer : List Selector}
      (popped : outer.length + (countDown build.pendingPops).1 = build.outerSelectors.length) :
      outer.length + build.waitingSelectorPushes = (countDown build.pendingPops).2.length +
        build.openSelectorPops + build.waitingSelectorPops := by
    omega
  unfold Build.settlePops
  dsimp only
  split
  · next none =>
    rw [beq_iff_eq] at none
    exact ⟨settled (by rw [none, Nat.add_zero]), files, waiting, closings⟩
  · rw [same] at popped ⊢
    exact ⟨settled popped, files, waiting, closings⟩

theorem Level.settlePops_onto (level : build.Level) (ground : Ground) :
    (build.onto ground).settlePops = build.settlePops.onto ground := by
  unfold Build.settlePops
  have pops : (build.onto ground).pendingPops = build.pendingPops := rfl
  rw [pops]
  dsimp only
  split
  · rfl
  · rw [(repeat_popSelector level.due_le).2]
    rfl

/-! Blocks that open and close. -/

/-- Pushes add to the stacks what they push, and nothing else happens to what waits. -/
theorem foldl_pushes {actions : List BlockAction}
    (pushes : ∀ action ∈ actions, action.isPush = true) (build : Build) :
    (actions.foldl apply build).outerSelectors.length =
        build.outerSelectors.length + actions.countP (·.pushesSelector) ∧
      (actions.foldl apply build).outerFiles.length =
        build.outerFiles.length + actions.countP (·.pushesFile) ∧
      ∀ ground, actions.foldl apply (build.onto ground) = (actions.foldl apply build).onto ground := by
  induction actions generalizing build with
  | nil => exact ⟨rfl, rfl, fun _ => rfl⟩
  | cons action actions ih =>
    obtain ⟨isPush, others⟩ := forall_mem_cons.1 pushes
    cases action with
    | pushSelector selector =>
      obtain ⟨selectors, files, mirrored⟩ := ih others (build.pushSelector selector)
      refine ⟨?_, files, fun ground => mirrored ground⟩
      rw [foldl_cons, countP_cons_of_pos rfl]
      refine selectors.trans ?_
      change build.outerSelectors.length + 1 + _ = _
      omega
    | pushFile file =>
      obtain ⟨selectors, files, mirrored⟩ := ih others (build.pushFile file)
      refine ⟨selectors, ?_, fun ground => mirrored ground⟩
      rw [foldl_cons, countP_cons_of_pos rfl]
      refine files.trans ?_
      change build.outerFiles.length + 1 + _ = _
      omega
    | popSelector => cases isPush
    | popFile => cases isPush

theorem foldl_pops {actions : List BlockAction} (pops : ∀ action ∈ actions, action.isPop = true)
    (selectors : actions.countP (·.popsSelector) ≤ build.outerSelectors.length)
    (files : actions.countP (·.popsFile) ≤ build.outerFiles.length) :
    (actions.foldl apply build).outerSelectors.length + actions.countP (·.popsSelector) =
        build.outerSelectors.length ∧
      (actions.foldl apply build).outerFiles.length + actions.countP (·.popsFile) =
        build.outerFiles.length ∧
      ∀ ground, actions.foldl apply (build.onto ground) = (actions.foldl apply build).onto ground := by
  induction actions generalizing build with
  | nil => exact ⟨rfl, rfl, fun _ => rfl⟩
  | cons action actions ih =>
    obtain ⟨isPop, others⟩ := forall_mem_cons.1 pops
    cases action with
    | popSelector =>
      rw [countP_cons_of_pos rfl] at selectors
      have isInner : build.outerSelectors ≠ [] := ne_nil_of_length_pos (by omega)
      have shorter := popSelector_length isInner
      have sameFiles : build.popSelector.outerFiles = build.outerFiles := by
        obtain ⟨_, _, popped⟩ := build.popSelector_eq
        rw [popped]
      obtain ⟨lessSelectors, lessFiles, mirrored⟩ := @ih build.popSelector others (by omega)
        (by rw [sameFiles]; exact files)
      refine ⟨?_, lessFiles.trans (by rw [sameFiles]), fun ground => ?_⟩
      · rw [foldl_cons, countP_cons_of_pos rfl, apply]
        omega
      · rw [foldl_cons, foldl_cons, apply, apply, popSelector_onto isInner, mirrored]
    | popFile =>
      rw [countP_cons_of_pos rfl] at files
      have isInner : build.outerFiles ≠ [] := ne_nil_of_length_pos (by omega)
      have shorter := popFile_length isInner
      have sameSelectors : build.popFile.outerSelectors = build.outerSelectors := by
        unfold popFile
        split <;> rfl
      obtain ⟨lessSelectors, lessFiles, mirrored⟩ := @ih build.popFile others
        (by rw [sameSelectors]; exact selectors) (by omega)
      refine ⟨lessSelectors.trans (by rw [sameSelectors]), ?_, fun ground => ?_⟩
      · rw [foldl_cons, countP_cons_of_pos rfl, apply]
        omega
      · rw [foldl_cons, foldl_cons, apply, apply, popFile_onto isInner, mirrored]
    | pushSelector selector => cases isPop
    | pushFile file => cases isPop

theorem foldl_apply_waits (actions : List BlockAction) (build : Build) :
    (actions.foldl apply build).pendingPops = build.pendingPops ∧
      (actions.foldl apply build).pendingBlock = build.pendingBlock ∧
      (actions.foldl apply build).openBlocks = build.openBlocks ∧
      (actions.foldl apply build).frames = build.frames ∧
      (actions.foldl apply build).upcoming = build.upcoming := by
  obtain ⟨_, _, _, _, _, _, applied⟩ := foldl_apply_eq actions build
  rw [applied]
  exact ⟨rfl, rfl, rfl, rfl, rfl⟩

theorem Level.openBlock (level : build.Level) (size : Nat) : (build.openBlock size).Level := by
  unfold Build.openBlock
  cases isWaiting : build.pendingBlock with
  | none =>
    rw [level_iff isWaiting rfl rfl] at level
    exact (level_iff rfl rfl rfl).2 ⟨level.1, nofun, forall_mem_cons.2 ⟨forall_mem_nil _, level.2.2⟩⟩
  | some hooks =>
    rw [level_iff isWaiting rfl rfl, elim_some, elim_some, elim_some, elim_some, selectorPushes,
      filePushes] at level
    obtain ⟨⟨selectors, files⟩, waiting, closings⟩ := level
    obtain ⟨opening, closing, -, -, -⟩ := waiting hooks rfl
    dsimp only [getD_some]
    have isPop := forall_mem_cons.2 ⟨closing, closings⟩
    have inner : (hooks.closing :: build.openBlocks).flatten =
        hooks.closing ++ build.openBlocks.flatten := flatten_cons
    unfold selectorPops at selectors
    unfold filePops at files
    split
    · next skipped =>
      rw [if_pos skipped] at selectors files
      refine (level_iff (by rfl) (by rfl) (by rfl)).2 ⟨⟨?_, ?_⟩, by simp, isPop⟩ <;>
      · dsimp only [elim_none]
        rw [inner, countP_append]
        omega
    · next applied =>
      rw [if_neg applied] at selectors files
      have waits := foldl_apply_waits hooks.opening { build with pendingBlock := none }
      obtain ⟨pops, noHooks, blocks, -, -⟩ := waits
      have pushed := foldl_pushes opening { build with pendingBlock := none }
      obtain ⟨moreSelectors, moreFiles, -⟩ := pushed
      refine (level_iff (by exact noHooks) (by exact pops)
        (by exact congrArg (hooks.closing :: ·) blocks)).2 ⟨⟨?_, ?_⟩, by simp, isPop⟩
      · refine congrArg (· + _) moreSelectors |>.trans ?_
        dsimp only [elim_none]
        rw [inner, countP_append]
        omega
      · refine congrArg (· + _) moreFiles |>.trans ?_
        dsimp only [elim_none]
        rw [inner, countP_append]
        omega

theorem Level.openBlock_onto (level : build.Level) (size : Nat) (ground : Ground) :
    (build.onto ground).openBlock size = (build.openBlock size).onto ground := by
  unfold Build.openBlock
  have waiting : (build.onto ground).pendingBlock = build.pendingBlock := rfl
  rw [waiting]
  cases isWaiting : build.pendingBlock with
  | none => rfl
  | some hooks =>
    dsimp only [getD_some]
    split
    · rfl
    · have pushed := foldl_pushes (level.waiting hooks isWaiting).opening
        { build with pendingBlock := none }
      have inner : ({ build.onto ground with pendingBlock := none } : Build) =
          ({ build with pendingBlock := none } : Build).onto ground := rfl
      rw [inner, pushed.2.2]
      rfl

theorem openBlock_waits (build : Build) (size : Nat) :
    (build.openBlock size).pendingBlock = none ∧
      (build.openBlock size).upcoming <:+ build.upcoming := by
  obtain ⟨_, _, _, _, _, _, opened⟩ := build.openBlock_eq size
  rw [opened]
  refine ⟨rfl, ?_⟩
  dsimp only
  split
  · exact drop_suffix _ _
  · exact suffix_refl _

theorem Level.closeBlock (level : before.Level) (closed : before.closeBlock? = some after) :
    after.Level ∧ ∀ ground, (before.onto ground).closeBlock? = some (after.onto ground) := by
  have pushes := level.waitingPushes_le
  unfold waitingSelectorPushes waitingSelectorPops waitingFilePushes waitingFilePops at pushes
  unfold closeBlock? at closed
  cases blocks : before.openBlocks with
  | nil =>
    rw [blocks] at closed
    cases closed
  | cons actions rest =>
    rw [blocks] at closed
    cases closed
    rw [level_iff rfl rfl blocks, flatten_cons, countP_append, countP_append] at level
    obtain ⟨⟨selectors, files⟩, waiting, closings⟩ := level
    obtain ⟨isPop, others⟩ := forall_mem_cons.1 closings
    have popped := @foldl_pops { before with openBlocks := rest } actions isPop
      (by dsimp only; omega) (by dsimp only; omega)
    obtain ⟨lessSelectors, lessFiles, mirrored⟩ := popped
    obtain ⟨pops, hooks, sameBlocks, -, -⟩ :=
      foldl_apply_waits actions { before with openBlocks := rest }
    constructor
    · refine (level_iff (by exact hooks) (by exact pops) (by exact sameBlocks)).2
        ⟨⟨?_, ?_⟩, waiting, others⟩
      · dsimp only at lessSelectors ⊢
        omega
      · dsimp only at lessFiles ⊢
        omega
    · intro ground
      have blocksOnto : (before.onto ground).openBlocks = actions :: rest := blocks
      unfold closeBlock?
      rw [blocksOnto]
      have inner : ({ before.onto ground with openBlocks := rest } : Build) =
          ({ before with openBlocks := rest } : Build).onto ground := rfl
      dsimp only
      rw [inner, mirrored]
      rfl

end Build

end ScriptPack
