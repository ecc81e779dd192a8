import ScriptPack.Proofs.Steps

/-!
What the inside of a statement can do to the files, the stacks and the waiting frames: a handful of
effects, of which every statement but a brace is a sequence, and one finish, which may make the next
statement or block a special one. Whatever holds of all runs is proved from these.
-/

namespace ScriptPack

open CommandFile List

/-- The path that a command calls, itself or by the command that it executes. -/
def Command.called? : Command → Option String
  | call path => some path
  | execute _ _ command => command.called?
  | _ => none

def CommandFile.generatedPath (name : String) : String :=
  (generated name []).path

/-- The declarations for the top of the root file have become more. -/
def Scoreboard.HeadGrows (board later : Scoreboard) : Prop :=
  ∃ objectives : List String,
    later.pendingHead = board.pendingHead ++ objectives.map Command.objectiveAdd

theorem Scoreboard.HeadGrows.refl (board : Scoreboard) : board.HeadGrows board :=
  ⟨[], (append_nil _).symm⟩

theorem Scoreboard.HeadGrows.trans {board middle later : Scoreboard} (first : board.HeadGrows middle)
    (second : middle.HeadGrows later) : board.HeadGrows later := by
  obtain ⟨objectives, grown⟩ := first
  obtain ⟨others, grownLater⟩ := second
  exact ⟨objectives ++ others, by rw [grownLater, grown, map_append, append_assoc]⟩

namespace Build

/-- The part of the state that says what has been written where, and what waits to be done to the
stacks. -/
structure Core where
  file : CommandFile
  outerFiles : List CommandFile
  outerSelectors : List Selector
  frames : List Frame
  pendingPops : List Nat
  pendingBlock : Option BlockHooks
  openBlocks : List (List BlockAction)
  packName : String
  files : List CommandFile
  routineFiles : List String
  generated : Table String Nat
  sharedFiles : List String
  head : List Line

def core (build : Build) : Core where
  file := build.file
  outerFiles := build.outerFiles
  outerSelectors := build.outerSelectors
  frames := build.frames
  pendingPops := build.pendingPops
  pendingBlock := build.pendingBlock
  openBlocks := build.openBlocks
  packName := build.pack.name
  files := build.pack.files
  routineFiles := build.routines.map Routine.file
  generated := build.session.generated
  sharedFiles := build.session.sharedFiles
  head := build.head

/-- A change outside the core. -/
structure Aside (before after : Build) : Prop where
  core : after.core = before.core
  head : before.scoreboard.HeadGrows after.scoreboard

/-- A path that commands may call: of a routine, or of a shared file. -/
def Callable (build : Build) (path : String) : Prop :=
  path ∈ build.routines.map Routine.file ∨
    ∃ name ∈ build.session.sharedFiles, path = generatedPath name

def Calls (build : Build) (lines : List Line) : Prop :=
  ∀ line ∈ lines, ∀ path, line.command.called? = some path → build.Callable path

def factored (build : Build) (word : String) (lines : List Line) (frames : List Frame) : Build :=
  (build.factorOut word lines).2.write [(build.factorOut word lines).1.within frames]

/-- One change that the inside of a statement makes. Frames are only left behind where `mayLeak`
says so. -/
inductive Effect (mayLeak : Prop) : Build → Build → Prop where
  | aside {before after : Build} (aside : before.Aside after)
      (upcoming : after.upcoming <:+ before.upcoming)
      (reach : after.unreachable = before.unreachable) : Effect mayLeak before after
  | write {before : Build} {lines : List Line} (calls : before.Calls lines) :
      Effect mayLeak before (before.write lines)
  | factor {before : Build} (word : String) {lines : List Line} (frames : List Frame)
      (calls : before.Calls lines) : Effect mayLeak before (before.factored word lines frames)
  | clear (before : Build) : Effect mayLeak before { before with frames := [] }
  | leak (before : Build) (frames : List Frame) (leaks : mayLeak) :
      Effect mayLeak before { before with frames }
  | share {before : Build} {name : String} {commands : List Command}
      (isNew : before.session.sharedFiles.contains name = false)
      (calls : ∀ command ∈ commands, ∀ path, command.called? = some path →
        path = generatedPath name) :
      Effect mayLeak before (before.sharedFile name commands).2

def Effects (mayLeak : Prop) : Build → Build → Prop :=
  Relation.ReflTransGen (Effect mayLeak)

def addRoutine (build : Build) (routine : Routine) : Nat × Build :=
  match build.findRoutine? routine.name with
  | some index => (index, { build with routines := build.routines.set index routine })
  | none => (build.routines.length, { build with routines := build.routines ++ [routine] })

def routineFile (build : Build) (routine : Routine) : CommandFile :=
  { name := routine.file, routine := some (build.addRoutine routine).1 }

/-- The next command is executed for the entities that frames let through. -/
def guarded (build : Build) (frames : List Frame) : Build :=
  { build.pushSelector .self with frames := build.frames ++ frames }

/-- The next block goes into a generated file, which is called under frames. -/
def branching (build : Build) (frames : List Frame) : Build :=
  let (file, build) := (build.pushSelector .self).generatedFile "branch" []
  (build.emitLine ⟨frames, file.call⟩).setHooks
    { opening := [.pushFile file], closing := [.popFile, .popSelector] }

/-- How statements end. -/
inductive Ending where
  | plain
  | routine
  | halt
deriving DecidableEq

/-- The last change that a statement makes, which may make the next statement or block a special
one. Only the definition of a routine starts a file for its body, and only a halt makes the next
statements unreachable. -/
inductive Finish : Ending → Build → Build → Prop where
  | done (build : Build) : Finish .plain build build
  | select {build : Build} (selector : Selector) (next : build.nextIsBlock = true) :
      Finish .plain build (build.setHooks
        { opening := [.pushSelector selector], closing := [.popSelector] })
  | skip {build : Build} (next : build.nextIsBlock = true) :
      Finish .plain build (build.setHooks { skip := true })
  | leaveOut {build : Build} (next : build.nextIsBlock = true) :
      Finish .plain build ((build.pushSelector .self).setHooks
        { closing := [.popSelector], skip := true })
  | guard (build : Build) (frames : List Frame) :
      Finish .plain build (build.guarded frames).popAfterNext
  | guardOne {build : Build} (frames : List Frame) (next : build.nextIsBlock = true) :
      Finish .plain build (build.guarded frames).enterBlock.popAfterNext
  | branch {build : Build} (frames : List Frame) (next : build.nextIsBlock = true) :
      Finish .plain build (build.branching frames)
  | routine {build : Build} (routine : Routine) (next : build.nextIsBlock = true) :
      Finish .routine build ((build.addRoutine routine).2.setHooks
        { opening := [.pushSelector routine.selector, .pushFile (build.routineFile routine)]
          closing := [.popSelector, .popFile] })
  | halt (build : Build) : Finish .halt build build.markUnreachable

variable {mayLeak : Prop} {before middle after : Build}

theorem Aside.refl (build : Build) : build.Aside build :=
  ⟨rfl, .refl _⟩

theorem Aside.of_board (core : after.core = before.core) (board : after.scoreboard = before.scoreboard) :
    before.Aside after :=
  ⟨core, board ▸ .refl _⟩

/-- To go past a brace is to open a block that does nothing when it closes. -/
theorem enterBlock_eq (build : Build) : ∃ upcoming opened,
    build.enterBlock = { build with upcoming, openBlocks := opened ++ build.openBlocks } ∧
      upcoming <:+ build.upcoming ∧ ∀ actions ∈ opened, actions = [] := by
  unfold enterBlock
  split
  · next statement rest upcoming =>
    split
    · exact ⟨rest, [[]], rfl, upcoming ▸ suffix_cons _ _, fun _ => mem_singleton.1⟩
    · exact ⟨build.upcoming, [], rfl, suffix_refl _, nofun⟩
  · exact ⟨build.upcoming, [], rfl, suffix_refl _, nofun⟩

theorem addRoutine_eq (build : Build) (routine : Routine) :
    ∃ routines, (build.addRoutine routine).2 = { build with routines } ∧
      ∀ other ∈ routines, other = routine ∨ other ∈ build.routines := by
  unfold addRoutine
  split
  · exact ⟨_, rfl, fun other member => (mem_or_eq_of_mem_set member).symm⟩
  · refine ⟨_, rfl, fun other member => ?_⟩
    exact (mem_append.1 member).symm.imp_left mem_singleton.1

theorem Effects.aside (aside : before.Aside after) (upcoming : after.upcoming = before.upcoming)
    (reach : after.unreachable = before.unreachable) : Effects mayLeak before after :=
  .single (.aside aside (upcoming ▸ suffix_refl _) reach)

/-! Writing lines. -/

theorem Calls.within {lines : List Line} (calls : before.Calls lines) (frames : List Frame) :
    before.Calls (lines.map (·.within frames)) := by
  intro line member path called
  obtain ⟨inner, isInner, rfl⟩ := mem_map.1 member
  exact calls inner isInner path called

theorem calls_plain {commands : List Command}
    (calls : ∀ command ∈ commands, ∀ path, command.called? = some path → before.Callable path) :
    before.Calls (commands.map .plain) := by
  intro line member path called
  obtain ⟨command, isCommand, rfl⟩ := mem_map.1 member
  exact calls command isCommand path called

/-- Lines under further frames are written here or into a generated file, and use the frames up. -/
theorem effects_emitBatch {lines : List Line} {extra : List Frame} (word : String) (inPlace : Bool)
    (calls : before.Calls lines) (used : lines = [] → extra = [] ∨ mayLeak) :
    Effects mayLeak before
      (({ before with frames := before.frames ++ extra } : Build).emitBatch lines word inPlace) := by
  -- without lines the frames stay, one line is written here, several may get a file of their own
  rcases lines with _ | ⟨first, _ | ⟨second, rest⟩⟩
  · obtain rfl | leaks := used rfl
    · have same : ({ before with frames := before.frames ++ [] } : Build) = before := by
        rw [append_nil]
      rw [same]
      exact .refl
    · exact .single (.leak before _ leaks)
  · exact .tail (.single (.write (calls.within (before.frames ++ extra)))) (.clear _)
  · unfold emitBatch
    dsimp only
    split
    · exact .tail (.single (.write (calls.within (before.frames ++ extra)))) (.clear _)
    · exact .tail (.single (.factor word (before.frames ++ extra) calls)) (.clear _)

theorem effects_emitBatchKeeping {lines : List Line} (word : String) (calls : before.Calls lines) :
    Effects mayLeak before (before.emitBatchKeeping lines word) := by
  rcases lines with _ | ⟨first, _ | ⟨second, rest⟩⟩
  · exact .refl
  · exact .single (.write (calls.within before.frames))
  · unfold emitBatchKeeping
    dsimp only
    split
    · exact .single (.write calls)
    · exact .single (.factor word before.frames calls)

/-- With `@s` naming the selected entities, lines stand under the frames that make it so. -/
theorem popSelector_emitBatch_align (build : Build) (lines : List Line) (word : String)
    (inPlace : Bool) : (build.align.emitBatch lines word inPlace).popSelector =
      ({ build with frames := build.frames ++ build.active.alignment } : Build).emitBatch lines word
        inPlace := by
  have aligned : build.align = ({ build with frames := build.frames ++ build.active.alignment } :
      Build).pushSelector (if build.active.needsAlign then .self else build.active) := by
    unfold align Selector.alignment
    split
    · rfl
    · rw [append_nil]
  have pushed (build : Build) (selector : Selector) :
      ((build.pushSelector selector).emitBatch lines word inPlace).popSelector =
        build.emitBatch lines word inPlace := by
    rcases lines with _ | ⟨first, _ | ⟨second, rest⟩⟩
    · rfl
    · rfl
    · unfold emitBatch
      dsimp only
      have frames : (build.pushSelector selector).frames = build.frames := rfl
      rw [frames]
      split <;> rfl
  rw [aligned, pushed]

end Build

end ScriptPack
