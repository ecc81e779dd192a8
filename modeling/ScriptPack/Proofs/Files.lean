import ScriptPack.Proofs.Delivery

/-!
The files of a compiled pack. Whatever the compiler calls is the path of a file of the pack; the root
file comes first; and the pack holds every file that a run has started, made up or shared, once each,
with all that was written to it.
-/

namespace ScriptPack

open Build BuildM CommandFile List

def CommandFile.declaring (file : CommandFile) (objectives : List String) : CommandFile :=
  { file with lines := objectives.map (fun name => .plain (.objectiveAdd name)) ++ file.lines }

def Pack.CallsResolve (pack : Pack) : Prop :=
  ∀ file ∈ pack.files, ∀ line ∈ file.lines, ∀ path, line.command.called? = some path →
    ∃ other ∈ pack.files, other.path = path

namespace Build

variable {before after build : Build} {names : Multiset String} {started : Multiset CommandFile}

def bodyCount (build : Build) : Nat :=
  build.allFiles.countP fun file => file.routine.isSome = true

theorem Delivery.labels (delivery : Delivery names started before after) :
    after.allFiles.map label =
      before.allFiles.map label + (names.map (generated · []) + started) := by
  obtain ⟨kept, new, grown, files, labels⟩ := delivery.files
  rw [files, Multiset.map_add, map_label_of_rel grown, labels]

theorem Delivery.bodyCount_eq (delivery : Delivery names started before after) :
    after.bodyCount = before.bodyCount + Multiset.card started := by
  let isBody (file : CommandFile) : Prop := file.routine.isSome = true
  have counted (files : Multiset CommandFile) :
      files.countP isBody = (files.map label).countP isBody := by
    rw [Multiset.countP_map, Multiset.countP_eq_card_filter]
    rfl
  have made : (names.map (generated · [])).countP isBody = 0 := by
    rw [Multiset.countP_eq_zero]
    intro file member
    obtain ⟨name, -, rfl⟩ := Multiset.mem_map.1 member
    exact nofun
  have bodies : started.countP isBody = Multiset.card started :=
    Multiset.countP_eq_card.2 fun file member => (delivery.bodies file member).2
  change after.allFiles.countP isBody = before.allFiles.countP isBody + _
  rw [counted after.allFiles, counted before.allFiles, delivery.labels, Multiset.countP_add,
    Multiset.countP_add, made, bodies, zero_add]

/-! Finishing the files that are left on the stack. -/

theorem popFile_outerFiles (build : Build) : build.popFile.outerFiles = build.outerFiles.tail := by
  unfold popFile
  split
  · next outer => rw [outer, tail_nil]
  · next file rest outer => rw [outer, tail_cons]

theorem popFile_pendingBlock (build : Build) : build.popFile.pendingBlock = build.pendingBlock := by
  unfold popFile
  split <;> rfl

theorem repeat_popFile (build : Build) (count : Nat) :
    Moved 0 build (Nat.repeat popFile count build) ∧
      (Nat.repeat popFile count build).outerFiles = build.outerFiles.drop count ∧
      (Nat.repeat popFile count build).pendingBlock = build.pendingBlock := by
  induction count with
  | zero =>
    exact ⟨.of_same rfl (.refl _), (drop_zero).symm, rfl⟩
  | succ count ih =>
    obtain ⟨moved, outer, hooks⟩ := ih
    have popped := moved.trans (moved_popFile _)
    rw [add_zero] at popped
    refine ⟨popped, ?_, ?_⟩
    · rw [Nat.repeat, popFile_outerFiles, outer, tail_drop]
    · rw [Nat.repeat, popFile_pendingBlock, hooks]

/-- Every file has its own place in a pack, where it has grown; those that are finished stand there
as they are. -/
structure IsDelivered (build : Build) (root : CommandFile) (rest : List CommandFile) : Prop where
  grown : build.rootFile.Grows root
  finished : build.pack.files <+: rest
  files : ∃ kept, Multiset.Rel Grows build.allFiles kept ∧
    kept ≤ (root :: rest : List CommandFile)

/-- Where the stack and the block to come have no files, all there are is the root file and the
pack. -/
structure IsFinished (build : Build) : Prop where
  outer : build.outerFiles = []
  waiting : build.waitingFiles = []

theorem IsFinished.allFiles (finished : build.IsFinished) :
    build.allFiles = (build.file :: build.pack.files : List CommandFile) := by
  unfold Build.allFiles
  rw [finished.outer, finished.waiting]
  rfl

theorem delivery_finishFiles (build : Build) : Delivery 0 0 build build.finishFiles :=
  (build.repeat_popFile build.outerFiles.length).1.delivery

theorem isFinished_finishFiles (noHooks : build.pendingBlock = none) :
    build.finishFiles.IsFinished := by
  obtain ⟨-, outer, hooks⟩ := build.repeat_popFile build.outerFiles.length
  exact ⟨outer.trans drop_length, waitingFiles_of_noHooks (hooks.trans noHooks)⟩

theorem Delivery.isDelivered (delivery : Delivery names started before after)
    (finished : after.IsFinished) : before.IsDelivered after.file after.pack.files where
  grown := by
    have grown := delivery.root
    rwa [rootFile, rootFile, finished.outer] at grown
  finished := delivery.finished
  files := by
    obtain ⟨kept, new, grown, files, -⟩ := delivery.files
    refine ⟨kept, grown, ?_⟩
    rw [← finished.allFiles, files]
    exact Multiset.le_add_right kept new

/-- The pack of a run is the root file, with what has waited for its top, and the finished files. -/
theorem finish_files (build : Build) : build.finish.files =
      { build.finishFiles.file with
        lines := build.finishFiles.scoreboard.pendingHead.map Line.plain ++ build.finishFiles.head ++
          build.finishFiles.file.lines } :: build.finishFiles.pack.files ∧
    build.finish.name = build.finishFiles.pack.name := by
  unfold finish
  dsimp only
  split
  · unfold Pack.addAsset
    split <;> exact ⟨rfl, rfl⟩
  · exact ⟨rfl, rfl⟩

end Build

namespace BuildM

variable {run : Runner} {statement : Statement} {before after : Build}

/-- A statement that runs no others starts one file if it defines a routine, and none otherwise. -/
theorem delivery_of_runScoped (runsNone : statement.runsLists = false) (level : before.Level)
    (rests : before.pendingBlock.isSome = true → statement.isOpenBlock = true)
    (ran : runScoped run statement before = .ok () after) :
    ∃ names started, Delivery names started before after ∧
      Multiset.card started = if statement.startsRoutine then 1 else 0 := by
  obtain ⟨middle, reached, inside, reaches, rfl⟩ := runScoped_eq_ok_iff.1 ran
  have entered := before.aside_enter statement
  have left : Delivery 0 0 middle reached.settlePops :=
    (middle.aside_popScope.delivery.andThen (checkReachable_aside reaches).1.delivery).andThen
      reached.moved_settlePops.delivery
  have within : ∃ names started, Delivery names started (before.enter statement) middle ∧
      Multiset.card started = if statement.startsRoutine then 1 else 0 := by
    cases isBrace : statement.isBrace with
    | false =>
      obtain ⟨last, effects, finish⟩ := effects_of_runStatement isBrace runsNone inside
      have noHooks : last.pendingBlock = none := by
        rw [effects.leaves.1.hooks, entered.sameStacks.hooks]
        exact pendingBlock_of_noBrace rests isBrace
      obtain ⟨names, delivery⟩ := effects.delivery
      obtain ⟨others, started, finished, count⟩ := finish.delivery noHooks
      refine ⟨names + others, 0 + started, delivery.trans finished, ?_⟩
      simp only [zero_add, count, statement.ending_eq_routine_iff]
    | true =>
      have levelEntered := level.congr entered.sameStacks
      obtain ⟨size, opens⟩ | closes := Statement.brace_cases isBrace
      · cases (runStatement_open opens).symm.trans inside
        refine ⟨0, 0, (levelEntered.moved_openBlock size).delivery, ?_⟩
        rw [Statement.startsRoutine, opens]
        rfl
      · have closed := (runStatement_close_eq_ok_iff closes).1 inside
        refine ⟨0, 0, (levelEntered.moved_closeBlock closed).delivery, ?_⟩
        rw [Statement.startsRoutine, closes]
        rfl
  obtain ⟨names, started, delivery, count⟩ := within
  refine ⟨0 + names, 0 + started, entered.delivery.trans (delivery.andThen left), ?_⟩
  rw [zero_add, count]

end BuildM

theorem compile_eq_ok {storage : FileTree} {options : Options} {file source : String} {pack : Pack}
    {stats : Stats} (compiled : (compile storage options file source).1 = .ok (pack, stats)) :
    ∃ statements last, readScript file source = .ok statements ∧
      runScript options statements (.forScript storage options file) = .ok () last ∧
      pack = last.finish := by
  unfold compile at compiled
  cases isRead : readScript file source with
  | error error =>
    rw [isRead] at compiled
    cases compiled
  | ok statements =>
    rw [isRead] at compiled
    dsimp only at compiled
    rcases ran : (runScript options statements).run (.forScript storage options file) with
      ⟨_, last⟩ | ⟨error, last⟩
    · rw [ran] at compiled
      cases compiled
      exact ⟨statements, last, rfl, ran, rfl⟩
    · rw [ran] at compiled
      cases compiled

namespace Build

variable {start done last : Build} {names : Multiset String} {started : Multiset CommandFile}

/-- There is the root file only, without lines, and nothing to call. -/
structure IsFresh (build : Build) : Prop where
  file : build.file = { name := build.pack.name }
  finished : build.IsFinished
  files : build.pack.files = []
  callable : ∀ path, ¬build.Callable path
  tidy : build.session.IsTidy
  made : build.session.madeNames = 0
  head : build.head = []
  board : build.scoreboard.pendingHead = []

theorem isFresh_forScript (storage : FileTree) (options : Options) (file : String) :
    (forScript storage options file).IsFresh where
  file := rfl
  finished := ⟨rfl, rfl⟩
  files := rfl
  callable := by
    rintro path (isRoutine | ⟨name, isShared, -⟩)
    · cases isRoutine
    · cases isShared
  tidy := ⟨nodup_nil, nodup_nil⟩
  made := rfl
  head := rfl
  board := rfl

theorem IsFresh.hasPath (fresh : start.IsFresh) (delivery : Delivery names started start done)
    {file : CommandFile} (member : file ∈ done.allFiles) {line : Line} (isLine : line ∈ file.lines)
    {path : String} (called : line.command.called? = some path) : done.HasPath path := by
  obtain ⟨old, isOld, among⟩ | calls := delivery.calls file member line isLine
  · rw [fresh.finished.allFiles, fresh.files, fresh.file] at isOld
    rw [mem_singleton.1 isOld] at among
    cases among
  · exact (calls path called).resolve_left (fresh.callable path)

/-- From a fresh state on, the root file keeps its name, and all other files are made up or bodies. -/
theorem IsFresh.labels (fresh : start.IsFresh) (delivery : Delivery names started start done)
    (finished : done.IsFinished) : done.file.label = { name := done.pack.name } ∧
      ((done.pack.files.map label : List CommandFile) : Multiset CommandFile) =
        names.map (generated · []) + started := by
  have root := delivery.root.label
  rw [rootFile, rootFile, finished.outer, fresh.finished.outer] at root
  have rootLabel : done.file.label = { name := done.pack.name } := by
    rw [delivery.name]
    exact root.trans (congrArg label fresh.file)
  refine ⟨rootLabel, ?_⟩
  -- both sides begin with the root file, which cancels
  have labels := delivery.labels
  rw [finished.allFiles, fresh.finished.allFiles, fresh.files, fresh.file] at labels
  have cons : ((done.file :: done.pack.files : List CommandFile) : Multiset CommandFile).map
      label = {done.file.label} + (done.pack.files.map label : List _) := rfl
  rw [cons, rootLabel, delivery.name] at labels
  exact add_left_cancel labels

/-- From a fresh state on, only declarations wait for the top of the root file. -/
theorem IsFresh.head_lines (fresh : start.IsFresh) (delivery : Delivery names started start done) :
    ∃ objectives : List String, done.scoreboard.pendingHead.map Line.plain ++ done.head =
      objectives.map fun name => .plain (.objectiveAdd name) := by
  obtain ⟨objectives, grown⟩ := delivery.board
  refine ⟨objectives, ?_⟩
  rw [grown, fresh.board, delivery.head, fresh.head, nil_append, append_nil, map_map]
  rfl

end Build

theorem Pack.callsResolve_declaring {pack : Pack} {root : CommandFile} {rest : List CommandFile}
    {objectives : List String} (files : pack.files = root.declaring objectives :: rest)
    (resolve : ∀ file ∈ root :: rest, ∀ line ∈ file.lines, ∀ path,
      line.command.called? = some path → ∃ other ∈ root :: rest, other.path = path) :
    pack.CallsResolve := by
  have found {path : String} : (∃ other ∈ root :: rest, other.path = path) →
      ∃ other ∈ pack.files, other.path = path := by
    rintro ⟨other, member, rfl⟩
    rw [files]
    obtain rfl | isRest := mem_cons.1 member
    · exact ⟨_, mem_cons_self, rfl⟩
    · exact ⟨other, mem_cons_of_mem _ isRest, rfl⟩
  intro file member line isLine path called
  rw [files] at member
  obtain rfl | isRest := mem_cons.1 member
  · obtain isTop | isOwn := mem_append.1 isLine
    · obtain ⟨name, -, rfl⟩ := mem_map.1 isTop
      cases called
    · exact found (resolve root mem_cons_self line isOwn path called)
  · exact found (resolve file (mem_cons_of_mem _ isRest) line isLine path called)

open Classical in
/-- What a script that is compiled makes of its files. Whatever is called is there. The root file comes
first, with declarations at its top; the others are one file for each name that has been made up, and
the bodies of routines, of which each definition has started one. At every boundary of the run, all the
files that there are go into the pack, each to a place of its own, with the lines it has. -/
theorem compiled_files_complete {storage : FileTree} {options : Options} {file source : String}
    {pack : Pack} {stats : Stats}
    (compiled : (compile storage options file source).1 = .ok (pack, stats)) :
    pack.CallsResolve ∧
    ∃ (statements : List Statement) (last : Build) (root : CommandFile) (objectives : List String)
        (rest : List CommandFile) (bodies : Multiset CommandFile),
      readScript file source = .ok statements ∧
      runScript options statements (.forScript storage options file) = .ok () last ∧
      pack.files = root.declaring objectives :: rest ∧ root.label = { name := pack.name } ∧
      ((rest.map CommandFile.label : List CommandFile) : Multiset CommandFile) =
        last.session.madeNames.map (CommandFile.generated · []) + bodies ∧
      last.session.IsTidy ∧ (∀ body ∈ bodies, body.folder = none ∧ body.routine.isSome = true) ∧
      ∀ alarm, watchScript alarm (fun statement before after =>
          before.IsDelivered root rest ∧ after.IsDelivered root rest ∧
          (statement.runsLists = false →
            after.bodyCount = before.bodyCount + if statement.startsRoutine then 1 else 0))
        options statements (.forScript storage options file) = .ok () last := by
  obtain ⟨statements, last, isRead, ran, rfl⟩ := compile_eq_ok compiled
  have level := Build.level_forScript storage options file
  have fresh := Build.isFresh_forScript storage options file
  obtain ⟨noHooks, moves, -⟩ := moves_of_runScript level rfl ran
  obtain ⟨names, started, delivery⟩ := moves.delivery
  -- the pack is what there is when the stack has been emptied after the run
  have popped := last.delivery_finishFiles
  have finished := Build.isFinished_finishFiles noHooks
  have whole := delivery.andThen popped
  obtain ⟨files, name⟩ := last.finish_files
  obtain ⟨objectives, head⟩ := fresh.head_lines whole
  obtain ⟨tidy, made⟩ := delivery.made fresh.tidy
  obtain ⟨rootLabel, labels⟩ := fresh.labels whole finished
  have declared : last.finish.files =
      last.finishFiles.file.declaring objectives :: last.finishFiles.pack.files := by
    rw [files, head]
    rfl
  refine ⟨Pack.callsResolve_declaring declared ?_, statements, last, last.finishFiles.file, objectives,
    last.finishFiles.pack.files, started, isRead, ran, declared, ?_, ?_, tidy, whole.bodies, ?_⟩
  · intro file member line isLine path called
    have found := fresh.hasPath whole (finished.allFiles ▸ member) isLine called
    rwa [Build.HasPath, finished.allFiles] at found
  · rw [name]
    exact rootLabel
  · rw [labels, made, fresh.made, zero_add]
  · refine watchScript_of_runScript level rfl ran ?_
    intro statement before after occurs
    obtain ⟨_, _, own⟩ := occurs.moves.delivery
    obtain ⟨_, _, rest⟩ := occurs.rest.delivery
    have toEnd := rest.andThen popped
    refine ⟨(own.trans toEnd).isDelivered finished, toEnd.isDelivered finished, fun runsNone => ?_⟩
    obtain ⟨run, ranOne⟩ := occurs.ran
    obtain ⟨_, bodies, delivered, count⟩ :=
      delivery_of_runScoped runsNone occurs.level occurs.rests ranOne
    rw [delivered.bodyCount_eq, count]

/-! A script with a routine, a branch in it, and a shared file. -/

namespace Removing

def source : String :=
  "\n".intercalate ["define a", "function f() \x7b", "if a > 1 \x7b", "say \"x\"", "say \"y\"", "\x7d",
    "\x7d", "select @a \x7b", "remove", "\x7d", "f()"]

def paths : List String :=
  match (compile {} {} "main.mcc" source).1 with
  | .ok (pack, _) => pack.files.map path
  | .error _ => []

theorem paths_eq : paths = ["main", "compiler/branch0", "f", "compiler/silent_remove"] := by
  decide +kernel

end Removing

/-- The branch is finished before the body that calls it, the shared file after both. -/
theorem compiled_files_complete_removing :
    ∃ pack stats, (compile {} {} "main.mcc" Removing.source).1 = .ok (pack, stats) ∧
      pack.files.map CommandFile.path = ["main", "compiler/branch0", "f", "compiler/silent_remove"] ∧
      pack.CallsResolve ∧
      ∃ (root : CommandFile) (objectives : List String) (rest : List CommandFile),
        pack.files = root.declaring objectives :: rest ∧ root.label = { name := pack.name } := by
  have paths := Removing.paths_eq
  unfold Removing.paths at paths
  rcases compiled : (compile {} {} "main.mcc" Removing.source).1 with error | ⟨pack, stats⟩
  · rw [compiled] at paths
    cases paths
  · rw [compiled] at paths
    obtain ⟨resolve, _, _, root, objectives, rest, _, _, _, files, label, -⟩ :=
      compiled_files_complete compiled
    exact ⟨pack, stats, rfl, paths, resolve, root, objectives, rest, files, label⟩

end ScriptPack
