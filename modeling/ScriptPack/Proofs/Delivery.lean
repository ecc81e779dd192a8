import Mathlib.Algebra.Order.Group.Multiset
import Mathlib.Data.List.Infix
import ScriptPack.Proofs.Watch

/-!
Where files of commands come from and where they go. From its start on, by being pushed, generated or
shared, a file is in one place at a time: it waits for the block to come, stands on the stack, or is
in the pack; it only ever grows, and calls only files that there are. All of it is proved from what one
move of a run does.
-/

namespace ScriptPack

open BlockAction CommandFile List Multiset Session

open scoped List

/-! Names that the compiler makes up. -/

namespace Table

variable {κ α : Type} [DecidableEq κ] {table : Table κ α} {key : κ}

def keys (table : Table κ α) : List κ :=
  table.entries.map Prod.fst

theorem keys_insert (table : Table κ α) (key : κ) (value : α) :
    (table.insert key value).keys = key :: table.keys.filter (!key == ·) := by
  unfold keys insert erase
  rw [List.map_cons, List.filter_map]
  rfl

theorem nodup_keys_insert (nodup : table.keys.Nodup) (key : κ) (value : α) :
    (table.insert key value).keys.Nodup := by
  rw [keys_insert]
  exact nodup_cons.2 ⟨by simp, nodup.filter _⟩

theorem entries_erase_of_notMem (absent : key ∉ table.keys) :
    (table.erase key).entries = table.entries := by
  refine filter_eq_self.2 fun entry member => ?_
  have different : key ≠ entry.1 := fun same => absent (same ▸ mem_map_of_mem member)
  simp [different]

/-- Of an entry that is the only one of its key, the table is made up and of the others. -/
theorem perm_entries (nodup : table.keys.Nodup) {value : α} (found : table.get? key = some value) :
    table.entries.Perm ((key, value) :: (table.erase key).entries) := by
  obtain ⟨entries⟩ := table
  induction entries with
  | nil => cases found
  | cons entry rest ih =>
    obtain ⟨first, other⟩ := entry
    obtain ⟨absent, nodupRest⟩ := nodup_cons.1 nodup
    by_cases same : key = first
    · subst same
      have isOther : other = value := by simpa [get?] using found
      have erased : (erase ⟨(key, other) :: rest⟩ key).entries = rest := by
        have kept := @entries_erase_of_notMem _ _ _ ⟨rest⟩ key absent
        unfold erase at kept ⊢
        rw [filter_cons_of_neg (by simp)]
        exact kept
      rw [erased, isOther]
    · have foundRest : get? ⟨rest⟩ key = some value := by
        simpa [get?, lookup_cons, beq_eq_false_iff_ne.2 same] using found
      have erased : (erase ⟨(first, other) :: rest⟩ key).entries =
          (first, other) :: (erase ⟨rest⟩ key).entries := by
        unfold erase
        rw [List.filter_cons_of_pos (by simp [same])]
      rw [erased]
      exact ((ih nodupRest foundRest).cons _).trans (.swap _ _ _)

end Table

namespace Session

def generatedNames (session : Session) : List String :=
  session.generated.entries.flatMap fun entry =>
    (List.range entry.2).map fun number => entry.1 ++ toString number

def madeNames (session : Session) : Multiset String :=
  session.generatedNames ++ session.sharedFiles

/-- No word has two counts, and no file is shared twice. -/
structure IsTidy (session : Session) : Prop where
  words : session.generated.keys.Nodup
  shared : session.sharedFiles.Nodup

variable {session : Session}

theorem generatedNames_generateName (tidy : session.IsTidy) (word : String) :
    (session.generateName word).2.generatedNames.Perm
      ((session.generateName word).1 :: session.generatedNames) := by
  let names (entry : String × Nat) : List String :=
    (List.range entry.2).map fun number => entry.1 ++ toString number
  let count := (session.generated.get? word).getD 0
  have counted : session.generated.entries.flatMap names ~
      names (word, count) ++ (session.generated.erase word).entries.flatMap names := by
    cases found : session.generated.get? word with
    | none =>
      have absent : word ∉ session.generated.keys := by
        intro member
        obtain ⟨entry, isEntry, rfl⟩ := List.mem_map.1 member
        have different := List.lookup_eq_none_iff.1 found entry isEntry
        simp at different
      rw [Table.entries_erase_of_notMem absent, show count = 0 by simp [count, found]]
      exact .refl _
    | some value =>
      rw [show count = value by simp [count, found]]
      exact (Table.perm_entries tidy.words found).flatMap_right names
  have next : names (word, count + 1) = names (word, count) ++ [word ++ toString count] := by
    simp only [names, List.range_succ, List.map_append, List.map_cons, List.map_nil]
  change names (word, count + 1) ++ (session.generated.erase word).entries.flatMap names ~
    (word ++ toString count) :: session.generated.entries.flatMap names
  rw [next, List.append_assoc]
  exact List.perm_middle.trans (counted.symm.cons _)

theorem IsTidy.generateName (tidy : session.IsTidy) (word : String) :
    (session.generateName word).2.IsTidy ∧ (session.generateName word).2.madeNames =
      session.madeNames + {(session.generateName word).1} := by
  refine ⟨⟨Table.nodup_keys_insert tidy.words _ _, tidy.shared⟩, ?_⟩
  rw [add_comm]
  exact coe_eq_coe.2 ((generatedNames_generateName tidy word).append_right _)

theorem IsTidy.reserveFile (tidy : session.IsTidy) {name : String}
    (isNew : session.sharedFiles.contains name = false) :
    (session.reserveFile name).2.IsTidy ∧
      (session.reserveFile name).2.madeNames = session.madeNames + {name} := by
  unfold Session.reserveFile
  rw [if_neg (by rw [isNew]; exact Bool.false_ne_true)]
  have absent : name ∉ session.sharedFiles := by
    intro member
    rw [contains_iff_mem.2 member] at isNew
    cases isNew
  refine ⟨⟨tidy.words, nodup_cons.2 ⟨absent, tidy.shared⟩⟩, ?_⟩
  rw [add_comm]
  exact coe_eq_coe.2 perm_middle

end Session

/-! Files that grow. -/

namespace CommandFile

def label (file : CommandFile) : CommandFile :=
  { file with lines := [] }

/-- Lines have been added at the end, and nothing else has changed. -/
structure Grows (before after : CommandFile) : Prop where
  label : after.label = before.label
  lines : before.lines <+: after.lines

variable {before middle after : CommandFile}

theorem Grows.refl (file : CommandFile) : file.Grows file :=
  ⟨rfl, prefix_refl _⟩

theorem Grows.trans (first : before.Grows middle) (second : middle.Grows after) :
    before.Grows after :=
  ⟨second.label.trans first.label, first.lines.trans second.lines⟩

instance : IsTrans CommandFile Grows :=
  ⟨fun _ _ _ => Grows.trans⟩

theorem grows_append (file : CommandFile) (lines : List Line) : file.Grows (file.append lines) :=
  ⟨rfl, prefix_append _ _⟩

theorem Grows.path (grows : before.Grows after) : after.path = before.path := by
  change after.label.path = before.label.path
  rw [grows.label]

theorem rel_grows_refl (files : Multiset CommandFile) : Rel Grows files files :=
  rel_refl_of_refl_on fun file _ => .refl file

theorem map_label_of_rel {files others : Multiset CommandFile}
    (grown : Rel Grows files others) : others.map label = files.map label := by
  induction grown with
  | zero => rfl
  | cons grows _ ih => rw [Multiset.map_cons, Multiset.map_cons, grows.label, ih]

end CommandFile

def BlockAction.file? : BlockAction → Option CommandFile
  | pushFile file => some file
  | _ => none

namespace Build

variable {lines : List Line}

def waitingFiles (build : Build) : List CommandFile :=
  (build.pendingBlock.getD {}).opening.filterMap file?

def rootFile (build : Build) : CommandFile :=
  build.outerFiles.getLastD build.file

/-- Every file that there is: on the stack, waiting for the block to come, and in the pack. -/
def allFiles (build : Build) : Multiset CommandFile :=
  build.file :: build.outerFiles ++ build.waitingFiles ++ build.pack.files

def HasPath (build : Build) (path : String) : Prop :=
  ∃ file ∈ build.allFiles, file.path = path

/-- Between two states, files only grow and none is lost. Those with the given names are made up by the
compiler, others are started for the bodies of routines, and no others are new. New lines call what
could be called before, or files that there are. -/
structure Delivery (names : Multiset String) (started : Multiset CommandFile) (before after : Build) :
    Prop where
  root : before.rootFile.Grows after.rootFile
  finished : before.pack.files <+: after.pack.files
  files : ∃ kept new, Rel Grows before.allFiles kept ∧
    after.allFiles = kept + new ∧
    new.map label = names.map (generated · []) + started
  bodies : ∀ file ∈ started, file.folder = none ∧ file.routine.isSome = true
  calls : ∀ file ∈ after.allFiles, ∀ line ∈ file.lines, (∃ old ∈ before.allFiles, line ∈ old.lines) ∨
    ∀ path, line.command.called? = some path → before.Callable path ∨ after.HasPath path
  callable : ∀ path, after.Callable path → before.Callable path ∨ after.HasPath path
  made : before.session.IsTidy →
    after.session.IsTidy ∧ after.session.madeNames = before.session.madeNames + names
  name : after.pack.name = before.pack.name
  head : after.head = before.head
  board : before.scoreboard.HeadGrows after.scoreboard

variable {mayLeak : Prop} {ending : Ending} {before middle after build : Build}
  {names others : Multiset String} {started more : Multiset CommandFile} {path : String}
  {file : CommandFile}

theorem HasPath.of_grown {kept : Multiset CommandFile} (grown : Rel Grows before.allFiles kept)
    (files : kept ≤ after.allFiles) (found : before.HasPath path) : after.HasPath path := by
  obtain ⟨file, member, rfl⟩ := found
  obtain ⟨later, isLater, grows⟩ := exists_mem_of_rel_of_mem grown member
  exact ⟨later, mem_of_le files isLater, grows.path⟩

theorem Delivery.hasPath (delivery : Delivery names started before after)
    (found : before.HasPath path) : after.HasPath path := by
  obtain ⟨kept, new, grown, files, -⟩ := delivery.files
  exact found.of_grown grown (files ▸ le_add_right kept new)

theorem Delivery.trans (first : Delivery names started before middle)
    (second : Delivery others more middle after) :
    Delivery (names + others) (started + more) before after where
  root := first.root.trans second.root
  finished := first.finished.trans second.finished
  files := by
    obtain ⟨kept, new, grown, files, labels⟩ := first.files
    obtain ⟨keptLater, newLater, grownLater, filesLater, labelsLater⟩ := second.files
    rw [files] at grownLater
    -- what the first part has made grows in the second one
    obtain ⟨keptTwice, newKept, grownKept, grownNew, rfl⟩ := rel_add_left.1 grownLater
    refine ⟨keptTwice, newKept + newLater, grown.trans _ grownKept, ?_, ?_⟩
    · rw [filesLater, add_assoc]
    · rw [map_add, map_label_of_rel grownNew, labels, labelsLater, map_add]
      exact add_add_add_comm _ _ _ _
  bodies := fun file member => (mem_add.1 member).elim (first.bodies file) (second.bodies file)
  calls := by
    intro file member line isLine
    obtain ⟨old, isOld, among⟩ | called := second.calls file member line isLine
    · refine (first.calls old isOld line among).imp_right fun called path calls => ?_
      exact (called path calls).imp_right second.hasPath
    · refine .inr fun path calls => ?_
      obtain callable | found := called path calls
      · exact (first.callable path callable).imp_right second.hasPath
      · exact .inr found
  callable := by
    intro path callable
    obtain callable | found := second.callable path callable
    · exact (first.callable path callable).imp_right second.hasPath
    · exact .inr found
  made := by
    intro tidy
    obtain ⟨tidyMiddle, madeMiddle⟩ := first.made tidy
    obtain ⟨tidyAfter, madeAfter⟩ := second.made tidyMiddle
    exact ⟨tidyAfter, by rw [madeAfter, madeMiddle, add_assoc]⟩
  name := second.name.trans first.name
  head := second.head.trans first.head
  board := first.board.trans second.board

theorem Delivery.andThen (first : Delivery names started before middle)
    (second : Delivery 0 0 middle after) : Delivery names started before after := by
  simpa only [add_zero] using first.trans second

/-! What one move does to the files. -/

/-- The routines and names that files are made for have not changed. -/
structure SameLedger (before after : Build) : Prop where
  routines : after.routines.map Routine.file = before.routines.map Routine.file
  generated : after.session.generated = before.session.generated
  shared : after.session.sharedFiles = before.session.sharedFiles
  name : after.pack.name = before.pack.name
  head : after.head = before.head
  board : before.scoreboard.HeadGrows after.scoreboard

theorem SameLedger.trans (first : before.SameLedger middle) (second : middle.SameLedger after) :
    before.SameLedger after :=
  ⟨second.routines.trans first.routines, second.generated.trans first.generated,
    second.shared.trans first.shared, second.name.trans first.name, second.head.trans first.head,
    first.board.trans second.board⟩

theorem SameLedger.callable (ledger : before.SameLedger after) (callable : after.Callable path) :
    before.Callable path := by
  unfold Callable at callable
  rwa [ledger.routines, ledger.shared] at callable

theorem SameLedger.made (ledger : before.SameLedger after) (tidy : before.session.IsTidy) :
    after.session.IsTidy ∧ after.session.madeNames = before.session.madeNames + 0 := by
  refine ⟨⟨ledger.generated ▸ tidy.words, ledger.shared ▸ tidy.shared⟩, ?_⟩
  unfold madeNames generatedNames
  rw [ledger.generated, ledger.shared, add_zero]

/-- Files have been moved only, and further ones have been pushed. -/
structure Moved (pushed : Multiset CommandFile) (before after : Build) : Prop where
  files : after.allFiles = before.allFiles + pushed
  root : after.rootFile = before.rootFile
  finished : before.pack.files <+: after.pack.files
  ledger : before.SameLedger after

theorem Moved.trans {pushed further : Multiset CommandFile} (first : Moved pushed before middle)
    (second : Moved further middle after) : Moved (pushed + further) before after where
  files := by rw [second.files, first.files, add_assoc]
  root := second.root.trans first.root
  finished := first.finished.trans second.finished
  ledger := first.ledger.trans second.ledger

theorem Moved.delivery (moved : Moved 0 before after) : Delivery 0 0 before after where
  root := moved.root ▸ .refl _
  finished := moved.finished
  files := ⟨before.allFiles, 0, rel_grows_refl _, moved.files, rfl⟩
  bodies := fun _ member => absurd member (notMem_zero _)
  calls := fun file member _ isLine => .inl ⟨file, by rwa [moved.files, add_zero] at member, isLine⟩
  callable := fun _ callable => .inl (moved.ledger.callable callable)
  made := moved.ledger.made
  name := moved.ledger.name
  head := moved.ledger.head
  board := moved.ledger.board

/-- The files and what the ledger of them is read from. -/
def fileState (build : Build) : List CommandFile × List CommandFile × List CommandFile × List String ×
    Table String Nat × List String × String × List Line :=
  (build.file :: build.outerFiles, build.waitingFiles, build.pack.files,
    build.routines.map Routine.file, build.session.generated, build.session.sharedFiles,
    build.pack.name, build.head)

theorem Moved.of_same (same : after.fileState = before.fileState)
    (board : before.scoreboard.HeadGrows after.scoreboard) : Moved 0 before after := by
  simp only [fileState, Prod.mk.injEq, cons.injEq] at same
  obtain ⟨⟨file, outer⟩, waiting, files, routines, generated, shared, name, head⟩ := same
  refine ⟨?_, ?_, by rw [files], ⟨routines, generated, shared, name, head, board⟩⟩
  · unfold allFiles
    rw [file, outer, waiting, files, add_zero]
  · unfold rootFile
    rw [file, outer]

theorem Delivery.refl (build : Build) : Delivery 0 0 build build :=
  Moved.delivery (.of_same rfl (.refl _))

theorem Aside.delivery (aside : before.Aside after) : Delivery 0 0 before after := by
  obtain ⟨core, board⟩ := aside
  have hooks : after.pendingBlock = before.pendingBlock := congrArg Core.pendingBlock core
  refine (Moved.of_same ?_ board).delivery
  simp only [Build.core, Core.mk.injEq] at core
  simp only [fileState, waitingFiles, core]

theorem rel_allFiles_write (build : Build) (lines : List Line) :
    Rel Grows build.allFiles (build.write lines).allFiles :=
  .cons (grows_append build.file lines) (rel_grows_refl
    (build.outerFiles ++ build.waitingFiles ++ build.pack.files : List CommandFile))

theorem Delivery.write (calls : ∀ line ∈ lines, ∀ path,
      line.command.called? = some path → before.Callable path ∨ before.HasPath path) :
    Delivery 0 0 before (before.write lines) where
  root := by
    unfold rootFile Build.write
    cases before.outerFiles with
    | nil => exact grows_append _ _
    | cons file rest => exact .refl _
  finished := prefix_refl _
  files := ⟨(before.write lines).allFiles, 0, before.rel_allFiles_write lines, (add_zero _).symm, rfl⟩
  bodies := fun _ member => absurd member (notMem_zero _)
  calls := by
    intro file member line isLine
    obtain rfl | isOther := mem_cons.1 member
    · obtain old | isNew := mem_append.1 isLine
      · exact .inl ⟨before.file, mem_cons_self, old⟩
      · exact .inr fun path called => (calls line isNew path called).imp_right
          (HasPath.of_grown (before.rel_allFiles_write lines) le_rfl)
    · exact .inl ⟨file, mem_cons_of_mem _ isOther, isLine⟩
  callable := fun _ callable => .inl callable
  made := fun tidy => ⟨tidy, (add_zero _).symm⟩
  name := rfl
  head := rfl
  board := .refl _

theorem hasPath_of_new (files : after.allFiles = before.allFiles + {file}) :
    after.HasPath file.path :=
  ⟨file, files ▸ Multiset.mem_add.2 (.inr (Multiset.mem_singleton_self file)), rfl⟩

theorem Delivery.of_new (files : after.allFiles = before.allFiles + {file})
    (label : {file.label} = names.map (generated · []) + started)
    (finished : before.pack.files <+: after.pack.files)
    (calls : ∀ line ∈ file.lines, ∀ path, line.command.called? = some path →
      before.Callable path ∨ after.HasPath path)
    (callable : ∀ path, after.Callable path → before.Callable path ∨ after.HasPath path)
    (made : before.session.IsTidy →
      after.session.IsTidy ∧ after.session.madeNames = before.session.madeNames + names)
    (bodies : ∀ file ∈ started, file.folder = none ∧ file.routine.isSome = true)
    (root : after.rootFile = before.rootFile) (name : after.pack.name = before.pack.name)
    (head : after.head = before.head) (board : after.scoreboard = before.scoreboard) :
    Delivery names started before after where
  root := root ▸ .refl _
  finished := finished
  files := ⟨before.allFiles, {file}, rel_grows_refl _, files, label⟩
  bodies := bodies
  calls := by
    intro other member line isLine
    rw [files] at member
    obtain isOld | isNew := mem_add.1 member
    · exact .inl ⟨other, isOld, isLine⟩
    · rw [Multiset.mem_singleton.1 isNew] at isLine
      exact .inr (calls line isLine)
  callable := callable
  made := made
  name := name
  head := head
  board := board ▸ .refl _

theorem allFiles_addFile (build : Build) (session : Session) (file : CommandFile) :
    ({ build with session, pack := build.pack.addFile file } : Build).allFiles =
      build.allFiles + {file} := by
  change ((build.file :: build.outerFiles ++ build.waitingFiles ++ (build.pack.files ++ [file]) :
    List CommandFile) : Multiset CommandFile) = _
  rw [← append_assoc, ← coe_add]
  rfl

theorem Delivery.factorOut (word : String) (calls : before.Calls lines) :
    Delivery {(before.session.generateName word).1} 0 before (before.factorOut word lines).2 :=
  .of_new (before.allFiles_addFile _ _) rfl (prefix_append _ _)
    (fun line isLine path called => .inl (calls line isLine path called))
    (fun _ callable => .inl callable) (fun tidy => tidy.generateName word) (by simp) rfl rfl rfl rfl

theorem Delivery.factored (word : String) (frames : List Frame) (calls : before.Calls lines) :
    Delivery {(before.session.generateName word).1} 0 before (before.factored word lines frames) := by
  refine (Delivery.factorOut word calls).andThen (.write ?_)
  intro line isLine path called
  rw [List.mem_singleton.1 isLine] at called
  cases called
  exact .inr (hasPath_of_new (before.allFiles_addFile _ _))

theorem Delivery.sharedFile {name : String} {commands : List Command}
    (isNew : before.session.sharedFiles.contains name = false)
    (calls : ∀ command ∈ commands, ∀ path, command.called? = some path →
      path = CommandFile.generatedPath name) :
    Delivery {name} 0 before (before.sharedFile name commands).2 := by
  have reserved : before.session.reserveFile name =
      (true, { before.session with sharedFiles := name :: before.session.sharedFiles }) := by
    unfold reserveFile
    rw [if_neg (by rw [isNew]; exact Bool.false_ne_true)]
  have made := fun tidy : before.session.IsTidy => tidy.reserveFile isNew
  unfold Build.sharedFile
  rw [reserved] at made ⊢
  have files := before.allFiles_addFile
    { before.session with sharedFiles := name :: before.session.sharedFiles }
    (.generated name (commands.map .plain))
  have found := hasPath_of_new files
  refine .of_new files rfl (prefix_append _ _) ?_ ?_ made (by simp) rfl rfl rfl rfl
  · intro line isLine path called
    obtain ⟨command, isCommand, rfl⟩ := mem_map.1 isLine
    rw [calls command isCommand path called]
    exact .inr found
  · rintro path (isRoutine | ⟨shared, isShared, rfl⟩)
    · exact .inl (.inl isRoutine)
    · obtain rfl | isOld := mem_cons.1 isShared
      · exact .inr found
      · exact .inl (.inr ⟨shared, isOld, rfl⟩)

theorem Effect.delivery (effect : Effect mayLeak before after) :
    ∃ names, Delivery names 0 before after := by
  cases effect with
  | aside aside upcoming => exact ⟨0, aside.delivery⟩
  | write calls => exact ⟨0, .write fun line isLine path called => .inl (calls line isLine path called)⟩
  | factor word frames calls => exact ⟨_, .factored word frames calls⟩
  | clear | leak => exact ⟨0, Moved.delivery (.of_same rfl (.refl _))⟩
  | share isNew calls => exact ⟨_, .sharedFile isNew calls⟩

/-! Blocks that open and close. -/

theorem moved_popFile (build : Build) : Moved 0 build build.popFile := by
  cases outer : build.outerFiles with
  | nil =>
    have popped : build.popFile = { build with unreachable := none } := by
      unfold popFile
      rw [outer]
    rw [popped]
    exact .of_same rfl (.refl _)
  | cons file rest =>
    have popped : build.popFile = { build with
        file, outerFiles := rest, pack := build.pack.addFile build.file, unreachable := none } := by
      unfold popFile
      rw [outer]
    rw [popped]
    refine ⟨?_, ?_, prefix_append _ _, ⟨rfl, rfl, rfl, rfl, rfl, .refl _⟩⟩
    · rw [add_zero]
      unfold allFiles
      rw [outer]
      refine coe_eq_coe.2 ?_
      change file :: rest ++ build.waitingFiles ++ (build.pack.files ++ [build.file]) ~
        build.file :: (file :: rest ++ build.waitingFiles ++ build.pack.files)
      rw [← append_assoc]
      exact perm_append_singleton _ _
    · unfold rootFile
      rw [outer, getLastD_cons]

theorem moved_apply (build : Build) (action : BlockAction) :
    Moved (action.file?.toList : Multiset CommandFile) build (build.apply action) := by
  cases action with
  | pushSelector selector => exact .of_same rfl (.refl _)
  | popSelector =>
    obtain ⟨_, _, popped⟩ := build.popSelector_eq
    rw [apply, popped]
    exact .of_same rfl (.refl _)
  | pushFile file =>
    refine ⟨?_, getLastD_cons, prefix_refl _, ⟨rfl, rfl, rfl, rfl, rfl, .refl _⟩⟩
    rw [add_comm]
    rfl
  | popFile => exact build.moved_popFile

theorem moved_foldl (actions : List BlockAction) (build : Build) :
    Moved (actions.filterMap file? : List CommandFile) build
      (actions.foldl apply build) := by
  induction actions generalizing build with
  | nil => exact .of_same rfl (.refl _)
  | cons action actions ih =>
    have moved := (build.moved_apply action).trans (ih (build.apply action))
    rw [List.foldl_cons]
    cases pushed : action.file? with
    | none =>
      rw [pushed] at moved
      rwa [filterMap_cons_none pushed, ← zero_add (ofList _)]
    | some file =>
      rw [pushed] at moved
      rw [filterMap_cons_some pushed]
      exact moved

theorem allFiles_of_waiting (build : Build) :
    build.allFiles = ({ build with pendingBlock := none } : Build).allFiles + build.waitingFiles := by
  refine coe_eq_coe.2 ?_
  change build.file :: build.outerFiles ++ build.waitingFiles ++ build.pack.files ~
    build.file :: build.outerFiles ++ [] ++ build.pack.files ++ build.waitingFiles
  rw [append_nil, append_assoc, append_assoc]
  exact perm_append_comm.append_left _

theorem Level.moved_openBlock (level : build.Level) (size : Nat) :
    Moved 0 build (build.openBlock size) := by
  have skipped : (build.pendingBlock.getD {}).skip = true → build.waitingFiles = [] := by
    unfold waitingFiles
    cases waiting : build.pendingBlock with
    | none => exact fun _ => rfl
    | some hooks =>
      intro skip
      rw [Option.getD_some, (level.waiting hooks waiting).skipped skip, filterMap_nil]
  have opened := moved_foldl (build.pendingBlock.getD {}).opening { build with pendingBlock := none }
  unfold Build.openBlock
  dsimp only
  split
  · next skip =>
    refine .of_same ?_ (.refl _)
    simp only [fileState, skipped skip]
    rfl
  · obtain ⟨files, root, finished, ledger⟩ := opened
    -- the files that waited are the ones that have been pushed
    refine ⟨?_, root, finished, ⟨ledger.1, ledger.2, ledger.3, ledger.4, ledger.5, ledger.6⟩⟩
    rw [add_zero, build.allFiles_of_waiting]
    exact files

theorem Level.moved_closeBlock (level : before.Level) (closed : before.closeBlock? = some after) :
    Moved 0 before after := by
  unfold closeBlock? at closed
  split at closed
  · cases closed
  · next actions rest blocks =>
    cases closed
    have pushed : actions.filterMap file? = [] := by
      refine filterMap_eq_nil_iff.2 fun action member => ?_
      have isPop := level.closings actions (blocks ▸ mem_cons_self) action member
      cases action with
      | pushFile file => cases isPop
      | _ => rfl
    have moved := moved_foldl actions { before with openBlocks := rest }
    rw [pushed] at moved
    obtain ⟨files, root, finished, ledger⟩ := moved
    exact ⟨files, root, finished, ⟨ledger.1, ledger.2, ledger.3, ledger.4, ledger.5, ledger.6⟩⟩

theorem moved_settlePops (build : Build) : Moved 0 build build.settlePops := by
  obtain ⟨_, _, _, _, _, settled⟩ := build.settlePops_eq
  rw [settled]
  exact .of_same rfl (.refl _)

/-! The end of a statement. -/

theorem waitingFiles_of_noHooks (noHooks : build.pendingBlock = none) : build.waitingFiles = [] := by
  unfold waitingFiles
  rw [noHooks]
  rfl

theorem allFiles_setHooks (noHooks : build.pendingBlock = none) (hooks : BlockHooks) :
    (build.setHooks hooks).allFiles =
      build.allFiles + (hooks.opening.filterMap file? : List CommandFile) := by
  have cleared : ({ build.setHooks hooks with pendingBlock := none } : Build).allFiles =
      build.allFiles := by
    unfold allFiles
    rw [waitingFiles_of_noHooks noHooks]
    rfl
  rw [allFiles_of_waiting, cleared]
  rfl

/-- A branch makes up a file, calls it, and lets it wait for the block to come. -/
theorem Delivery.branching (noHooks : before.pendingBlock = none) (frames : List Frame) :
    Delivery {(before.session.generateName "branch").1} 0 before (before.branching frames) := by
  let name := (before.session.generateName "branch").1
  let made : Build := { before with session := (before.session.generateName "branch").2 }
  let waiting := made.setHooks
    { opening := [.pushFile (.generated name [])], closing := [.popFile, .popSelector] }
  let line : Line := ⟨frames, (generated name []).call⟩
  -- the call is written before the hooks are set, which is the same to the files
  have files : waiting.allFiles = before.allFiles + {.generated name []} :=
    @allFiles_setHooks made noHooks _
  have first : Delivery {name} 0 before waiting :=
    .of_new files rfl (prefix_refl _) nofun (fun _ callable => .inl callable)
      (fun tidy => tidy.generateName "branch") (by simp) rfl rfl rfl rfl
  have second : Delivery 0 0 waiting (waiting.write [line.within before.frames]) := by
    refine .write fun other isLine path called => ?_
    rw [List.mem_singleton.1 isLine] at called
    cases called
    exact .inr (hasPath_of_new files)
  exact (first.andThen second).andThen (Moved.delivery (.of_same rfl (.refl _)))

/-- The definition of a routine starts a file, which waits for the body. -/
theorem Delivery.routine (noHooks : before.pendingBlock = none) (routine : Routine) :
    Delivery 0 {before.routineFile routine} before ((before.addRoutine routine).2.setHooks
      { opening := [.pushSelector routine.selector, .pushFile (before.routineFile routine)]
        closing := [.popSelector, .popFile] }) := by
  obtain ⟨routines, added, among⟩ := before.addRoutine_eq routine
  rw [added]
  have files := @allFiles_setHooks { before with routines } noHooks
    { opening := [.pushSelector routine.selector, .pushFile (before.routineFile routine)]
      closing := [.popSelector, .popFile] }
  have body : (before.routineFile routine).folder = none ∧
      (before.routineFile routine).routine.isSome = true := ⟨rfl, rfl⟩
  refine .of_new files rfl (prefix_refl _) nofun ?_ (fun tidy => ⟨tidy, (add_zero _).symm⟩)
    (fun file member => ?_) rfl rfl rfl rfl
  · rintro path (isRoutine | isShared)
    · obtain ⟨other, isOther, rfl⟩ := mem_map.1 isRoutine
      obtain rfl | isOld := among other isOther
      · exact .inr (hasPath_of_new files)
      · exact .inl (.inl (mem_map_of_mem isOld))
    · exact .inl (.inr isShared)
  · rwa [Multiset.mem_singleton.1 member]

theorem Finish.delivery (finish : Finish ending before after) (noHooks : before.pendingBlock = none) :
    ∃ names started, Delivery names started before after ∧
      card started = if ending = .routine then 1 else 0 := by
  have waiting := (waitingFiles_of_noHooks noHooks).symm
  cases finish with
  | done => exact ⟨0, 0, .refl _, rfl⟩
  | select | skip | leaveOut =>
    refine ⟨0, 0, Moved.delivery (.of_same ?_ (.refl _)), rfl⟩
    simp only [fileState, ← waiting]
    rfl
  | guard | halt =>
    exact ⟨0, 0, Moved.delivery (.of_same rfl (.refl _)), rfl⟩
  | guardOne frames next =>
    obtain ⟨upcoming, opened, entered, -, -⟩ := (before.guarded frames).enterBlock_eq
    rw [entered]
    exact ⟨0, 0, Moved.delivery (.of_same rfl (.refl _)), rfl⟩
  | branch frames next => exact ⟨_, 0, .branching noHooks frames, rfl⟩
  | routine routine next => exact ⟨0, _, .routine noHooks routine, rfl⟩

/-! Runs. -/

theorem Effects.delivery (effects : Effects mayLeak before after) :
    ∃ names, Delivery names 0 before after := by
  induction effects with
  | refl => exact ⟨0, .refl _⟩
  | tail _ effect ih =>
    obtain ⟨names, delivery⟩ := ih
    obtain ⟨others, last⟩ := effect.delivery
    exact ⟨names + others, delivery.trans last⟩

theorem Move.delivery (move : Move mayLeak before after) :
    ∃ names started, Delivery names started before after := by
  cases move with
  | effect effect =>
    obtain ⟨names, delivery⟩ := effect.delivery
    exact ⟨names, 0, delivery⟩
  | aside aside => exact ⟨0, 0, aside.delivery⟩
  | finish noHooks finish =>
    obtain ⟨names, started, delivery, -⟩ := finish.delivery noHooks
    exact ⟨names, started, delivery⟩
  | settle level => exact ⟨0, 0, (moved_settlePops _).delivery⟩
  | opens level size => exact ⟨0, 0, (level.moved_openBlock size).delivery⟩
  | closes level closed => exact ⟨0, 0, (level.moved_closeBlock closed).delivery⟩

theorem Moves.delivery (moves : Moves mayLeak before after) :
    ∃ names started, Delivery names started before after := by
  induction moves with
  | refl => exact ⟨0, 0, .refl _⟩
  | tail _ move ih =>
    obtain ⟨names, started, delivery⟩ := ih
    obtain ⟨others, more, last⟩ := move.delivery
    exact ⟨names + others, started + more, delivery.trans last⟩

end Build

end ScriptPack
