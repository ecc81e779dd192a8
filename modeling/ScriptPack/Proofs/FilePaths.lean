import ScriptPack.Pack.Writer
import ScriptPack.Proofs.Emission
import ScriptPack.Proofs.Files

/-!
Where the files of a pack are written. Their paths come from the name of the pack, from the names that
the compiler makes up and from the names of routines, and nothing keeps these apart. Main result: what
has to differ so that no file is written over another, and that then all of them are found.
-/

namespace ScriptPack

open BuildM CommandFile FileTree List StorageM

/-! ## Files that are written -/

namespace FileTree

variable {tree before middle after : FileTree} {places others : List (List String)}
  {place : List String} {path : String}

theorem get?_put (entry : FileEntry) (inside : place ≠ []) (other : List String) :
    (tree.put place entry).get? other = if other = place then some entry else tree.get? other := by
  unfold get? put
  by_cases top : other = []
  · simp [top, inside.symm]
  · by_cases same : other = place
    · simp [same, inside]
    · have found := Table.lookup_filter tree.entries place other
      simp only [same, if_false] at found ⊢
      simp only [List.lookup_cons, beq_eq_false_iff_ne.2 same, List.isEmpty_iff, top, if_false]
      convert found

/-- Directories stay, and so do files, but for those at the given places. -/
structure Keeps (places : List (List String)) (before after : FileTree) : Prop where
  directories : ∀ place, before.get? place = some .directory → after.get? place = some .directory
  files : ∀ place content, before.get? place = some (.file content) → place ∉ places →
    after.get? place = some (.file content)

theorem Keeps.refl (tree : FileTree) : tree.Keeps [] tree :=
  ⟨fun _ found => found, fun _ _ found _ => found⟩

theorem Keeps.trans (first : before.Keeps places middle) (second : middle.Keeps others after) :
    before.Keeps (places ++ others) after where
  directories := fun place found => second.directories place (first.directories place found)
  files := fun place content found apart =>
    second.files place content
      (first.files place content found fun member => apart (mem_append_left _ member))
      fun member => apart (mem_append_right _ member)

theorem Keeps.follow (keeps : before.Keeps places after) {names : List String} {result : List String}
    (followed : before.follow place names = .ok result) : after.follow place names = .ok result := by
  induction names generalizing place with
  | nil => exact followed
  | cons name rest ih =>
    unfold follow at followed ⊢
    cases found : before.get? place with
    | none =>
      rw [found] at followed
      cases followed
    | some entry =>
      cases entry with
      | file content =>
        rw [found] at followed
        cases followed
      | directory =>
        rw [found] at followed
        rw [keeps.directories place found]
        dsimp only at followed ⊢
        split_ifs at followed ⊢ <;> exact ih followed

theorem Keeps.locate (keeps : before.Keeps places after) (located : before.locate path = .ok place) :
    after.locate path = .ok place := by
  unfold FileTree.locate at located ⊢
  split at located
  · cases located
  · rw [if_neg ‹_›]
    exact keeps.follow located

theorem ne_nil_of_get? (outside : tree.get? place ≠ some .directory) : place ≠ [] := by
  rintro rfl
  exact outside rfl

theorem keeps_put (entry : FileEntry) (outside : tree.get? place ≠ some .directory) :
    tree.Keeps [place] (tree.put place entry) where
  directories := by
    intro other found
    have apart : other ≠ place := fun same => outside (same ▸ found)
    rw [get?_put entry (ne_nil_of_get? outside), if_neg apart, found]
  files := by
    intro other content found apart
    rw [get?_put entry (ne_nil_of_get? outside), if_neg (by simpa using apart), found]

theorem keeps_put_of_none (entry : FileEntry) (free : tree.get? place = none) :
    tree.Keeps [] (tree.put place entry) where
  directories := (keeps_put entry (by simp [free])).directories
  files := by
    intro other content found _
    have apart : other ≠ place := by
      rintro rfl
      simp [free] at found
    exact (keeps_put entry (by simp [free])).files other content found (by simpa using apart)

theorem readText_congr {other : String} (same : tree.locate path = tree.locate other) :
    tree.readText path = tree.readText other := by
  simp only [readText, entryAt, same]

theorem readText_of_located {text : String} (located : tree.locate path = .ok place)
    (found : tree.get? place = some (.file text.toUTF8)) : tree.readText path = .ok text := by
  have decoded : String.fromUTF8? text.toUTF8 = some text := dif_pos text.isValidUTF8
  have isFile : tree.entryAt path = .ok (.file text.toUTF8) := by
    simp [entryAt, located, found, bind, Except.bind]
  simp only [readText, isFile, decoded, bind, Except.bind]

end FileTree

namespace StorageM

variable {α β : Type} {before after : FileTree} {path text : String}

/-- The step leaves all that there is as it is, whether it fails or not. -/
def Preserves (step : StorageM α) : Prop :=
  ∀ tree : FileTree, tree.Keeps [] (final step tree)

theorem preserves_bind {step : StorageM α} {next : α → StorageM β} (first : Preserves step)
    (second : ∀ value, Preserves (next value)) : Preserves (step >>= next) :=
  fun tree => final_bind (first tree) fun value middle _ kept => kept.trans (second value middle)

theorem preserves_tryCatch {step : StorageM α} {next : FileError → StorageM α} (first : Preserves step)
    (second : ∀ error, Preserves (next error)) : Preserves (tryCatch step next) := by
  intro tree
  have start := first tree
  cases ran : step tree with
  | error error middle =>
    rw [final_of_error ran] at start
    have caught : tryCatch step next tree = next error middle := by
      change EStateM.tryCatch step next tree = _
      rw [EStateM.tryCatch, ran]
      rfl
    rw [final, caught]
    exact start.trans (second error middle)
  | ok value middle =>
    rw [final_of_ok ran] at start
    have caught : tryCatch step next tree = .ok value middle := by
      change EStateM.tryCatch step next tree = _
      rw [EStateM.tryCatch, ran]
    rwa [final_of_ok caught]

theorem preserves_pure (value : α) : Preserves (pure value) :=
  Keeps.refl

theorem preserves_throw (error : FileError) : Preserves (throw error : StorageM α) :=
  Keeps.refl

theorem preserves_get : Preserves (get : StorageM FileTree) :=
  Keeps.refl

theorem preserves_lift (look : FileTree → Except FileError α) : Preserves (lift look) := by
  refine preserves_bind preserves_get fun tree => ?_
  cases look tree with
  | ok value => exact preserves_pure value
  | error error => exact preserves_throw error

theorem lift_eq_ok {look : FileTree → Except FileError α} {value : α}
    (looked : lift look before = .ok value after) : look before = .ok value ∧ after = before := by
  unfold lift at looked
  rw [bind_apply_of_ok (rfl : (get : StorageM FileTree) before = .ok before before)] at looked
  cases found : look before with
  | ok other =>
    rw [found] at looked
    cases looked
    exact ⟨rfl, rfl⟩
  | error error =>
    rw [found] at looked
    cases looked

theorem preserves_makeDirectory (path : String) : Preserves (makeDirectory path) := by
  refine preserves_bind (preserves_lift _) fun place => ?_
  intro tree
  rw [final_bind_of_ok (rfl : (get : StorageM FileTree) tree = .ok tree tree)]
  cases free : tree.get? place with
  | some _ => exact Keeps.refl tree
  | none => exact keeps_put_of_none .directory free

theorem preserves_unlessDirectory (path : String) (error : FileError) :
    Preserves (unlessDirectory path error) := by
  refine preserves_bind preserves_get fun tree => ?_
  split
  · exact preserves_pure _
  · exact preserves_throw error

theorem preserves_makeDirectories (steps : Nat) (path : String) :
    Preserves (makeDirectories steps path) := by
  induction steps generalizing path with
  | zero => exact preserves_pure _
  | succ steps ih =>
    unfold makeDirectories
    split
    · exact preserves_pure _
    · refine preserves_tryCatch (preserves_makeDirectory path) fun error => ?_
      split
      · split
        · exact preserves_throw _
        · exact preserves_bind (ih _) fun _ => preserves_tryCatch (preserves_makeDirectory path) fun _ =>
            preserves_unlessDirectory path _
      · exact preserves_unlessDirectory path error

theorem writeFile_ok {content : ByteArray} (written : writeFile path content before = .ok () after) :
    ∃ place, after.locate path = .ok place ∧ after.get? place = some (.file content) ∧
      before.Keeps [place] after := by
  unfold writeFile at written
  obtain ⟨place, middle, looked, stored⟩ := bind_apply_eq_ok_iff.1 written
  obtain ⟨located, rfl⟩ := lift_eq_ok looked
  rw [bind_apply_of_ok (rfl : (get : StorageM FileTree) middle = .ok middle middle)] at stored
  have outside : middle.get? place ≠ some .directory := by
    intro found
    rw [found] at stored
    cases stored
  have result : after = middle.put place (.file content) := by
    cases found : middle.get? place with
    | none =>
      rw [found] at stored
      cases stored
      rfl
    | some entry =>
      rw [found] at stored
      cases entry with
      | directory => exact absurd found outside
      | file _ =>
        cases stored
        rfl
  subst result
  have keeps := keeps_put (.file content) outside
  refine ⟨place, keeps.locate located, ?_, keeps⟩
  rw [get?_put _ (ne_nil_of_get? outside), if_pos rfl]

theorem writeText_ok (written : writeText path text before = .ok () after) :
    ∃ place, after.locate path = .ok place ∧ after.get? place = some (.file text.toUTF8) ∧
      before.Keeps [place] after := by
  unfold writeText storeFile at written
  cases above : Path.parent? path with
  | none =>
    simp only [above] at written
    exact writeFile_ok written
  | some parent =>
    simp only [above] at written
    obtain ⟨_, middle, made, written⟩ := bind_apply_eq_ok_iff.1 written
    obtain ⟨place, located, found, keeps⟩ := writeFile_ok written
    have kept := preserves_makeDirectories path.length parent before
    rw [final_of_ok made] at kept
    exact ⟨place, located, found, kept.trans keeps⟩

end StorageM

namespace Pack

variable {before middle after : FileTree}
variable {items : List (String × String)}

/-- The texts are written to the paths, one after the other. -/
inductive Stores : List (String × String) → FileTree → FileTree → Prop
  | nil (tree : FileTree) : Stores [] tree tree
  | cons {path text : String} {items : List (String × String)} {before middle after : FileTree}
      (written : writeText path text before = .ok () middle) (rest : Stores items middle after) :
      Stores ((path, text) :: items) before after

theorem Stores.append {others : List (String × String)} (first : Stores items before middle)
    (second : Stores others middle after) : Stores (items ++ others) before after := by
  induction first with
  | nil tree => exact second
  | cons written _ ih => exact .cons written (ih second)

theorem Stores.exists_places (stores : Stores items before after) :
    ∃ places : List (List String), items.map (after.locate ·.1) = places.map .ok ∧
      before.Keeps places after := by
  induction stores with
  | nil tree => exact ⟨[], rfl, .refl tree⟩
  | cons written _ ih =>
    obtain ⟨place, located, _, keeps⟩ := writeText_ok written
    obtain ⟨places, reached, kept⟩ := ih
    refine ⟨place :: places, ?_, keeps.trans kept⟩
    rw [map_cons, map_cons, kept.locate located, reached]

/-- Of two texts that are written to one place, the later one is found. -/
theorem Stores.readText_iff (stores : Stores items before after) :
    (∀ item ∈ items, after.readText item.1 = .ok item.2) ↔
      items.Pairwise fun one other => after.locate one.1 = after.locate other.1 → one.2 = other.2 := by
  constructor
  · intro readable
    refine List.Pairwise.imp_of_mem ?_ (pairwise_of_forall fun _ _ => trivial)
    intro one other member otherMember _ same
    have equal := readable one member
    rw [readText_congr same, readable other otherMember] at equal
    exact (Except.ok.inj equal).symm
  · intro agree
    induction stores with
    | nil tree => simp
    | @cons path text items _ middle after written rest ih =>
      obtain ⟨agreeFirst, agreeRest⟩ := pairwise_cons.1 agree
      have readable := ih agreeRest
      refine forall_mem_cons.2 ⟨?_, readable⟩
      obtain ⟨place, located, found, -⟩ := writeText_ok written
      obtain ⟨places, reached, kept⟩ := rest.exists_places
      by_cases again : place ∈ places
      · have later : Except.ok place ∈ items.map (after.locate ·.1) :=
          reached ▸ mem_map_of_mem again
        obtain ⟨item, member, leads⟩ := mem_map.1 later
        have same : after.locate path = after.locate item.1 := (kept.locate located).trans leads.symm
        rw [agreeFirst item member same, readText_congr same]
        exact readable item member
      · exact readText_of_located (kept.locate located) (kept.files place _ found again)

theorem stores_of_forIn {ι : Type} {items : List ι} (path text : ι → String)
    (ran : (forIn items PUnit.unit (fun item _ => do
      writeText (path item) (text item)
      pure (ForInStep.yield PUnit.unit)) : StorageM PUnit) before = .ok () after) :
    Stores (items.map fun item => (path item, text item)) before after := by
  induction items generalizing before with
  | nil =>
    cases ran
    exact .nil _
  | cons item items ih =>
    rw [forIn_cons, bind_assoc] at ran
    obtain ⟨_, middle, written, ran⟩ := bind_apply_eq_ok_iff.1 ran
    exact .cons written (ih ran)

def texts (pack : Pack) (output : String) : List (String × String) :=
  (pack.files.map fun file => (filePath output file, file.content)) ++
    pack.assets.map fun asset => (assetPath output asset, asset.content.pretty)

theorem stores_of_write {pack : Pack} {output : String} {paths : List String}
    (written : pack.write output before = .ok paths after) : Stores (pack.texts output) before after := by
  unfold write at written
  obtain ⟨_, middle, files, written⟩ := bind_apply_eq_ok_iff.1 written
  obtain ⟨_, last, assets, written⟩ := bind_apply_eq_ok_iff.1 written
  cases written
  exact (stores_of_forIn (filePath output) content files).append
    (stores_of_forIn (assetPath output) (·.content.pretty) assets)

end Pack

/-! ## Paths -/

theorem CommandFile.path_generated_injective :
    Function.Injective fun name => (generated name []).path := by
  intro name other same
  exact (String.append_right_inj _).1 same

namespace Session

variable {session : Session}

theorem not_isPlain_append_toString (word : String) (number : Nat) :
    ¬IsPlain (word ++ toString number) := by
  intro plain
  have empty := plain.eq_empty String.append_empty.symm
  simp [toString, Nat.repr] at empty

theorem IsTidy.nodup_madeNames (tidy : session.IsTidy)
    (plain : ∀ word ∈ session.generated.keys ++ session.sharedFiles, IsPlain word) :
    session.madeNames.Nodup := by
  have isPlain (entry : String × Nat) (member : entry ∈ session.generated.entries) :
      IsPlain entry.1 := plain _ (mem_append_left _ (mem_map_of_mem member))
  have generated : session.generatedNames.Nodup := by
    refine nodup_flatMap.2 ⟨fun entry _ => ?_, ?_⟩
    · refine List.Nodup.map (fun number other same => ?_) nodup_range
      exact Text.toString_inj.1 ((String.append_right_inj _).1 same)
    · refine List.Pairwise.imp_of_mem ?_ (pairwise_map.1 tidy.words)
      intro entry other member otherMember different name isName isOther
      obtain ⟨number, -, rfl⟩ := mem_map.1 isName
      obtain ⟨otherNumber, -, same⟩ := mem_map.1 isOther
      have samePath : generatedPath entry.1 number = generatedPath other.1 otherNumber := by
        rw [generatedPath, generatedPath, same]
      exact different (generatedPath_inj (isPlain entry member) (isPlain other otherMember) samePath).1
  refine Multiset.coe_nodup.2 (nodup_append'.2 ⟨generated, tidy.shared, ?_⟩)
  intro name isGenerated isShared
  obtain ⟨entry, -, isName⟩ := mem_flatMap.1 isGenerated
  obtain ⟨number, -, rfl⟩ := mem_map.1 isName
  exact not_isPlain_append_toString _ _ (plain _ (mem_append_right _ isShared))

end Session

/-- The paths are the name of the pack, those of the names that are made up, and the names of the
routines. -/
theorem Pack.coe_paths {pack : Pack} {root : CommandFile} {rest : List CommandFile}
    {names : Multiset String} {bodies : Multiset CommandFile} (files : pack.files = root :: rest)
    (label : root.label = { name := pack.name })
    (labels : ((rest.map CommandFile.label : List CommandFile) : Multiset CommandFile) =
      names.map (generated · []) + bodies)
    (isBody : ∀ body ∈ bodies, body.folder = none ∧ body.routine.isSome = true) :
    ((pack.files.map path : List String) : Multiset String) =
      pack.name ::ₘ ((names.map fun name => (generated name []).path) +
        bodies.map CommandFile.name) := by
  have rootPath : root.path = pack.name := congrArg path label
  have restPaths := congrArg (Multiset.map path) labels
  rw [Multiset.map_add, Multiset.map_map, Multiset.map_coe, map_map] at restPaths
  have bodyPaths : bodies.map CommandFile.path = bodies.map CommandFile.name :=
    Multiset.map_congr rfl fun body member => by rw [CommandFile.path, (isBody body member).1]
  rw [files, map_cons, rootPath, ← Multiset.cons_coe, ← bodyPaths]
  exact congrArg _ restPaths

theorem nodup_paths_iff {root : String} {names bodies : Multiset String} :
    (root ::ₘ ((names.map fun name => (generated name []).path) + bodies)).Nodup ↔
      names.Nodup ∧ bodies.Nodup ∧ root ∉ bodies ∧
        ∀ name ∈ names, (generated name []).path ≠ root ∧
          (generated name []).path ∉ bodies := by
  have made : (names.map fun name => (generated name []).path).Nodup ↔ names.Nodup :=
    ⟨fun nodup => nodup.of_map _, fun nodup => nodup.map path_generated_injective⟩
  rw [Multiset.nodup_cons, Multiset.nodup_add, Multiset.mem_add, made, Multiset.disjoint_left]
  simp only [Multiset.mem_map, forall_exists_index, and_imp, forall_apply_eq_imp_iff₂]
  grind

/-- What keeps the files of a compiled pack apart. Their paths are the name of the pack, those of the
names that the compiler has made up, and the names of the routines as often as they are defined; they
differ just when these do. The made up names differ when no digit stands in the words that they come
from. Once the pack is written, everything in it is found at its path just when no later text went to
the same place, unless it was the same text. -/
theorem compiled_paths_nodup_iff {storage : FileTree} {options : Options} {file source : String}
    {pack : Pack} {stats : Stats}
    (compiled : (compile storage options file source).1 = .ok (pack, stats)) :
    ∃ (statements : List Statement) (last : Build) (bodies : Multiset CommandFile),
      readScript file source = .ok statements ∧
      runScript options statements (.forScript storage options file) = .ok () last ∧
      (∀ body ∈ bodies, body.folder = none ∧ body.routine.isSome = true) ∧
      ((pack.files.map CommandFile.path : List String) : Multiset String) =
        pack.name ::ₘ ((last.session.madeNames.map fun name => (CommandFile.generated name []).path) +
          bodies.map CommandFile.name) ∧
      ((pack.files.map CommandFile.path).Nodup ↔
        last.session.madeNames.Nodup ∧ (bodies.map CommandFile.name).Nodup ∧
        pack.name ∉ bodies.map CommandFile.name ∧
        ∀ name ∈ last.session.madeNames, (CommandFile.generated name []).path ≠ pack.name ∧
          (CommandFile.generated name []).path ∉ bodies.map CommandFile.name) ∧
      ((∀ word ∈ last.session.generated.keys ++ last.session.sharedFiles, Session.IsPlain word) →
        last.session.madeNames.Nodup) ∧
      ∀ output before paths after, pack.write output before = .ok paths after →
        ((∀ item ∈ pack.texts output, after.readText item.1 = .ok item.2) ↔
          (pack.texts output).Pairwise fun one other =>
            after.locate one.1 = after.locate other.1 → one.2 = other.2) := by
  obtain ⟨statements, last, isRead, ran, rfl⟩ := compile_eq_ok compiled
  have fresh := Build.isFresh_forScript storage options file
  obtain ⟨noHooks, moves, -⟩ :=
    moves_of_runScript (Build.level_forScript storage options file) rfl ran
  obtain ⟨names, started, delivery⟩ := moves.delivery
  have whole := delivery.andThen last.delivery_finishFiles
  obtain ⟨files, name⟩ := last.finish_files
  obtain ⟨tidy, made⟩ := delivery.made fresh.tidy
  obtain ⟨rootLabel, labels⟩ := fresh.labels whole (Build.isFinished_finishFiles noHooks)
  rw [fresh.made, zero_add] at made
  rw [← made] at labels
  have paths := Pack.coe_paths files (name ▸ rootLabel) labels whole.bodies
  refine ⟨statements, last, started, isRead, ran, whole.bodies, paths, ?_, tidy.nodup_madeNames,
    fun output before written after stored => (Pack.stores_of_write stored).readText_iff⟩
  rw [← Multiset.coe_nodup, paths]
  exact nodup_paths_iff

/-! A routine with the name of the pack. -/

def Clash.source : String :=
  "\n".intercalate ["function main() \x7b", "say \"x\"", "\x7d", "say \"y\""]

/-- The paths of the files of the pack, and what is found at that of the root file once all are
written. -/
def Clash.outcome : Option (List String × Except FileError String) :=
  match (compile {} {} "main.mcc" source).1 with
  | .error _ => none
  | .ok (pack, _) =>
      match pack.write "out" {} with
      | .error _ _ => none
      | .ok _ after =>
          some (pack.files.map path, after.readText "out/functions/main.mcfunction")

theorem Clash.outcome_eq : outcome = some (["main", "main"], .ok "say x\n") := by
  decide +kernel

/-- The body of the routine is written over the root file. -/
theorem compiled_paths_nodup_iff_clash :
    ∃ pack stats paths after, (compile {} {} "main.mcc" Clash.source).1 = .ok (pack, stats) ∧
      pack.files.map CommandFile.path = ["main", "main"] ∧
      pack.write "out" {} = .ok paths after ∧
      after.readText "out/functions/main.mcfunction" = .ok "say x\n" ∧
      ∃ (last : Build) (bodies : Multiset CommandFile),
        ¬(last.session.madeNames.Nodup ∧ (bodies.map CommandFile.name).Nodup ∧
          pack.name ∉ bodies.map CommandFile.name ∧
          ∀ name ∈ last.session.madeNames, (CommandFile.generated name []).path ≠ pack.name ∧
            (CommandFile.generated name []).path ∉ bodies.map CommandFile.name) := by
  have outcome := Clash.outcome_eq
  unfold Clash.outcome at outcome
  rcases compiled : (compile {} {} "main.mcc" Clash.source).1 with error | ⟨pack, stats⟩
  · rw [compiled] at outcome
    cases outcome
  · rw [compiled] at outcome
    dsimp only at outcome
    rcases written : pack.write "out" {} with ⟨paths, after⟩ | ⟨error, after⟩
    · rw [written] at outcome
      obtain ⟨names, found⟩ := Prod.mk.inj (Option.some.inj outcome)
      obtain ⟨_, last, bodies, _, _, _, _, apart, -⟩ := compiled_paths_nodup_iff compiled
      refine ⟨pack, stats, paths, after, rfl, names, written, found, last, bodies, ?_⟩
      rw [← apart, names]
      decide
    · rw [written] at outcome
      cases outcome

end ScriptPack
