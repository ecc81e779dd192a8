import ScriptPack.Proofs.DeclaredCounters
import ScriptPack.Proofs.ScoreLengths

/-!
No two counters share a score. A score begins with the name of its counter, which a colon ends, and the
scores of a record's fields go on with the keys of the fields in the same way. Main result: the scores
of one counter differ from each other, and from those of every counter with another name.
-/

namespace ScriptPack

open List RecordType

/-- Records have their fields added one after the other, whatever kinds these have. -/
inductive CounterKind.IsBuilt : CounterKind → Prop where
  | int : IsBuilt .int
  | time : IsBuilt .time
  | bool : IsBuilt .bool
  | decimal (precision : Nat) : IsBuilt (.decimal precision)
  | record (name : String) (fields : List (String × CounterKind))
      (built : ∀ field ∈ fields, IsBuilt field.2) : IsBuilt (ofFields name fields).kind

namespace RecordType

theorem keyAt_eq_concat (count : Nat) : keyAt count =
    (if count < 26 then [] else keyAt (count / 26 - 1)) ++ [Char.ofNat ('a'.toNat + count % 26)] := by
  rw [keyAt]
  split <;> rfl

theorem keyAt_ne_nil (count : Nat) : keyAt count ≠ [] := by
  rw [keyAt_eq_concat]
  exact concat_ne_nil _ _

/-- Fields at different places have different keys. -/
theorem keyAt_injective : Function.Injective keyAt := by
  have number : ∀ index < 26, (Char.ofNat ('a'.toNat + index)).toNat = 97 + index := by decide
  intro first
  induction first using Nat.strongRecOn with
  | _ first ih =>
    intro second same
    rw [keyAt_eq_concat first, keyAt_eq_concat second] at same
    obtain ⟨starts, letters⟩ := append_inj' same rfl
    have letter : first % 26 = second % 26 := by
      have equal := congrArg Char.toNat (singleton_inj.1 letters)
      rw [number _ (Nat.mod_lt first (by decide)), number _ (Nat.mod_lt second (by decide))] at equal
      omega
    split at starts <;> split at starts
    · omega
    · exact absurd starts.symm (keyAt_ne_nil _)
    · exact absurd starts (keyAt_ne_nil _)
    · have before := ih (first / 26 - 1) (by omega) starts
      omega

theorem colon_not_mem_keyAt (count : Nat) : ':' ∉ keyAt count :=
  fun member => absurd (all_eq_true.1 (isKeyText_keyAt count) ':' member) (by decide)

end RecordType

namespace Counter

variable {kind other : CounterKind} {base name score : String}

theorem objectivesOf_begin {suffix : String} (member : suffix ∈ objectivesOf "" kind) :
    suffix.toList.takeWhile (· != ':') = [] := by
  cases kind with
  | int | time | bool =>
    rw [mem_singleton.1 member]
    rfl
  | decimal precision =>
    obtain rfl | member := mem_cons.1 member
    · rfl
    · rw [mem_singleton.1 member]
      rfl
  | record recordName fields =>
    obtain ⟨field, -, inside⟩ := mem_fieldObjectives.1 member
    rw [objectivesOf_eq_map, mem_map] at inside
    obtain ⟨rest, -, rfl⟩ := inside
    simp

/-- A name without a colon can be read off a score, up to the colon. -/
theorem name_of_mem_objectivesOf (plain : ':' ∉ name.toList)
    (member : score ∈ objectivesOf (base ++ name) kind) :
    ∃ rest, score.toList = base.toList ++ rest ∧ rest.takeWhile (· != ':') = name.toList := by
  rw [objectivesOf_eq_map, mem_map] at member
  obtain ⟨suffix, isSuffix, rfl⟩ := member
  have before : ∀ c ∈ name.toList, (c != ':') = true :=
    fun c inside => bne_iff_ne.2 fun same => plain (same ▸ inside)
  refine ⟨name.toList ++ suffix.toList, by simp, ?_⟩
  rw [takeWhile_append_of_pos before, objectivesOf_begin isSuffix, append_nil]

theorem disjoint_objectivesOf {first second : String} (firstPlain : ':' ∉ first.toList)
    (secondPlain : ':' ∉ second.toList) (different : first ≠ second) :
    Disjoint (objectivesOf (base ++ first) kind) (objectivesOf (base ++ second) other) := by
  intro score isFirst isSecond
  obtain ⟨rest, same, reads⟩ := name_of_mem_objectivesOf firstPlain isFirst
  obtain ⟨rest', same', reads'⟩ := name_of_mem_objectivesOf secondPlain isSecond
  have equal : rest = rest' := append_cancel_left (same.symm.trans same')
  exact different (String.toList_inj.1 (reads.symm.trans (equal ▸ reads')))

theorem fieldObjectives_eq_flatMap (name : String) (fields : List (String × String × CounterKind)) :
    fieldObjectives name fields =
      fields.flatMap fun field => objectivesOf (name ++ ":" ++ field.2.1) field.2.2 := by
  induction fields with
  | nil => rfl
  | cons field rest ih => rw [fieldObjectives, flatMap_cons, ih]

theorem nodup_objectivesOf (built : kind.IsBuilt) (name : String) :
    (objectivesOf name kind).Nodup := by
  induction built generalizing name with
  | int | time | bool => exact nodup_singleton name
  | decimal precision => simp [objectivesOf]
  | record recordName fields _ ih =>
    rw [RecordType.kind, objectivesOf, fieldObjectives_eq_flatMap, RecordType.fields_ofFields,
      nodup_flatMap]
    constructor
    · intro field member
      obtain ⟨index, bound, rfl⟩ := mem_mapIdx.1 member
      exact ih _ (getElem_mem bound) _
    · refine pairwise_iff_getElem.2 fun first second _ _ before => ?_
      simp only [Function.onFun, getElem_mapIdx]
      refine disjoint_objectivesOf (by simpa using colon_not_mem_keyAt first)
        (by simpa using colon_not_mem_keyAt second) fun same => ?_
      exact absurd (keyAt_injective (String.ofList_injective same)) (Nat.ne_of_lt before)

/-- The scores of a counter are pairwise different, however its records are nested, and counters with
different names that have no colon have no score in common. -/
theorem scores_never_shared :
    (∀ counter : Counter, counter.kind.IsBuilt → counter.objectives.Nodup) ∧
    ∀ first second : Counter, ':' ∉ first.name.toList → ':' ∉ second.name.toList →
      first.name ≠ second.name → Disjoint first.objectives second.objectives := by
  refine ⟨fun counter built => nodup_objectivesOf built counter.name, ?_⟩
  intro first second firstPlain secondPlain different
  have apart := @disjoint_objectivesOf first.kind second.kind "" _ _ firstPlain secondPlain different
  simpa [objectives] using apart

/-- A record with a decimal and a record of decimals, beside a decimal. -/
theorem scores_never_shared_nested :
    let point := (ofFields "point" [("x", .decimal 2), ("y", .decimal 2)]).kind
    let path := (ofFields "path" [("length", .decimal 1), ("start", point)]).kind
    (objectives ⟨"p", path⟩).Nodup ∧
      Disjoint (objectives ⟨"p", path⟩) (objectives ⟨"d", .decimal 1⟩) := by
  refine ⟨scores_never_shared.1 _ (.record "path" _ ?_),
    scores_never_shared.2 _ _ (by decide) (by decide) (by decide)⟩
  refine forall_mem_cons.2 ⟨.decimal 1, forall_mem_singleton.2 (.record "point" _ ?_)⟩
  exact forall_mem_cons.2 ⟨.decimal 2, forall_mem_singleton.2 (.decimal 2)⟩

end Counter

end ScriptPack
