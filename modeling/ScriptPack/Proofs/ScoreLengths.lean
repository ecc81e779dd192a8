import Mathlib.Algebra.Order.Ring.Nat
import Mathlib.Data.List.Induction
import ScriptPack.Counter.Scoreboard

/-!
How long the names of scores are. A counter is defined only if its name leaves room for what its
scores append to it. The room is enough for every counter that is not a record; for a record it
depends on the number of fields, whose keys get longer, and on what the fields append themselves.
Main result: exactly which counters that may be defined have a score whose name is too long.
-/

namespace ScriptPack

open CounterKind List RecordType

namespace RecordType

def ofFields (name : String) (fields : List (String × CounterKind)) : RecordType :=
  fields.foldl (fun record field => record.addField field.1 field.2) { name }

def keySpan : Nat → Nat
  | 0 => 0
  | bound + 1 => 26 * (keySpan bound + 1)

theorem keyAt_length_le_iff {count bound : Nat} :
    (keyAt count).length ≤ bound ↔ count < keySpan bound := by
  induction bound generalizing count with
  | zero =>
    rw [keyAt]
    split <;> simp [keySpan]
  | succ bound ih =>
    rw [keyAt, keySpan]
    split
    · simp only [length_singleton]
      omega
    · rw [length_append, length_singleton, Nat.add_le_add_iff_right, ih]
      omega

theorem fields_ofFields (name : String) (fields : List (String × CounterKind)) :
    (ofFields name fields).fields = fields.mapIdx fun index field =>
      (field.1, String.ofList (keyAt index), field.2) := by
  -- from the end, as `addField` adds there
  induction fields using reverseRecOn with
  | nil => rfl
  | append_singleton fields field ih =>
    have added : ofFields name (fields ++ [field]) =
        (ofFields name fields).addField field.1 field.2 := by
      rw [ofFields, foldl_append]
      rfl
    rw [added, addField, ih]
    simp

end RecordType

namespace Counter

mutual
/-- The scores of a counter append to its name what its kind alone decides. -/
theorem objectivesOf_eq_map (name : String) : (kind : CounterKind) →
    objectivesOf name kind = (objectivesOf "" kind).map (name ++ ·)
  | .int | .time | .bool => by simp [objectivesOf]
  | .decimal _ => by simp [objectivesOf]
  | .record _ fields => by
    unfold objectivesOf
    exact fieldObjectives_eq_map name fields

theorem fieldObjectives_eq_map (name : String) :
    (fields : List (String × String × CounterKind)) →
      fieldObjectives name fields = (fieldObjectives "" fields).map (name ++ ·)
  | [] => by simp [fieldObjectives]
  | (_, key, kind) :: rest => by
    unfold fieldObjectives
    rw [objectivesOf_eq_map (name ++ ":" ++ key), objectivesOf_eq_map ("" ++ ":" ++ key),
      fieldObjectives_eq_map name rest, map_append, map_map]
    congr 1
    refine map_congr_left fun suffix _ => ?_
    simp [String.append_assoc]
end

theorem mem_fieldObjectives {name score : String} {fields : List (String × String × CounterKind)} :
    score ∈ fieldObjectives name fields ↔
      ∃ field ∈ fields, score ∈ objectivesOf (name ++ ":" ++ field.2.1) field.2.2 := by
  induction fields with
  | nil => simp [fieldObjectives]
  | cons field rest ih =>
    obtain ⟨fieldName, key, kind⟩ := field
    simp [fieldObjectives, ih]

theorem mem_objectives_ofFields {counter : Counter} {name score : String}
    {fields : List (String × CounterKind)} (kind : counter.kind = (ofFields name fields).kind) :
    score ∈ counter.objectives ↔ ∃ index field, fields[index]? = some field ∧
      ∃ suffix ∈ objectivesOf "" field.2,
        score = counter.name ++ ":" ++ String.ofList (keyAt index) ++ suffix := by
  rw [objectives, kind, RecordType.kind, objectivesOf, mem_fieldObjectives, RecordType.fields_ofFields]
  constructor
  · rintro ⟨_, member, isScore⟩
    obtain ⟨index, bound, rfl⟩ := mem_mapIdx.1 member
    rw [objectivesOf_eq_map, mem_map] at isScore
    obtain ⟨suffix, isSuffix, rfl⟩ := isScore
    exact ⟨index, fields[index], getElem?_eq_getElem bound, suffix, isSuffix, rfl⟩
  · rintro ⟨index, field, found, suffix, isSuffix, rfl⟩
    obtain ⟨bound, rfl⟩ := List.getElem?_eq_some_iff.1 found
    refine ⟨_, mem_mapIdx.2 ⟨index, bound, rfl⟩, ?_⟩
    rw [objectivesOf_eq_map, mem_map]
    exact ⟨suffix, isSuffix, rfl⟩

/-- Whether the scores of a counter that may be defined stay within the limit for names. They do for
all kinds but records. The scores of a record's field do exactly if the key of its place is not longer
than what the name of the counter, a colon and the rest leave: with a name of 13 letters, 702 fields
have short enough keys, but none if it is a decimal. -/
theorem score_names_within_limit {board later : Scoreboard} {counter : Counter}
    (accepted : board.define counter = .ok later) :
    ((∀ name fields, counter.kind ≠ .record name fields) →
      ∀ score ∈ counter.objectives, score.length ≤ CounterKind.greatestNameLength) ∧
    ∀ name fields, counter.kind = (RecordType.ofFields name fields).kind →
      ((∀ score ∈ counter.objectives, score.length ≤ CounterKind.greatestNameLength) ↔
        ∀ index field, fields[index]? = some field → ∀ suffix ∈ objectivesOf "" field.2,
          index < RecordType.keySpan
            (CounterKind.greatestNameLength - (counter.name.length + 1 + suffix.length))) := by
  have room : counter.name.length ≤ counter.kind.maxNameLength := by
    unfold Scoreboard.define at accepted
    by_contra long
    simp [Nat.lt_of_not_le long] at accepted
  constructor
  · intro noRecord score member
    unfold objectives at member
    cases kind : counter.kind with
    | record name fields => exact absurd kind (noRecord name fields)
    | decimal precision =>
      have short : counter.name.length + 2 ≤ greatestNameLength := by
        rw [kind] at room
        exact Nat.add_le_of_le_sub (by decide) room
      have split : score = counter.name ++ ":w" ∨ score = counter.name ++ ":d" := by
        simpa [kind, objectivesOf] using member
      rcases split with rfl | rfl <;> exact (String.length_append _ _).trans_le short
    | int | time | bool =>
      rw [kind] at room
      have same : score = counter.name := by simpa [kind, objectivesOf] using member
      rw [same]
      exact room
  · intro name fields kind
    have positive (index : Nat) : (keyAt index).length ≠ 0 := by
      intro none
      have below := keyAt_length_le_iff.1 none.le
      simp [keySpan] at below
    have fits (index : Nat) (suffix : String) :
        (counter.name ++ ":" ++ String.ofList (keyAt index) ++ suffix).length ≤
            greatestNameLength ↔
          index < keySpan (greatestNameLength - (counter.name.length + 1 + suffix.length)) := by
      have := positive index
      rw [← keyAt_length_le_iff]
      simp only [String.length_append, String.length_ofList, greatestNameLength]
      change _ + 1 + _ + _ ≤ _ ↔ _
      omega
    constructor
    · intro all index field found suffix isSuffix
      exact (fits index suffix).1 (all _ ((mem_objectives_ofFields kind).2
        ⟨index, field, found, suffix, isSuffix, rfl⟩))
    · intro all score member
      obtain ⟨index, field, found, suffix, isSuffix, rfl⟩ := (mem_objectives_ofFields kind).1 member
      exact (fits index suffix).2 (all index field found suffix isSuffix)

/-- A record with a name of 13 letters may be defined, and has scores of at most 16 letters unless a
field is a decimal. -/
theorem score_names_within_limit_point :
    let point := RecordType.ofFields "point" [("x", .int), ("y", .decimal 2)]
    (∀ score ∈ objectives ⟨"thirteenchars", (RecordType.ofFields "point" [("x", .int)]).kind⟩,
      score.length ≤ 16) ∧
    ¬∀ score ∈ objectives ⟨"thirteenchars", point.kind⟩, score.length ≤ 16 := by
  have accepted (fields : List (String × CounterKind)) : Scoreboard.define {}
      ⟨"thirteenchars", (ofFields "point" fields).kind⟩ = .ok (Scoreboard.addCounter {}
        ⟨"thirteenchars", (ofFields "point" fields).kind⟩) :=
    if_neg (by decide : ¬13 < "thirteenchars".length)
  constructor
  · refine ((score_names_within_limit (accepted [("x", .int)])).2 _ _ rfl).2 ?_
    intro index field found suffix isSuffix
    obtain ⟨bound, rfl⟩ := List.getElem?_eq_some_iff.1 found
    obtain rfl : index = 0 := by simpa using bound
    rw [List.mem_singleton.1 isSuffix]
    decide
  · intro all
    have below := ((score_names_within_limit (accepted _)).2 _ _ rfl).1 all 1 ("y", .decimal 2) rfl ":w"
      List.mem_cons_self
    exact absurd below (by decide)

end Counter

end ScriptPack
