import Mathlib.Logic.IsEmpty.Defs
import ScriptPack.Selector.Basic

/-!
Merging selectors. What a selector picks depends on the meaning of its base and of its clauses, which
is left open: every clause may be any predicate of entities, and `@s` names the executing entity only.
Main result: for which selectors a merged one picks no entity that the first, or the second, does not
pick, whatever clauses mean.
-/

namespace ScriptPack

variable {selector other : Selector}

/-- A bound on where an entity may stand. -/
inductive Area.Bound where
  | x (coord : Coord)
  | y (coord : Coord)
  | z (coord : Coord)
  | radius (radius : Number.Single)
  | innerRadius (radius : Number.Single)
deriving DecidableEq

def Area.bounds (area : Area) : List Area.Bound :=
  area.x.toList.map .x ++ area.y.toList.map .y ++ area.z.toList.map .z ++
    area.radius.toList.map .radius ++ area.innerRadius.toList.map .innerRadius

@[simp] theorem Area.bounds_eq_nil_iff {area : Area} : area.bounds = [] ↔ area.isEmpty = true := by
  simp [bounds, isEmpty, Option.toList_eq_nil_iff, and_assoc]

namespace Selector

/-- One clause of a selector, with the place in which it stands. -/
inductive Clause where
  | type (clause : WordClause)
  | name (clause : WordClause)
  | family (clause : WordClause)
  | tag (clause : WordClause)
  | score (clause : ScoreClause)
  | item (clause : ItemClause)
  | bound (bound : Area.Bound)
  | block (clause : BlockClause)
  | extra (text : String)
deriving DecidableEq

def clauses (selector : Selector) : List Clause :=
  selector.types.map .type ++ selector.names.map .name ++ selector.families.map .family ++
    selector.tags.map .tag ++ selector.scores.map .score ++ selector.items.map .item ++
    selector.area.bounds.map .bound ++ selector.blockClause.toList.map .block ++
    selector.extra.map .extra

/-- A meaning of bases and clauses for entities of some type. -/
structure Meaning (Entity : Type) where
  executing : Entity
  admits : SelectorBase → Entity → Prop
  admits_self : ∀ entity, admits .self entity ↔ entity = executing
  holds : Clause → Entity → Prop

def Picks {Entity : Type} (selector : Selector) (meaning : Meaning Entity) (entity : Entity) : Prop :=
  meaning.admits selector.base entity ∧ ∀ clause ∈ selector.clauses, meaning.holds clause entity

/-- Whatever clauses mean, the one selector picks no entity that the other does not pick. -/
def Narrows (selector other : Selector) : Prop :=
  ∀ {Entity : Type} (meaning : Meaning Entity) (entity : Entity),
    selector.Picks meaning entity → other.Picks meaning entity

/-- As any clause may be the only one to fail, and any base but `@s` may admit all, narrowing is
decided by the text: the base is the same, and there are all the clauses of the other. -/
theorem narrows_iff :
    selector.Narrows other ↔ selector.base = other.base ∧ other.clauses ⊆ selector.clauses := by
  constructor
  · intro narrows
    constructor
    · -- of two entities, the executing one is `true`; the base of the selector admits both
      let meaning : Meaning Bool := {
        executing := true
        admits := fun base entity => base = .self ∧ entity = true ∨ base ≠ .self ∧ base = selector.base
        admits_self := by simp
        holds := fun _ _ => True }
      by_cases isSelf : selector.base = .self
      · have picked := (narrows meaning true ⟨.inl ⟨isSelf, rfl⟩, fun _ _ => trivial⟩).1
        rcases picked with ⟨otherSelf, -⟩ | ⟨-, same⟩
        · rw [isSelf, otherSelf]
        · exact same.symm
      · have picked := (narrows meaning false ⟨.inr ⟨isSelf, rfl⟩, fun _ _ => trivial⟩).1
        rcases picked with ⟨-, executing⟩ | ⟨-, same⟩
        · cases executing
        · exact same.symm
    · intro clause member
      let meaning : Meaning Unit := {
        executing := ()
        admits := fun _ _ => True
        admits_self := by simp
        holds := fun clause _ => clause ∈ selector.clauses }
      exact (narrows meaning () ⟨trivial, fun _ => id⟩).2 clause member
  · rintro ⟨same, all⟩ Entity meaning entity ⟨admitted, holds⟩
    exact ⟨same ▸ admitted, fun clause member => holds clause (all member)⟩

theorem merge_base (selector other : Selector) : (selector.merge other).base =
    if selector.base = .self then other.base else selector.base := by
  simp [merge]

/-- The clauses of a merged selector, place by place: all words, scores, items and further texts of
both, one of the areas, and one of the tests of a block. -/
theorem mem_clauses_merge {clause : Clause} :
    clause ∈ (selector.merge other).clauses ↔ match clause with
      | .bound bound =>
          bound ∈ (if selector.area.isEmpty then other.area else selector.area).bounds
      | .block block => (other.blockClause <|> selector.blockClause) = some block
      | clause => clause ∈ selector.clauses ∨ clause ∈ other.clauses := by
  cases clause <;> simp [clauses, merge]

@[simp] theorem bound_mem_clauses {bound : Area.Bound} :
    .bound bound ∈ selector.clauses ↔ bound ∈ selector.area.bounds := by
  simp [clauses]

@[simp] theorem block_mem_clauses {block : BlockClause} :
    .block block ∈ selector.clauses ↔ selector.blockClause = some block := by
  simp [clauses]

/-- Of the first selector only the test of a block is given up, for another one of the second. -/
theorem clauses_subset_merge :
    selector.clauses ⊆ (selector.merge other).clauses ↔
      ∀ block ∈ selector.blockClause, ∀ kept ∈ other.blockClause, kept = block := by
  constructor
  · intro all block isBlock kept isKept
    have member := mem_clauses_merge.1 (all (block_mem_clauses.2 isBlock))
    simpa [Option.mem_def.1 isKept] using member
  · intro same clause member
    rw [mem_clauses_merge]
    cases clause with
    | bound bound =>
      have nonempty : selector.area.isEmpty ≠ true := by
        rw [ne_eq, ← Area.bounds_eq_nil_iff]
        exact List.ne_nil_of_mem (bound_mem_clauses.1 member)
      simpa [nonempty] using member
    | block block =>
      have isBlock := block_mem_clauses.1 member
      cases kept : other.blockClause with
      | none => simpa using isBlock
      | some other => simp [same block isBlock other kept]
    | _ => exact .inl member

/-- Of the second selector only the area is given up, where the first has one. -/
theorem other_clauses_subset_merge :
    other.clauses ⊆ (selector.merge other).clauses ↔
      selector.area.isEmpty = true ∨ other.area.bounds ⊆ selector.area.bounds := by
  constructor
  · intro all
    by_cases isEmpty : selector.area.isEmpty = true
    · exact .inl isEmpty
    · refine .inr fun bound member => ?_
      simpa [isEmpty] using mem_clauses_merge.1 (all (bound_mem_clauses.2 member))
  · intro kept clause member
    rw [mem_clauses_merge]
    cases clause with
    | bound bound =>
      have isBound := bound_mem_clauses.1 member
      rcases kept with isEmpty | bounds
      · simpa [isEmpty] using isBound
      · dsimp only
        split
        · exact isBound
        · exact bounds isBound
    | block block => simp [block_mem_clauses.1 member]
    | _ => exact .inr member

theorem clauses_merge_subset {clause : Clause} (member : clause ∈ (selector.merge other).clauses) :
    clause ∈ selector.clauses ∨ clause ∈ other.clauses := by
  have merged := mem_clauses_merge.1 member
  cases clause with
  | bound bound =>
    dsimp only at merged
    split at merged
    · exact .inr (bound_mem_clauses.2 merged)
    · exact .inl (bound_mem_clauses.2 merged)
  | block block =>
    cases kept : other.blockClause with
    | none => exact .inl (block_mem_clauses.2 (by simpa [kept] using merged))
    | some other => exact .inr (block_mem_clauses.2 (by simpa [kept] using merged))
  | _ => exact merged

/-- The smallest of the limits that are given, and no limit where none is. -/
theorem lesserCount_eq_some_iff {left right : Option Int32} {limit : Int32} :
    lesserCount left right = some limit ↔
      (left = some limit ∨ right = some limit) ∧
        ∀ given, left = some given ∨ right = some given → limit ≤ given := by
  have least (first second : Int32) : min first second = if first ≤ second then first else second := rfl
  cases left with
  | none =>
    cases right with
    | none => simp [lesserCount]
    | some right => simpa [lesserCount] using fun same => same ▸ Int32.le_refl _
  | some left =>
    cases right with
    | none => simpa [lesserCount] using fun same => same ▸ Int32.le_refl _
    | some right =>
      simp only [lesserCount, least, Option.some.injEq, or_imp, forall_and, forall_eq']
      grind

/-- What merging does. The merged selector always picks what both pick. It picks nothing that the first
does not pick exactly if it keeps the base and the test of a block, and nothing that the second does
not pick exactly if it has its base and all the bounds of its area. Its limit is the smallest of those
that are given. -/
theorem merge_narrows_exactly (selector other : Selector) :
    (∀ {Entity : Type} (meaning : Meaning Entity) (entity : Entity), selector.Picks meaning entity →
      other.Picks meaning entity → (selector.merge other).Picks meaning entity) ∧
    ((selector.merge other).Narrows selector ↔ (selector.base = .self → other.base = .self) ∧
      ∀ block ∈ selector.blockClause, ∀ kept ∈ other.blockClause, kept = block) ∧
    ((selector.merge other).Narrows other ↔
      (selector.base = .self ∨ selector.base = other.base) ∧
        (selector.area.isEmpty = true ∨ other.area.bounds ⊆ selector.area.bounds)) ∧
    ∀ limit, (selector.merge other).count = some limit ↔
      (selector.count = some limit ∨ other.count = some limit) ∧
        ∀ given, selector.count = some given ∨ other.count = some given → limit ≤ given := by
  refine ⟨?_, ?_, ?_, fun limit => lesserCount_eq_some_iff⟩
  · rintro Entity meaning entity ⟨admitted, holds⟩ ⟨otherAdmitted, otherHolds⟩
    refine ⟨?_, fun clause member => ?_⟩
    · rw [merge_base]
      split
      · exact otherAdmitted
      · exact admitted
    · exact (clauses_merge_subset member).elim (holds clause) (otherHolds clause)
  · rw [narrows_iff, clauses_subset_merge, merge_base]
    refine and_congr_left fun _ => ?_
    by_cases isSelf : selector.base = .self <;> simp [isSelf]
  · rw [narrows_iff, other_clauses_subset_merge, merge_base]
    refine and_congr_left fun _ => ?_
    by_cases isSelf : selector.base = .self <;> simp [isSelf]

end Selector

end ScriptPack
