/-!
Tables from keys to things. Every key has at most one entry that counts, the first one, and the
laws at the end say what a look-up finds after each change.
-/

namespace ScriptPack

structure Table (κ α : Type) where
  entries : List (κ × α) := []

namespace Table

variable {κ α : Type} [DecidableEq κ]

def empty : Table κ α := {}

def get? (table : Table κ α) (key : κ) : Option α :=
  table.entries.lookup key

def contains (table : Table κ α) (key : κ) : Bool :=
  (table.get? key).isSome

def erase (table : Table κ α) (key : κ) : Table κ α :=
  ⟨table.entries.filter fun entry => !(key == entry.1)⟩

def insert (table : Table κ α) (key : κ) (value : α) : Table κ α :=
  ⟨(key, value) :: (table.erase key).entries⟩

def put (table : Table κ α) (key : κ) : Option α → Table κ α
  | some value => table.insert key value
  | none => table.erase key

theorem lookup_filter (entries : List (κ × α)) (key other : κ) :
    (entries.filter fun entry => !(key == entry.1)).lookup other =
      if other = key then none else entries.lookup other := by
  induction entries with
  | nil => simp
  | cons entry rest ih =>
    obtain ⟨first, value⟩ := entry
    by_cases same : key = first
    · subst same
      by_cases hit : other = key
      · simp [hit]
      · simp [ih, hit, List.lookup_cons, beq_eq_false_iff_ne.2 hit]
    · by_cases hit : other = first
      · subst hit
        simp [beq_eq_false_iff_ne.2 same, Ne.symm same]
      · simp [beq_eq_false_iff_ne.2 same, List.lookup_cons, beq_eq_false_iff_ne.2 hit, ih]

@[simp]
theorem get?_empty (key : κ) : (empty : Table κ α).get? key = none := rfl

@[simp]
theorem get?_erase (table : Table κ α) (key other : κ) :
    (table.erase key).get? other = if other = key then none else table.get? other :=
  lookup_filter table.entries key other

@[simp]
theorem get?_insert (table : Table κ α) (key other : κ) (value : α) :
    (table.insert key value).get? other = if other = key then some value else table.get? other := by
  by_cases hit : other = key
  · simp [get?, insert, hit]
  · have miss : (table.erase key).get? other = table.get? other := by simp [hit]
    simpa [get?, insert, List.lookup_cons, beq_eq_false_iff_ne.2 hit, hit] using miss

@[simp]
theorem get?_put (table : Table κ α) (key other : κ) (value : Option α) :
    (table.put key value).get? other = if other = key then value else table.get? other := by
  cases value <;> simp [put]

end Table

end ScriptPack
