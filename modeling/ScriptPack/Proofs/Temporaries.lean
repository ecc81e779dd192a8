import Mathlib.Algebra.Order.Ring.Int
import Mathlib.Data.List.Forall2
import Mathlib.Data.Option.Basic
import ScriptPack.Build.Run

/-!
Temporary counters and what asking for one changes. Names are compared without regard to case, so
a name is out of the way of all temporaries only if it does not start like them in any case. A
counter that is found once is found again after any number of new temporaries, unless its name is
one that a new temporary takes.
-/

namespace ScriptPack

open List Option Text

variable {accessor : String} {board later : Scoreboard} {counter : Counter}

namespace Text

theorem upper_append (first second : String) :
    upper (first ++ second) = upper first ++ upper second := by
  simp [upper, String.toList_append, flatMap_append, String.ofList_append]

theorem toList_upper (text : String) : (upper text).toList = text.toList.flatMap upperChar := by
  simp [upper]

theorem upperChar_of_isDigit {c : Char} (digit : c.isDigit = true) : upperChar c = [c] := by
  have range : 48 ≤ c.val.toNat ∧ c.val.toNat ≤ 57 := by
    have bounds := digit
    rw [Char.isDigit, Bool.and_eq_true, decide_eq_true_eq, decide_eq_true_eq, ge_iff_le,
      UInt32.le_iff_toNat_le, UInt32.le_iff_toNat_le] at bounds
    exact bounds
  have small : c.toNat < 128 := by
    change c.val.toNat < 128
    omega
  have notLower : c.toUpper = c := by
    have below : ¬(97 ≤ c.val) := by
      rw [UInt32.le_iff_toNat_le]
      change ¬(97 ≤ c.val.toNat)
      omega
    exact dif_neg fun within => below within.1
  simp [upperChar, small, notLower]

theorem isDigit_of_mem_toString {number : Nat} {c : Char} (member : c ∈ (toString number).toList) :
    c.isDigit = true := by
  have member : c ∈ Nat.toDigits 10 number := by simpa [toString, Nat.repr] using member
  exact Nat.isDigit_of_mem_toDigits (by decide) (by decide) member

theorem toString_inj {number other : Nat} : toString number = toString other ↔ number = other := by
  refine ⟨fun same => ?_, congrArg toString⟩
  have digits : Nat.toDigits 10 number = Nat.toDigits 10 other := by
    simpa [toString, Nat.repr] using congrArg String.toList same
  rw [← @Nat.ofDigitChars_ten_toDigits number, digits, Nat.ofDigitChars_ten_toDigits]

theorem upper_toString (number : Nat) : upper (toString number) = toString number := by
  have same : (toString number).toList.flatMap upperChar = (toString number).toList := by
    rw [flatMap_congr fun c member => upperChar_of_isDigit (isDigit_of_mem_toString member)]
    simp
  rw [upper, same, String.ofList_toList]

end Text

namespace Scoreboard

def temporaryObjective (index : Nat) : String :=
  temporaryName ++ toString index

def temporaryKey (index : Nat) : String :=
  upper (temporaryObjective index)

theorem temporaryKey_eq (index : Nat) :
    temporaryKey index = upper temporaryName ++ toString index := by
  rw [temporaryKey, temporaryObjective, upper_append, upper_toString]

theorem temporaryObjective_inj {first second : Nat} :
    temporaryObjective first = temporaryObjective second ↔ first = second := by
  rw [temporaryObjective, temporaryObjective, String.append_right_inj]
  exact toString_inj

theorem temporaryKey_inj {first second : Nat} :
    temporaryKey first = temporaryKey second ↔ first = second := by
  rw [temporaryKey_eq, temporaryKey_eq, String.append_right_inj]
  exact toString_inj

def IsReserved (name : String) : Prop :=
  (upper temporaryName).toList <+: (upper name).toList

instance (name : String) : Decidable (IsReserved name) :=
  inferInstanceAs (Decidable (_ <+: _))

theorem isReserved_of_upper_eq {name : String} {index : Nat}
    (same : upper name = temporaryKey index) : IsReserved name := by
  rw [IsReserved, same, temporaryKey_eq, String.toList_append]
  exact prefix_append _ _

theorem isReserved_temporaryObjective (index : Nat) : IsReserved (temporaryObjective index) :=
  isReserved_of_upper_eq rfl

theorem ne_temporaryObjective {name : String} (free : ¬IsReserved name) (index : Nat) :
    name ≠ temporaryObjective index := by
  rintro rfl
  exact free (isReserved_temporaryObjective index)

theorem isReserved_of_base {base field : List Char}
    (cut : cutAt? ':' accessor.toList = some (base, field))
    (reserved : IsReserved (String.ofList base)) : IsReserved accessor := by
  have start {text before after : List Char}
      (cut : cutAt? ':' text = some (before, after)) : before <+: text := by
    induction text generalizing before with
    | nil => simp [cutAt?] at cut
    | cons c rest ih =>
      unfold cutAt? at cut
      split at cut
      · cases cut
        exact nil_prefix
      · obtain ⟨⟨inner, tail⟩, found, equal⟩ := map_eq_some_iff.1 cut
        cases equal
        exact (prefix_cons_inj c).2 (ih found)
  obtain ⟨tail, split⟩ := start cut
  unfold IsReserved at reserved ⊢
  rw [toList_upper] at reserved ⊢
  rw [toList_upper, ← split, flatMap_append]
  rw [toList_upper, String.toList_ofList] at reserved
  exact reserved.trans (prefix_append _ _)

section

variable (board : Scoreboard)

/-- Declaring scores only touches what waits for the top of the root file. -/
theorem declare_eq (counter : Counter) :
    ∃ declared pendingHead, board.declare counter = { board with declared, pendingHead } := by
  unfold declare
  generalize counter.objectives = objectives
  induction objectives generalizing board with
  | nil => exact ⟨board.declared, board.pendingHead, rfl⟩
  | cons objective rest ih =>
    rw [foldl_cons]
    obtain ⟨declared, pendingHead, equal⟩ := ih (board.declareObjective objective)
    refine ⟨declared, pendingHead, equal.trans ?_⟩
    unfold declareObjective
    split <;> rfl

theorem temporary_fst (kind : CounterKind) :
    (board.temporary kind).1 = ⟨temporaryObjective board.nextTemporary, kind⟩ := rfl

theorem temporary_snd (kind : CounterKind) :
    ∃ declared pendingHead, (board.temporary kind).2 =
      { board with
        counters := board.counters.insert (temporaryKey board.nextTemporary)
          ⟨temporaryObjective board.nextTemporary, kind⟩
        nextTemporary := board.nextTemporary + 1
        declared
        pendingHead } := by
  obtain ⟨declared, pendingHead, equal⟩ := declare_eq
    { board with nextTemporary := board.nextTemporary + 1 }
    ⟨temporaryObjective board.nextTemporary, kind⟩
  refine ⟨declared, pendingHead, ?_⟩
  change addCounter (declare _ ⟨temporaryObjective board.nextTemporary, kind⟩) _ = _
  rw [equal]
  rfl

theorem nextTemporary_temporary (kind : CounterKind) :
    (board.temporary kind).2.nextTemporary = board.nextTemporary + 1 := by
  obtain ⟨declared, pendingHead, equal⟩ := temporary_snd board kind
  rw [equal]

end

/-- `later` is `board` after new temporaries. -/
structure Extends (board later : Scoreboard) : Prop where
  next_le : board.nextTemporary ≤ later.nextTemporary
  scopes : later.scopes = board.scopes
  records : later.records = board.records
  counters : ∀ key, (∀ index, board.nextTemporary ≤ index → key ≠ temporaryKey index) →
    later.counters.get? key = board.counters.get? key

theorem Extends.refl (board : Scoreboard) : Extends board board :=
  ⟨le_rfl, rfl, rfl, fun _ _ => rfl⟩

theorem Extends.trans {first second third : Scoreboard} (early : Extends first second)
    (late : Extends second third) : Extends first third where
  next_le := early.next_le.trans late.next_le
  scopes := late.scopes.trans early.scopes
  records := late.records.trans early.records
  counters := fun key old => by
    rw [late.counters key fun index bound => old index (early.next_le.trans bound),
      early.counters key old]

theorem extends_temporary (board : Scoreboard) (kind : CounterKind) :
    Extends board (board.temporary kind).2 := by
  obtain ⟨declared, pendingHead, equal⟩ := temporary_snd board kind
  rw [equal]
  refine ⟨Nat.le_succ _, rfl, rfl, ?_⟩
  intro key old
  simp [old board.nextTemporary (Nat.le_refl _)]

/-- `later` has what `board` has and possibly more temporaries, whatever scopes have been opened and
closed. -/
structure Grows (board later : Scoreboard) : Prop where
  next_le : board.nextTemporary ≤ later.nextTemporary
  counters : ∀ key, (∀ index, board.nextTemporary ≤ index → key ≠ temporaryKey index) →
    later.counters.get? key = board.counters.get? key

theorem Extends.grows {board later : Scoreboard} (extension : Extends board later) :
    Grows board later :=
  ⟨extension.next_le, extension.counters⟩

theorem Grows.refl (board : Scoreboard) : Grows board board :=
  (Extends.refl board).grows

theorem Grows.trans {first second third : Scoreboard} (early : Grows first second)
    (late : Grows second third) : Grows first third where
  next_le := early.next_le.trans late.next_le
  counters := fun key old => by
    rw [late.counters key fun index bound => old index (early.next_le.trans bound),
      early.counters key old]

theorem grows_keepTemporaries (board : Scoreboard) : Grows board board.keepTemporaries := by
  unfold keepTemporaries
  split <;> exact ⟨le_rfl, fun _ _ => rfl⟩

theorem nextTemporary_keepTemporaries (board : Scoreboard) :
    board.keepTemporaries.nextTemporary = board.nextTemporary := by
  unfold keepTemporaries
  split <;> rfl

/-- `accessor` is found to be a counter, and no temporary that is still to come takes its place. -/
structure Finds (board : Scoreboard) (accessor : String) (counter : Counter) : Prop where
  found : board.get? accessor = some counter
  key_old : ∀ index, board.nextTemporary ≤ index → upper accessor ≠ temporaryKey index
  base_old : ∀ base field, cutAt? ':' accessor.toList = some (base, field) →
    ∀ index, board.nextTemporary ≤ index → upper (String.ofList base) ≠ temporaryKey index

theorem Finds.grow (finds : Finds board accessor counter) (extension : Grows board later) :
    Finds later accessor counter where
  found := by
    have found := finds.found
    unfold get? at found ⊢
    rw [extension.counters _ finds.key_old]
    cases direct : board.counters.get? (upper accessor) with
    | some other => simpa [direct] using found
    | none =>
      simp only [direct] at found ⊢
      cases cut : cutAt? ':' accessor.toList with
      | none => simp [cut] at found
      | some pieces =>
        obtain ⟨base, field⟩ := pieces
        simp only [cut, bind_eq_bind, bind_some] at found ⊢
        rwa [extension.counters _ (finds.base_old base field cut)]
  key_old := fun index bound => finds.key_old index (extension.next_le.trans bound)
  base_old := fun base field cut index bound =>
    finds.base_old base field cut index (extension.next_le.trans bound)

/-- `accessor` names a counter of one score, and no temporary that is still to come takes its name
or its score. -/
structure Names (board : Scoreboard) (accessor : String) (counter : Counter) : Prop where
  found : board.get? accessor = some counter
  simple : counter.kind.isIntegerLike = true
  key_old : ∀ index, board.nextTemporary ≤ index → upper accessor ≠ temporaryKey index
  base_old : ∀ base field, cutAt? ':' accessor.toList = some (base, field) →
    ∀ index, board.nextTemporary ≤ index → upper (String.ofList base) ≠ temporaryKey index
  name_old : ∀ index, board.nextTemporary ≤ index → counter.name ≠ temporaryObjective index

theorem Names.finds {board : Scoreboard} {accessor : String} {counter : Counter}
    (names : Names board accessor counter) : Finds board accessor counter :=
  ⟨names.found, names.key_old, names.base_old⟩

theorem Names.grow (names : Names board accessor counter) (grows : Grows board later) :
    Names later accessor counter := by
  obtain ⟨found, key_old, base_old⟩ := names.finds.grow grows
  exact ⟨found, names.simple, key_old, base_old,
    fun index bound => names.name_old index (grows.next_le.trans bound)⟩

theorem Names.extend (names : Names board accessor counter) (extension : Extends board later) :
    Names later accessor counter :=
  names.grow extension.grows

/-- Temporaries do not take the place of what has no name of theirs. -/
theorem Extends.get?_eq (extension : Extends board later) (free : ¬IsReserved accessor) :
    later.get? accessor = board.get? accessor := by
  unfold get?
  rw [extension.counters _ fun _ _ same => free (isReserved_of_upper_eq same)]
  cases cut : cutAt? ':' accessor.toList with
  | none => rfl
  | some pieces =>
    obtain ⟨base, field⟩ := pieces
    have base_free : ¬IsReserved (String.ofList base) := fun reserved => free (isReserved_of_base cut reserved)
    simp only [bind_eq_bind, bind_some]
    rw [extension.counters _ fun _ _ same => base_free (isReserved_of_upper_eq same)]

theorem finds_of_not_isReserved
    (found : board.get? accessor = some counter) (free : ¬IsReserved accessor) :
    Finds board accessor counter where
  found := found
  key_old := fun _ _ same => free (isReserved_of_upper_eq same)
  base_old := fun _ _ cut _ _ same => free (isReserved_of_base cut (isReserved_of_upper_eq same))

theorem names_of_not_isReserved (found : board.get? accessor = some counter)
    (simple : counter.kind.isIntegerLike = true) (accessorFree : ¬IsReserved accessor)
    (nameFree : ¬IsReserved counter.name) : Names board accessor counter := by
  obtain ⟨found, key_old, base_old⟩ := finds_of_not_isReserved found accessorFree
  exact ⟨found, simple, key_old, base_old, fun index _ => ne_temporaryObjective nameFree index⟩

theorem colon_notMem_temporaryObjective (index : Nat) :
    ':' ∉ (temporaryObjective index).toList := by
  rw [temporaryObjective, String.toList_append, mem_append, not_or]
  exact ⟨by decide, fun member => absurd (isDigit_of_mem_toString member) (by decide)⟩

theorem cutAt?_temporaryObjective (index : Nat) :
    cutAt? ':' (temporaryObjective index).toList = none := by
  have miss {text : List Char} (absent : ':' ∉ text) : cutAt? ':' text = none := by
    induction text with
    | nil => rfl
    | cons c rest ih =>
      simp only [mem_cons, not_or] at absent
      simp [cutAt?, Ne.symm absent.1, ih absent.2]
  exact miss (colon_notMem_temporaryObjective index)

theorem names_temporary (board : Scoreboard) {kind : CounterKind}
    (simple : kind.isIntegerLike = true) :
    Names (board.temporary kind).2 (temporaryObjective board.nextTemporary)
      ⟨temporaryObjective board.nextTemporary, kind⟩ := by
  obtain ⟨declared, pendingHead, equal⟩ := temporary_snd board kind
  rw [equal]
  have earlier {index : Nat} (bound : board.nextTemporary + 1 ≤ index) :
      board.nextTemporary ≠ index := by omega
  refine ⟨?_, simple, ?_, ?_, ?_⟩
  · simp [get?, temporaryKey]
  · intro index bound same
    exact earlier bound (temporaryKey_inj.1 same)
  · intro base field cut
    simp [cutAt?_temporaryObjective] at cut
  · intro index bound same
    exact earlier bound (temporaryObjective_inj.1 same)

end Scoreboard

end ScriptPack
