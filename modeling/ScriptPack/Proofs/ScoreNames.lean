import Mathlib.Data.List.Infix
import ScriptPack.Proofs.SelectorText
import ScriptPack.RawText.Interpolation
import ScriptPack.Routine

/-!
Names of scores in texts. Names that begin like those of temporaries and of results are reserved; a
list of declared scores covers a text if it has every reserved name that the text may hold. Main
results: a text without the mark of reserved names is covered whatever is declared, and so is such a
text in quotes; texts that dividers keep apart are covered if each of them is.
-/

namespace ScriptPack

open Json List

variable {text rest : List Char} {c : Char} {name : String} {declared : List String}

namespace Text

def isDivider (c : Char) : Bool :=
  [' ', '"', '=', ',', '!', '\x7b', '\x7d', '[', ']', '\\'].contains c

def stretches : List Char → List (List Char)
  | [] => [[]]
  | c :: rest =>
      if isDivider c then [] :: stretches rest
      else
        match stretches rest with
        | [] => [[c]]
        | first :: others => (c :: first) :: others

def names (text : String) : List String :=
  (stretches text.toList).map String.ofList

theorem stretches_divider (divides : isDivider c = true) (rest : List Char) :
    stretches (c :: rest) = [] :: stretches rest := by
  rw [stretches, if_pos divides]

theorem stretches_ne_nil (text : List Char) : stretches text ≠ [] := by
  cases text with
  | nil => exact cons_ne_nil _ _
  | cons c rest =>
    rw [stretches]
    split
    · exact cons_ne_nil _ _
    · split <;> exact cons_ne_nil _ _

theorem stretches_plain (plain : isDivider c = false) {first : List Char}
    {others : List (List Char)} (following : stretches rest = first :: others) :
    stretches (c :: rest) = (c :: first) :: others := by
  rw [stretches, if_neg (by simp [plain]), following]

theorem stretches_append_divider (divides : isDivider c = true) (before after : List Char) :
    stretches (before ++ c :: after) = stretches before ++ stretches after := by
  induction before with
  | nil => exact stretches_divider divides after
  | cons d before ih =>
    by_cases other : isDivider d = true
    · rw [cons_append, stretches_divider other, stretches_divider other, ih, cons_append]
    · obtain ⟨first, others, following⟩ := exists_cons_of_ne_nil (stretches_ne_nil before)
      have plain := Bool.eq_false_iff.2 other
      rw [following, cons_append] at ih
      rw [cons_append, stretches_plain plain ih, stretches_plain plain following, cons_append]

/-- The first stretch begins the text, and every other one stands somewhere in it. -/
theorem stretches_within (text : List Char) : ∃ first others, stretches text = first :: others ∧
    first <+: text ∧ ∀ other ∈ others, other <:+: text := by
  induction text with
  | nil => exact ⟨[], [], rfl, prefix_refl [], by simp⟩
  | cons c text ih =>
    obtain ⟨first, others, following, begins, within⟩ := ih
    have deeper : ∀ other ∈ others, other <:+: c :: text :=
      fun other member => (within other member).trans (suffix_cons c text).isInfix
    by_cases divides : isDivider c = true
    · refine ⟨[], first :: others, by rw [stretches_divider divides, following], nil_prefix, ?_⟩
      intro other member
      obtain rfl | member := mem_cons.1 member
      · exact begins.isInfix.trans (suffix_cons c text).isInfix
      · exact deeper other member
    · exact ⟨c :: first, others, stretches_plain (Bool.eq_false_iff.2 divides) following,
        cons_prefix_cons.2 ⟨rfl, begins⟩, deeper⟩

theorem infix_of_mem_stretches {stretch : List Char} (member : stretch ∈ stretches text) :
    stretch <:+: text := by
  obtain ⟨first, others, equal, begins, within⟩ := stretches_within text
  rw [equal] at member
  obtain rfl | member := mem_cons.1 member
  · exact begins.isInfix
  · exact within stretch member

def mark : List Char := "_mcc_".toList

def IsUnmarked (text : List Char) : Prop :=
  ¬mark <:+: text

instance : DecidablePred IsUnmarked :=
  fun _ => inferInstanceAs (Decidable (¬_))

theorem IsUnmarked.of_isInfix {part : List Char} (unmarked : IsUnmarked text)
    (within : part <:+: text) : IsUnmarked part :=
  fun marked => unmarked (marked.trans within)

theorem isUnmarked_of_not_mem (absent : '_' ∉ text) : IsUnmarked text :=
  fun marked => absent (marked.subset (by decide))

theorem IsUnmarked.cons {text : List Char} (unmarked : IsUnmarked text) {c : Char} (other : c ≠ '_') :
    IsUnmarked (c :: text) := by
  intro marked
  obtain begins | within := infix_cons_iff.1 marked
  · exact other (cons_prefix_cons.1 begins).1.symm
  · exact unmarked within

theorem prefix_of_prefix_append {part : List Char} (absent : c ∉ part)
    (begins : part <+: text ++ c :: rest) : part <+: text := by
  induction part generalizing text with
  | nil => exact nil_prefix
  | cons d part ih =>
    cases text with
    | nil =>
      obtain ⟨rfl, -⟩ := cons_prefix_cons.1 begins
      exact absurd mem_cons_self absent
    | cons e text =>
      obtain ⟨same, begins⟩ := cons_prefix_cons.1 begins
      have absentLater : c ∉ part := fun member => absent (mem_cons_of_mem d member)
      exact cons_prefix_cons.2 ⟨same, ih absentLater begins⟩

/-- The start of a reserved name does not reach over another character. -/
theorem IsUnmarked.append_cons (first : IsUnmarked text)
    (other : c ∉ mark) (second : IsUnmarked rest) : IsUnmarked (text ++ c :: rest) := by
  induction text with
  | nil => exact second.cons fun same => other (same ▸ by decide)
  | cons d text ih =>
    intro marked
    obtain begins | within := infix_cons_iff.1 marked
    · exact first (prefix_of_prefix_append other begins).isInfix
    · exact ih (first.of_isInfix (suffix_cons d text).isInfix) within

end Text

open Text

def IsReservedScore (name : String) : Prop :=
  Scoreboard.temporaryName.toList <+: name.toList ∨ Routine.resultName.toList <+: name.toList

instance : DecidablePred IsReservedScore :=
  fun _ => inferInstanceAs (Decidable (_ ∨ _))

theorem IsReservedScore.marked (reserved : IsReservedScore name) : mark <+: name.toList := by
  obtain temporary | result := reserved
  · exact List.IsPrefix.trans (by decide) temporary
  · exact List.IsPrefix.trans (by decide) result

theorem not_isReservedScore (unmarked : IsUnmarked name.toList) : ¬IsReservedScore name :=
  fun reserved => unmarked reserved.marked.isInfix

def CoversNames (declared names : List String) : Prop :=
  ∀ name ∈ names, IsReservedScore name → name ∈ declared

section CoversNames

variable {declared later names others : List String} {name : String}

@[simp] theorem coversNames_nil : CoversNames declared [] := by
  simp [CoversNames]

@[simp] theorem coversNames_cons : CoversNames declared (name :: names) ↔
    (IsReservedScore name → name ∈ declared) ∧ CoversNames declared names := by
  simp [CoversNames]

@[simp] theorem coversNames_append : CoversNames declared (names ++ others) ↔
    CoversNames declared names ∧ CoversNames declared others := by
  simp [CoversNames, or_imp, forall_and]

theorem coversNames_of_apart (apart : ∀ name ∈ names, ¬IsReservedScore name) :
    CoversNames declared names :=
  fun name member reserved => absurd reserved (apart name member)

theorem CoversNames.mono (covered : CoversNames declared names) (grows : declared ⊆ later) :
    CoversNames later names :=
  fun name member reserved => grows (covered name member reserved)

end CoversNames

/-! ## Texts -/

def CoversText (declared : List String) (text : List Char) : Prop :=
  CoversNames declared ((stretches text).map String.ofList)

section CoversText

variable {declared : List String} {text before after : List Char} {c : Char}

theorem coversText_of_isUnmarked (unmarked : IsUnmarked text) : CoversText declared text := by
  intro name member reserved
  obtain ⟨stretch, isStretch, rfl⟩ := mem_map.1 member
  have within : mark <:+: stretch := by simpa using reserved.marked.isInfix
  exact absurd (within.trans (infix_of_mem_stretches isStretch)) unmarked

theorem coversText_append_divider (divides : isDivider c = true) :
    CoversText declared (before ++ c :: after) ↔
      CoversText declared before ∧ CoversText declared after := by
  unfold CoversText
  rw [stretches_append_divider divides, map_append, coversNames_append]

theorem coversText_nil : CoversText declared [] :=
  coversText_of_isUnmarked (by decide)

theorem coversText_cons_divider (divides : isDivider c = true) :
    CoversText declared (c :: after) ↔ CoversText declared after := by
  rw [← nil_append (c :: after), coversText_append_divider divides]
  exact and_iff_right coversText_nil

/-- Covered texts on the two sides of a divider that ends the first. -/
theorem CoversText.append (first : CoversText declared before) (second : CoversText declared after)
    (ends : before.getLast?.any isDivider = true) : CoversText declared (before ++ after) := by
  obtain ⟨c, last, divides⟩ := (Option.any_eq_true _ _).1 ends
  obtain ⟨start, rfl⟩ := getLast?_eq_some_iff.1 last
  rw [append_assoc, singleton_append, coversText_append_divider divides]
  exact ⟨((coversText_append_divider divides).1 first).1, second⟩

theorem coversText_joinWith_comma {texts : List String}
    (covered : ∀ text ∈ texts, CoversText declared text.toList) :
    CoversText declared (joinWith "," texts).toList := by
  cases texts with
  | nil => exact coversText_nil
  | cons first rest =>
    rw [toList_joinWith_comma]
    have begins := covered first mem_cons_self
    have follows : ∀ text ∈ rest, CoversText declared text.toList :=
      fun text member => covered text (mem_cons_of_mem first member)
    clear covered
    generalize first.toList = start at begins
    induction rest generalizing start with
    | nil => simpa using begins
    | cons next rest ih =>
      rw [map_cons, flatten_cons, cons_append, coversText_append_divider (by decide)]
      have later : ∀ text ∈ rest, CoversText declared text.toList :=
        fun text member => follows text (mem_cons_of_mem next member)
      exact ⟨begins, ih later next.toList (follows next mem_cons_self)⟩

/-- A covered text between texts without reserved names that keep it apart. -/
theorem CoversText.between (covered : CoversText declared text) (opening : IsUnmarked before)
    (opens : before.getLast?.any isDivider = true) (closing : IsUnmarked after)
    (closes : after.head?.any isDivider = true) : CoversText declared (before ++ (text ++ after)) := by
  refine (coversText_of_isUnmarked opening).append ?_ opens
  obtain ⟨c, first, divides⟩ := (Option.any_eq_true _ _).1 closes
  obtain ⟨rest, rfl⟩ := head?_eq_some_iff.1 first
  rw [coversText_append_divider divides]
  exact ⟨covered, coversText_of_isUnmarked (closing.of_isInfix (suffix_cons c rest).isInfix)⟩

theorem CoversText.enclosed (covered : CoversText declared text) {opening closing : Char}
    (opens : isDivider opening = true) (closes : isDivider closing = true) :
    CoversText declared (opening :: text ++ [closing]) := by
  rw [cons_append, coversText_cons_divider opens, coversText_append_divider closes]
  exact ⟨covered, coversText_nil⟩

end CoversText

/-! ## Quoted texts -/

namespace Text

/-- Characters that neither divide a text nor are escaped in quotes. -/
def isNameChar (c : Char) : Bool :=
  !isDivider c && 32 ≤ c.toNat

theorem isNameChar_iff : isNameChar c = true ↔ isDivider c = false ∧ 32 ≤ c.toNat := by
  simp [isNameChar]

def IsName (text : List Char) : Prop :=
  text.all isNameChar = true

instance : DecidablePred IsName :=
  fun text => inferInstanceAs (Decidable (text.all isNameChar = true))

theorem isName_append {other : List Char} :
    IsName (text ++ other) ↔ IsName text ∧ IsName other := by
  simp [IsName]

theorem isName_cons : IsName (c :: text) ↔ isNameChar c = true ∧ IsName text := by
  simp [IsName]

theorem IsName.stretches_eq (isName : IsName text) : stretches text = [text] := by
  induction text with
  | nil => rfl
  | cons c text ih =>
    obtain ⟨plain, rest⟩ := isName_cons.1 isName
    exact stretches_plain (isNameChar_iff.1 plain).1 (ih rest)

theorem IsName.coversText (isName : IsName name.toList)
    (covered : IsReservedScore name → name ∈ declared) : CoversText declared name.toList := by
  unfold CoversText
  rw [isName.stretches_eq, map_singleton, String.ofList_toList]
  simpa using covered

theorem escape_eq_self (isName : isNameChar c = true) : Json.escape c = [c] := by
  obtain ⟨plain, above⟩ := isNameChar_iff.1 isName
  have noQuote : c ≠ '"' := by
    rintro rfl
    cases plain
  have noSlash : c ≠ '\\' := by
    rintro rfl
    cases plain
  have different {value : Nat} (below : value < 32) : (c.toNat == value) = false :=
    beq_eq_false_iff_ne.2 (by omega)
  simp [escape, noQuote, noSlash, different, Nat.not_lt.2 above]

theorem IsName.escape_eq (isName : IsName text) : text.flatMap escape = text := by
  induction text with
  | nil => rfl
  | cons c text ih =>
    obtain ⟨plain, rest⟩ := isName_cons.1 isName
    rw [flatMap_cons, escape_eq_self plain, ih rest, singleton_append]

/-- An escape is the character itself, or a backslash and what cannot begin a reserved name. -/
theorem escape_cases (c : Char) :
    escape c = [c] ∨ ∃ tail, escape c = '\\' :: tail ∧ '_' ∉ tail := by
  have digit (value : Nat) : '_' ≠ Nat.digitChar (value % 16) :=
    (by decide : ∀ value < 16, '_' ≠ Nat.digitChar value) _ (Nat.mod_lt value (by decide))
  unfold escape
  iterate 7
    split
    · exact .inr ⟨_, rfl, by decide⟩
  split
  · exact .inr ⟨_, rfl, by simp [hexDigits, digit]⟩
  · exact .inl rfl

theorem prefix_of_prefix_escape {part : List Char} (plain : '\\' ∉ part)
    (begins : part <+: text.flatMap escape) : part <+: text := by
  induction part generalizing text with
  | nil => exact nil_prefix
  | cons d part ih =>
    cases text with
    | nil => exact begins
    | cons c text =>
      rw [flatMap_cons] at begins
      obtain same | ⟨tail, escaped, -⟩ := escape_cases c
      · rw [same, singleton_append, cons_prefix_cons] at begins
        exact cons_prefix_cons.2 ⟨begins.1, ih (fun member => plain (mem_cons_of_mem d member)) begins.2⟩
      · rw [escaped, cons_append, cons_prefix_cons] at begins
        exact absurd (begins.1 ▸ mem_cons_self) plain

theorem IsUnmarked.escape (unmarked : IsUnmarked text) : IsUnmarked (text.flatMap escape) := by
  induction text with
  | nil => exact unmarked
  | cons c text ih =>
    have later := ih (unmarked.of_isInfix (suffix_cons c text).isInfix)
    obtain same | ⟨tail, escaped, absent⟩ := escape_cases c
    · intro marked
      have begins := @prefix_of_prefix_escape (c :: text) mark (by decide)
      rw [flatMap_cons, same, singleton_append] at marked begins
      obtain isPrefix | within := infix_cons_iff.1 marked
      · exact unmarked (begins isPrefix).isInfix
      · exact later within
    · rw [flatMap_cons, escaped]
      refine IsUnmarked.cons ?_ (by decide)
      clear escaped
      induction tail with
      | nil => exact later
      | cons d tail ih =>
        obtain ⟨other, absent⟩ := not_or.1 (mt mem_cons.2 absent)
        exact (ih absent).cons (Ne.symm other)

theorem coversText_quote {text : String} (unmarked : IsUnmarked text.toList) :
    CoversText declared (quote text).toList := by
  rw [quote, String.toList_ofList]
  exact (coversText_of_isUnmarked unmarked.escape).enclosed (by decide) (by decide)

theorem IsName.coversText_quote (isName : IsName name.toList)
    (covered : IsReservedScore name → name ∈ declared) :
    CoversText declared (quote name).toList := by
  rw [quote, String.toList_ofList, isName.escape_eq]
  exact (isName.coversText covered).enclosed (by decide) (by decide)

end Text

end ScriptPack
