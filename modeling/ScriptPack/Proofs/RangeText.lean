import Mathlib.Algebra.Order.Ring.Int
import ScriptPack.Range

/-!
Integers and ranges as text. The numeral of an integer is read as that integer, and the text of a
range with a bound as that range.
-/

namespace ScriptPack

open List Option

namespace Number

theorem readDigits?_toDigits (value : Nat) : readDigits? (Nat.toDigits 10 value) = some value := by
  have digits : (Nat.toDigits 10 value).all Char.isDigit = true :=
    all_eq_true.2 fun _ => Nat.isDigit_of_mem_toDigits (by decide) (by decide)
  have nonempty : (Nat.toDigits 10 value).isEmpty = false :=
    isEmpty_eq_false_iff.2 Nat.toDigits_ne_nil
  have read := @Nat.ofDigitChars_ten_toDigits value
  unfold readDigits?
  rw [nonempty, digits]
  simp only [Bool.not_true, Bool.or_self, Bool.false_eq_true, if_false, some.injEq]
  simpa only [Nat.ofDigitChars, Nat.mul_comm] using read

theorem toList_showInt32 (value : Int32) : (showInt32 value).toList =
    if value.toInt < 0 then '-' :: Nat.toDigits 10 value.toInt.natAbs
    else Nat.toDigits 10 value.toInt.natAbs := by
  unfold showInt32
  cases value.toInt with
  | ofNat number => simp [toString, Int.repr]
  | negSucc number => simp [toString, Int.repr, Int.negSucc_lt_zero]

theorem readSigned?_showInt32 (value : Int32) :
    readSigned? (showInt32 value).toList = some value.toInt := by
  rw [toList_showInt32]
  split
  · next negative =>
    simp only [readSigned?, readDigits?_toDigits, Option.pure_def, bind_eq_bind,
      bind_some, map_some, some.injEq]
    omega
  · next positive =>
    -- a numeral without sign starts with a digit
    have starts {c : Char} {rest : List Char}
        (start : Nat.toDigits 10 value.toInt.natAbs = c :: rest) : c.isDigit = true :=
      Nat.isDigit_of_mem_toDigits (by decide) le_rfl (start ▸ mem_cons_self)
    unfold readSigned?
    split
    · next start => exact absurd (starts start) (by decide)
    · next start => exact absurd (starts start) (by decide)
    · simp only [readDigits?_toDigits, Option.pure_def, bind_eq_bind, bind_some, map_some, some.injEq]
      omega

theorem readInt32?_showInt32 (value : Int32) :
    readInt32? (showInt32 value).toList = some value := by
  have least := value.minValue_le_toInt
  have greatest := value.toInt_le
  unfold readInt32?
  rw [readSigned?_showInt32, bind_some, if_pos (by simpa using ⟨least, greatest⟩),
    Int32.ofInt_toInt]

theorem showInt32_ne_nil (value : Int32) : (showInt32 value).toList ≠ [] := by
  rw [toList_showInt32]
  split
  · exact cons_ne_nil _ _
  · exact Nat.toDigits_ne_nil

theorem mem_showInt32 {value : Int32} {c : Char} (member : c ∈ (showInt32 value).toList) :
    c.isDigit = true ∨ c = '-' := by
  have digit : c ∈ Nat.toDigits 10 value.toInt.natAbs → c.isDigit = true :=
    Nat.isDigit_of_mem_toDigits (by decide) le_rfl
  rw [toList_showInt32] at member
  split at member
  · exact (mem_cons.1 member).symm.imp_left digit
  · exact .inl (digit member)

theorem not_mem_showInt32 {value : Int32} {c : Char} (noDigit : c.isDigit = false) (noSign : c ≠ '-') :
    c ∉ (showInt32 value).toList := by
  intro member
  obtain digit | sign := mem_showInt32 member
  · rw [noDigit] at digit
    cases digit
  · exact noSign sign

end Number

namespace Range

open Number

theorem cutAtDots?_append {before : List Char} (noDots : '.' ∉ before) (after : List Char) :
    cutAtDots? (before ++ '.' :: '.' :: after) = some (before, after) := by
  induction before with
  | nil => rfl
  | cons c before ih =>
    obtain ⟨isOther, noDotsLater⟩ := not_or.1 (mt mem_cons.2 noDots)
    rw [cons_append, cutAtDots?, ih noDotsLater]
    · rfl
    · rintro rest rfl
      exact fun _ => isOther rfl

theorem cutAtDots?_eq_none {text : List Char} (noDots : '.' ∉ text) : cutAtDots? text = none := by
  induction text with
  | nil => rfl
  | cons c text ih =>
    obtain ⟨isOther, noDotsLater⟩ := not_or.1 (mt mem_cons.2 noDots)
    rw [cutAtDots?, ih noDotsLater]
    · rfl
    · rintro rest rfl
      exact fun _ => isOther rfl

def boundsText (range : Range) : String :=
  ({ range with inverted := false } : Range).render

def boundText (bound : Option Int32) : List Char :=
  bound.elim [] fun value => (showInt32 value).toList

/-- Equal bounds are written once; any other are written around two dots. -/
theorem toList_boundsText (range : Range) : range.boundsText.toList =
    if range.isSingle then boundText range.min
    else boundText range.min ++ '.' :: '.' :: boundText range.max := by
  obtain ⟨min, max, inverted⟩ := range
  cases min with
  | none => cases max <;> simp [boundsText, render, isSingle, boundText]
  | some min =>
    cases max with
    | none => simp [boundsText, render, isSingle, boundText]
    | some max =>
      by_cases single : min = max <;> simp [boundsText, render, isSingle, boundText, single]

theorem not_mem_boundText {c : Char} (noDigit : c.isDigit = false) (noSign : c ≠ '-')
    (bound : Option Int32) : c ∉ boundText bound := by
  cases bound with
  | none => exact not_mem_nil
  | some value => exact not_mem_showInt32 noDigit noSign

theorem readBound?_boundText (bound : Option Int32) : readBound? (boundText bound) = some bound := by
  cases bound with
  | none => rfl
  | some value =>
    rw [boundText, Option.elim, readBound?, if_neg (by simpa using showInt32_ne_nil value),
      readInt32?_showInt32]
    rfl

theorem readBounds?_boundsText {range : Range} (bounded : range.min.isSome ∨ range.max.isSome) :
    readBounds? range.boundsText.toList = some { range with inverted := false } := by
  have noDots := not_mem_boundText (c := '.') (by decide) (by decide) range.min
  rw [toList_boundsText]
  split
  · next single =>
    obtain ⟨⟨value, isMin⟩, isMax⟩ : (∃ value, range.min = some value) ∧ range.min = range.max := by
      simpa [isSingle, Option.isSome_iff_exists] using single
    rw [readBounds?, cutAtDots?_eq_none noDots, ← isMax, isMin]
    simp only [boundText, Option.elim, readInt32?_showInt32]
    rfl
  · rw [readBounds?, cutAtDots?_append noDots]
    cases isMin : range.min <;> cases isMax : range.max <;> simp_all [readBound?_boundText]

theorem toList_render (range : Range) : range.render.toList =
    if range.inverted then '!' :: range.boundsText.toList else range.boundsText.toList := by
  obtain ⟨min, max, inverted⟩ := range
  cases inverted <;> simp [render, boundsText]

def isRangeChar (c : Char) : Bool :=
  c.isDigit || c == '-' || c == '.' || c == '!'

theorem boundsText_starts (range : Range) : ∃ c rest, range.boundsText.toList = c :: rest ∧ c ≠ '!' := by
  have noMark := not_mem_boundText (c := '!') (by decide) (by decide)
  have inside : '!' ∉ range.boundsText.toList := by
    rw [toList_boundsText]
    split <;> simp [noMark]
  have nonempty : range.boundsText.toList ≠ [] := by
    rw [toList_boundsText]
    split
    · next single =>
      cases isMin : range.min with
      | none => simp [isSingle, isMin] at single
      | some value => exact showInt32_ne_nil value
    · simp
  obtain ⟨c, rest, text⟩ := exists_cons_of_ne_nil nonempty
  refine ⟨c, rest, text, ?_⟩
  rintro rfl
  exact inside (text ▸ mem_cons_self)

theorem mem_render {range : Range} {c : Char} (member : c ∈ range.render.toList) :
    isRangeChar c = true := by
  have numeral {bound : Option Int32} (inside : c ∈ boundText bound) : isRangeChar c = true := by
    by_contra isOther
    simp only [isRangeChar, Bool.or_eq_true, beq_iff_eq, not_or, Bool.not_eq_true] at isOther
    exact not_mem_boundText isOther.1.1.1 isOther.1.1.2 bound inside
  have inBounds (inside : c ∈ range.boundsText.toList) : isRangeChar c = true := by
    rw [toList_boundsText] at inside
    split at inside
    · exact numeral inside
    · obtain inside | rfl | inside : c ∈ boundText range.min ∨ c = '.' ∨ c ∈ boundText range.max := by
        simpa using inside
      · exact numeral inside
      · rfl
      · exact numeral inside
  rw [toList_render] at member
  split at member
  · obtain rfl | inside := mem_cons.1 member
    · rfl
    · exact inBounds inside
  · exact inBounds member

theorem readChars?_render {range : Range} (bounded : range.min.isSome ∨ range.max.isSome) :
    readChars? range.render.toList = some range := by
  obtain ⟨c, rest, starts, isOther⟩ := range.boundsText_starts
  have read := readBounds?_boundsText bounded
  rw [toList_render]
  cases inverted : range.inverted with
  | true =>
    rw [if_pos rfl, readChars?, read]
    obtain ⟨min, max, _⟩ := range
    subst inverted
    rfl
  | false =>
    rw [if_neg Bool.false_ne_true, starts, readChars?, ← starts, read]
    · obtain ⟨min, max, _⟩ := range
      subst inverted
      rfl
    · exact fun _ marked => isOther (cons.inj marked).1

theorem bounded_of_readBounds? {text : List Char} {range : Range}
    (isRange : readBounds? text = some range) : range.min.isSome ∨ range.max.isSome := by
  unfold readBounds? at isRange
  split at isRange
  · obtain ⟨min, -, isRange⟩ := bind_eq_some_iff.1 isRange
    obtain ⟨max, -, isRange⟩ := bind_eq_some_iff.1 isRange
    split at isRange
    · cases isRange
    · next bounded =>
      cases isRange
      cases min <;> cases max <;> simp_all
  · obtain ⟨value, -, rfl⟩ := map_eq_some_iff.1 isRange
    exact .inl rfl

theorem bounded_of_readChars? {text : List Char} {range : Range}
    (isRange : readChars? text = some range) : range.min.isSome ∨ range.max.isSome := by
  unfold readChars? at isRange
  split at isRange
  · obtain ⟨bounds, isBounds, rfl⟩ := map_eq_some_iff.1 isRange
    have bounded := bounded_of_readBounds? isBounds
    exact bounded
  · exact bounded_of_readBounds? isRange

/-- A range reads back from its text exactly if it has a bound, and so does every range that is read. -/
theorem range_text_reads_back (range : Range) (text : String) :
    (read? range.render = some range ↔ range.min.isSome ∨ range.max.isSome) ∧
      ∀ found, read? text = some found →
        (found.min.isSome ∨ found.max.isSome) ∧ read? found.render = some found := by
  refine ⟨⟨bounded_of_readChars?, readChars?_render⟩, fun found isFound => ?_⟩
  have bounded := bounded_of_readChars? isFound
  exact ⟨bounded, readChars?_render bounded⟩

end Range

end ScriptPack
