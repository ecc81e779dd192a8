import Mathlib.Data.List.DropRight
import Mathlib.Data.List.TakeWhile
import ScriptPack.Proofs.RangeText
import ScriptPack.Selector.Printer
import ScriptPack.Selector.Reader

/-!
Selectors as text. The clauses of a selector are written with commas between them, and the commas
inside of a clause stand in brackets or quotes, so that the text falls into the same clauses again.
Main result: a selector whose words can be told from the marks around them is read back from its
text.
-/

namespace ScriptPack

open ItemClause Text

open String (ofList ofList_toList toList)
open List

variable {c mark : Char} {texts : List String} {key : String}

namespace Text

theorem toList_joinWith_comma (first : String) (rest : List String) :
    (joinWith "," (first :: rest)).toList =
      first.toList ++ (rest.map fun next => ',' :: next.toList).flatten := by
  change (rest.foldl (fun text next => text ++ "," ++ next) first).toList = _
  induction rest generalizing first with
  | nil => simp
  | cons next rest ih =>
    rw [foldl_cons, ih]
    simp

theorem cutAt?_append {before : List Char} (absent : mark ∉ before) (after : List Char) :
    cutAt? mark (before ++ mark :: after) = some (before, after) := by
  induction before with
  | nil => simp [cutAt?]
  | cons c before ih =>
    obtain ⟨isOther, absentLater⟩ := not_or.1 (mt mem_cons.2 absent)
    simp [cutAt?, Ne.symm isOther, ih absentLater]

theorem isBlank_eq_false (above : 32 < c.toNat) (below : c.toNat < 127) : isBlank c = false := by
  have control : ¬ c.toNat < 9 ∧ ¬ c.toNat ≤ 13 := by omega
  have space : ¬ c.toNat < 32 ∧ ¬ c.toNat ≤ 32 := by omega
  have ascii : c.toNat < 133 := by omega
  simp [isBlank, blankIntervals, inIntervals, control, space, ascii]

theorem toNat_of_isAlphanum (isName : c.isAlphanum = true) : 48 ≤ c.toNat ∧ c.toNat ≤ 122 := by
  have letters : (decide (c.val ≥ 65 ∧ c.val ≤ 90) || (c.val ≥ 97 && c.val ≤ 122) ||
      (c.val ≥ 48 && c.val ≤ 57)) = true := isName
  simp only [Bool.or_eq_true, Bool.and_eq_true, decide_eq_true_eq, UInt32.le_iff_toNat_le, ge_iff_le,
    UInt32.toNat_ofNat, Char.toNat_val] at letters
  omega

theorem isBlank_of_isAlphanum (isName : c.isAlphanum = true) : isBlank c = false := by
  have := toNat_of_isAlphanum isName
  exact isBlank_eq_false (by omega) (by omega)

/-- Neither the first character of the text nor the last one is blank. -/
structure IsTrimmed (text : List Char) : Prop where
  start : ∀ c ∈ text.head?, isBlank c = false
  last : ∀ c ∈ text.getLast?, isBlank c = false

theorem trimChars_eq_self_iff {text : List Char} : trimChars text = text ↔ IsTrimmed text := by
  have starts : text.dropWhile isBlank = text ↔ ∀ c ∈ text.head?, isBlank c = false := by
    rw [dropWhile_eq_self_iff]
    cases text <;> simp
  have ends : text.rdropWhile isBlank = text ↔ ∀ c ∈ text.getLast?, isBlank c = false := by
    rw [rdropWhile_eq_self_iff]
    cases text <;> simp [getLast?_eq_some_getLast]
  have trims : trimChars text = (text.dropWhile isBlank).rdropWhile isBlank := rfl
  rw [trims]
  constructor
  · intro trimmed
    -- the text is not longer than what is left when its blanks are gone, so that there are none
    have shorter := (List.rdropWhile_prefix isBlank (text.dropWhile isBlank)).length_le
    rw [trimmed] at shorter
    have whole := (dropWhile_suffix isBlank).eq_of_length_le shorter
    rw [whole] at trimmed
    exact ⟨starts.1 whole, ends.1 trimmed⟩
  · intro ⟨start, last⟩
    rw [starts.2 start, ends.2 last]

instance : DecidablePred IsTrimmed :=
  fun text => decidable_of_iff (trimChars text = text) trimChars_eq_self_iff

theorem IsTrimmed.nil : IsTrimmed [] :=
  ⟨nofun, nofun⟩

theorem isTrimmed_of_forall {text : List Char} (noBlank : ∀ c ∈ text, isBlank c = false) :
    IsTrimmed text :=
  ⟨fun c isFirst => noBlank c (mem_of_mem_head? isFirst),
    fun c isLast => noBlank c (mem_of_mem_getLast? isLast)⟩

theorem IsTrimmed.joined {before after : List Char} (first : IsTrimmed before)
    (noBlank : isBlank mark = false) (second : IsTrimmed after) :
    IsTrimmed (before ++ mark :: after) := by
  constructor
  · cases before with
    | nil => simpa using noBlank
    | cons c rest => simpa using first.start c
  · rw [getLast?_append_cons]
    cases after with
    | nil => simpa using noBlank
    | cons c rest => simpa [getLast?_cons_cons] using second.last

theorem isTrimmed_between {first last : Char} (text : List Char) (opening : isBlank first = false)
    (closing : isBlank last = false) : IsTrimmed (first :: text ++ [last]) := by
  constructor
  · simpa using opening
  · rw [getLast?_append]
    simpa using closing

end Text

/-- The brackets and quotes that are open at a place of a text. -/
structure Nesting where
  depth : Int := 0
  quoted : Bool := false
deriving DecidableEq

namespace Nesting

def after (nesting : Nesting) (c : Char) : Nesting :=
  if c = '"' then { nesting with quoted := !nesting.quoted }
  else if nesting.quoted then nesting
  else if c = '\x7b' ∨ c = '[' then { nesting with depth := nesting.depth + 1 }
  else if c = '\x7d' ∨ c = ']' then { nesting with depth := nesting.depth - 1 }
  else nesting

def through (nesting : Nesting) (text : List Char) : Nesting :=
  text.foldl after nesting

/-- Whether a comma of the text stands outside of brackets and quotes. -/
def hasOuterComma (nesting : Nesting) : List Char → Bool
  | [] => false
  | c :: rest => (c == ',' && nesting == {}) || (nesting.after c).hasOuterComma rest

/-- Whatever the text opens it closes, and all its commas are enclosed. -/
@[mk_iff]
structure Encloses (nesting : Nesting) (text : List Char) : Prop where
  closed : nesting.through text = nesting
  commas : nesting.hasOuterComma text = false

instance (nesting : Nesting) : DecidablePred nesting.Encloses :=
  fun text => decidable_of_iff _ (encloses_iff nesting text).symm

variable {nesting : Nesting} {text other : List Char}

theorem through_cons (nesting : Nesting) (c : Char) (text : List Char) :
    nesting.through (c :: text) = (nesting.after c).through text := rfl

theorem through_append (nesting : Nesting) (text other : List Char) :
    nesting.through (text ++ other) = (nesting.through text).through other :=
  foldl_append

theorem hasOuterComma_append (nesting : Nesting) (text other : List Char) :
    nesting.hasOuterComma (text ++ other) =
      (nesting.hasOuterComma text || (nesting.through text).hasOuterComma other) := by
  induction text generalizing nesting with
  | nil => rfl
  | cons c text ih => simp only [cons_append, hasOuterComma, through_cons, ih, Bool.or_assoc]

theorem topLevelPieces_append (commas : nesting.hasOuterComma text = false) (piece rest : List Char) :
    topLevelPieces nesting.depth nesting.quoted piece (text ++ rest) =
      topLevelPieces (nesting.through text).depth (nesting.through text).quoted
        (text.reverse ++ piece) rest := by
  induction text generalizing nesting piece with
  | nil => rfl
  | cons c text ih =>
    obtain ⟨here, later⟩ := Bool.or_eq_false_iff.1 commas
    have step : topLevelPieces nesting.depth nesting.quoted piece (c :: (text ++ rest)) =
        topLevelPieces (nesting.after c).depth (nesting.after c).quoted (c :: piece)
          (text ++ rest) := by
      obtain ⟨depth, quoted⟩ := nesting
      unfold after
      rw [topLevelPieces]
      by_cases quote : c = '"'
      · simp [quote]
      · cases quoted with
        | true => simp [quote]
        | false =>
          by_cases opens : c = '\x7b' ∨ c = '['
          · simp [quote, opens]
          · by_cases closes : c = '\x7d' ∨ c = ']'
            · simp [quote, opens, closes]
            · by_cases comma : c = ','
              · have deep : depth ≠ 0 := by simpa [comma] using here
                simp [comma, deep]
              · simp [quote, opens, closes, comma]
    rw [cons_append, step, ih later]
    simp [through_cons]

theorem Encloses.nil (nesting : Nesting) : nesting.Encloses [] :=
  ⟨rfl, rfl⟩

theorem Encloses.append (first : nesting.Encloses text) (second : nesting.Encloses other) :
    nesting.Encloses (text ++ other) := by
  constructor
  · rw [through_append, first.closed, second.closed]
  · rw [hasOuterComma_append, first.commas, first.closed, second.commas]
    rfl

theorem Encloses.comma (isOpen : nesting ≠ {}) : nesting.Encloses [','] := by
  refine ⟨?_, by simpa [hasOuterComma] using isOpen⟩
  obtain ⟨depth, quoted⟩ := nesting
  cases quoted <;> simp [through, after]

def isMark (c : Char) : Bool :=
  c == '"' || c == '\x7b' || c == '\x7d' || c == '[' || c == ']' || c == ','

theorem encloses_of_forall (single : ∀ c ∈ text, nesting.Encloses [c]) : nesting.Encloses text := by
  induction text with
  | nil => exact .nil nesting
  | cons c text ih =>
    obtain ⟨here, later⟩ := forall_mem_cons.1 single
    exact here.append (ih later)

theorem encloses_of_noMark (noMark : ∀ c ∈ text, isMark c = false) : nesting.Encloses text := by
  refine encloses_of_forall fun c member => ?_
  have here := noMark c member
  simp only [isMark, Bool.or_eq_false_iff, beq_eq_false_iff_ne] at here
  constructor
  · simp [through, after, here]
  · simp [hasOuterComma, here]

/-- What the first character opens and the last one closes. -/
theorem Encloses.wrapped {inner : Nesting} {first last : Char} (inside : inner.Encloses text)
    (opened : nesting.after first = inner) (reclosed : inner.after last = nesting)
    (noComma : first ≠ ',' ∧ last ≠ ',') : nesting.Encloses (first :: text ++ [last]) := by
  constructor
  · rw [cons_append, through_cons, opened, through_append, inside.closed, through_cons, reclosed]
    rfl
  · rw [cons_append, hasOuterComma, opened, hasOuterComma_append, inside.commas]
    simp [hasOuterComma, noComma]

theorem encloses_quoted (isOutside : nesting.quoted = false) (noQuote : '"' ∉ text) :
    nesting.Encloses ('"' :: text ++ ['"']) := by
  obtain ⟨depth, quoted⟩ := nesting
  subst isOutside
  have inside : Nesting.Encloses ⟨depth, true⟩ text := encloses_of_forall fun c member => by
    have isOther : c ≠ '"' := fun same => noQuote (same ▸ member)
    constructor
    · simp [through, after, isOther]
    · simp [hasOuterComma]
  exact inside.wrapped rfl rfl (by decide)

theorem encloses_bracketed {opening closing : Char} (isOutside : nesting.quoted = false)
    (brackets : (opening, closing) = ('\x7b', '\x7d') ∨ (opening, closing) = ('[', ']'))
    (inside : ({ nesting with depth := nesting.depth + 1 } : Nesting).Encloses text) :
    nesting.Encloses (opening :: text ++ [closing]) := by
  obtain ⟨depth, quoted⟩ := nesting
  subst isOutside
  obtain ⟨⟨⟩⟩ | ⟨⟨⟩⟩ := brackets <;>
    exact inside.wrapped (by simp [after]) (by simp [after]) (by decide)

/-- Where something is open, texts with commas between them are enclosed. -/
theorem encloses_joinWith (isOpen : nesting ≠ {})
    (enclosed : ∀ text ∈ texts, nesting.Encloses text.toList) :
    nesting.Encloses (Text.joinWith "," texts).toList := by
  cases texts with
  | nil => exact .nil nesting
  | cons first rest =>
    obtain ⟨here, later⟩ := forall_mem_cons.1 enclosed
    rw [Text.toList_joinWith_comma]
    apply here.append
    induction rest with
    | nil => exact .nil nesting
    | cons next rest ih =>
      obtain ⟨isNext, others⟩ := forall_mem_cons.1 later
      have single := (Encloses.comma isOpen).append isNext
      exact single.append (ih (forall_mem_cons.2 ⟨here, others⟩) others)

end Nesting

open Nesting

/-- A clause, or a part of one, that stands between commas. -/
@[mk_iff]
structure IsPiece (text : List Char) : Prop where
  enclosed : Nesting.Encloses {} text
  trimmed : Text.IsTrimmed text
  nonempty : text ≠ []

instance : DecidablePred IsPiece :=
  fun text => decidable_of_iff _ (isPiece_iff text).symm

/-- What stands after the key of a clause. -/
structure IsValue (text : List Char) : Prop where
  enclosed : Nesting.Encloses {} text
  trimmed : Text.IsTrimmed text

theorem splitTopLevel_joinWith (pieces : ∀ text ∈ texts, IsPiece text.toList) :
    splitTopLevel (Text.joinWith "," texts).toList = texts.map toList := by
  have cut (first : String) (rest : List String) (enclosed : ∀ text ∈ first :: rest,
      Nesting.Encloses {} text.toList) :
      topLevelPieces 0 false [] (Text.joinWith "," (first :: rest)).toList =
        (first :: rest).map toList := by
    rw [Text.toList_joinWith_comma]
    induction rest generalizing first with
    | nil =>
      obtain ⟨here, -⟩ := forall_mem_cons.1 enclosed
      have single := Nesting.topLevelPieces_append here.commas [] []
      rw [here.closed] at single
      simpa [topLevelPieces] using single
    | cons next rest ih =>
      obtain ⟨here, later⟩ := forall_mem_cons.1 enclosed
      have single := Nesting.topLevelPieces_append here.commas []
        (',' :: (next.toList ++ (rest.map fun next => ',' :: next.toList).flatten))
      rw [here.closed] at single
      have others := ih next later
      simp only [map_cons, flatten_cons, cons_append]
      refine single.trans ?_
      simpa [topLevelPieces] using others
  cases texts with
  | nil => rfl
  | cons first rest =>
    unfold splitTopLevel
    rw [cut first rest fun text member => (pieces text member).enclosed]
    have same : ((first :: rest).map toList).map Text.trimChars = (first :: rest).map toList := by
      rw [map_map]
      refine map_congr_left fun text member => ?_
      exact Text.trimChars_eq_self_iff.2 (pieces text member).trimmed
    rw [same, filter_eq_self]
    rintro text member
    obtain ⟨source, isSource, rfl⟩ := mem_map.1 member
    simpa using (pieces source isSource).nonempty

theorem Text.mem_joinWith_comma
    (member : c ∈ (joinWith "," texts).toList) : c = ',' ∨ ∃ text ∈ texts, c ∈ text.toList := by
  cases texts with
  | nil => simp [joinWith] at member
  | cons first rest =>
    rw [toList_joinWith_comma, mem_append, mem_flatten] at member
    obtain inFirst | ⟨_, inRest, inside⟩ := member
    · exact .inr ⟨first, mem_cons_self, inFirst⟩
    · obtain ⟨next, isNext, rfl⟩ := mem_map.1 inRest
      exact (mem_cons.1 inside).imp_right fun inNext =>
        ⟨next, mem_cons_of_mem first isNext, inNext⟩

/-- A trimmed text without the marks that divide a selector. -/
@[mk_iff]
structure IsBare (text : List Char) : Prop where
  trimmed : Text.IsTrimmed text
  noMark : ∀ c ∈ text, Nesting.isMark c = false

instance : DecidablePred IsBare :=
  fun text => decidable_of_iff (Text.IsTrimmed text ∧ text.all (!Nesting.isMark ·) = true)
    (by simp [isBare_iff])

def isBareChar (c : Char) : Bool :=
  c.isAlphanum || c == '_' || c == ':' || c == '.' || c == '-' || c == '!'

theorem isMark_of_isBareChar (bare : isBareChar c = true) : Nesting.isMark c = false := by
  simp only [Nesting.isMark, Bool.or_eq_false_iff, beq_eq_false_iff_ne]
  refine ⟨⟨⟨⟨⟨?_, ?_⟩, ?_⟩, ?_⟩, ?_⟩, ?_⟩ <;> rintro rfl <;> exact absurd bare (by decide)

theorem isBlank_of_isBareChar (bare : isBareChar c = true) : Text.isBlank c = false := by
  simp only [isBareChar, Bool.or_eq_true, beq_iff_eq] at bare
  obtain ((((isName | rfl) | rfl) | rfl) | rfl) | rfl := bare
  · exact Text.isBlank_of_isAlphanum isName
  all_goals rfl

theorem isBare_of_forall {text : List Char} (bare : ∀ c ∈ text, isBareChar c = true) : IsBare text :=
  ⟨Text.isTrimmed_of_forall fun c member => isBlank_of_isBareChar (bare c member),
    fun c member => isMark_of_isBareChar (bare c member)⟩

theorem isBareChar_of_isRangeChar (isRange : Range.isRangeChar c = true) : isBareChar c = true := by
  simp only [Range.isRangeChar, Bool.or_eq_true, beq_iff_eq] at isRange
  obtain ((digit | rfl) | rfl) | rfl := isRange
  · simp [isBareChar, Char.isAlphanum, digit]
  all_goals rfl

/-- A key that is written between marks. -/
structure IsKey (key : String) : Prop where
  plain : key.toList.all isBareChar = true := by decide
  noEquals : '=' ∉ key.toList := by decide

theorem IsKey.bare (isKey : IsKey key) : IsBare key.toList :=
  isBare_of_forall (all_eq_true.1 isKey.plain)

theorem IsBare.trimChars_eq {text : List Char} (bare : IsBare text) : Text.trimChars text = text :=
  Text.trimChars_eq_self_iff.2 bare.trimmed

theorem IsKey.ofList_trimChars (isKey : IsKey key) : ofList (Text.trimChars key.toList) = key := by
  rw [isKey.bare.trimChars_eq, ofList_toList]

theorem IsKey.cut (isKey : IsKey key) (value : String) :
    Text.cutAt? '=' (key ++ "=" ++ value).toList = some (key.toList, value.toList) := by
  simpa using Text.cutAt?_append isKey.noEquals value.toList

theorem isBare_showInt32 (value : Int32) : IsBare (Number.showInt32 value).toList := by
  refine isBare_of_forall fun c member => isBareChar_of_isRangeChar ?_
  obtain digit | rfl := Number.mem_showInt32 member
  · simp [Range.isRangeChar, digit]
  · rfl

theorem isBare_renderRange (range : Range) : IsBare range.render.toList :=
  isBare_of_forall fun _ member => isBareChar_of_isRangeChar (Range.mem_render member)

theorem IsBare.enclosed {text : List Char} (bare : IsBare text) (nesting : Nesting) :
    nesting.Encloses text :=
  Nesting.encloses_of_noMark bare.noMark

theorem IsBare.keyed {key value : List Char} (isKey : IsBare key) (isValue : IsBare value) :
    IsBare (key ++ '=' :: value) where
  trimmed := isKey.trimmed.joined rfl isValue.trimmed
  noMark := by
    intro c member
    obtain inKey | isEquals | inValue : c ∈ key ∨ c = '=' ∨ c ∈ value := by simpa using member
    · exact isKey.noMark c inKey
    · subst isEquals
      rfl
    · exact isValue.noMark c inValue

theorem IsBare.isValue {text : List Char} (bare : IsBare text) : IsValue text :=
  ⟨bare.enclosed {}, bare.trimmed⟩

theorem IsPiece.keyed {key value : List Char} (isKey : IsBare key) (isValue : IsValue value) :
    IsPiece (key ++ '=' :: value) where
  enclosed := by
    have mark : Nesting.Encloses {} ['='] := Nesting.encloses_of_noMark (by simp [Nesting.isMark])
    exact (isKey.enclosed {}).append (mark.append isValue.enclosed)
  trimmed := isKey.trimmed.joined rfl isValue.trimmed
  nonempty := by simp

theorem Text.dropStart_of_not_mem {text : List Char} (absent : mark ∉ text) :
    dropStart mark text = text := by
  cases text with
  | nil => rfl
  | cons c rest =>
    have isOther : c ≠ mark := fun same => absent (same ▸ mem_cons_self)
    simp [dropStart, isOther]

theorem Text.dropStart_cons (mark : Char) (text : List Char) :
    dropStart mark (mark :: text) = dropStart mark text := by
  simp [dropStart]

theorem Text.dropEnd_append (mark : Char) (text : List Char) :
    dropEnd mark (text ++ [mark]) = dropEnd mark text := by
  simp [dropEnd]

theorem Text.dropEnd_of_not_mem {text : List Char} (absent : mark ∉ text) :
    dropEnd mark text = text := by
  have same := dropStart_of_not_mem (mt mem_reverse.1 absent)
  exact (congrArg List.reverse same).trans (reverse_reverse text)

theorem withoutBraces_braced {text : List Char} (noOpening : '\x7b' ∉ text) (noClosing : '\x7d' ∉ text) :
    withoutBraces ('\x7b' :: text ++ ['\x7d']) = text := by
  have noOpeningClosed : '\x7b' ∉ text ++ ['\x7d'] := by simpa using noOpening
  rw [withoutBraces, cons_append, Text.dropStart_cons, Text.dropStart_of_not_mem noOpeningClosed,
    Text.dropEnd_append, Text.dropEnd_of_not_mem noClosing]

theorem not_mem_joinWith_bare {texts : List String} (bare : ∀ text ∈ texts, IsBare text.toList)
    {mark : Char} (isMark : Nesting.isMark mark = true) (isOther : mark ≠ ',') :
    mark ∉ (Text.joinWith "," texts).toList := by
  intro member
  obtain comma | ⟨text, isText, inside⟩ := Text.mem_joinWith_comma member
  · exact isOther comma
  · have noMark := (bare text isText).noMark mark inside
    rw [isMark] at noMark
    cases noMark

namespace WordClause

theorem isBareChar_of_isPlain (plain : isPlain c = true) : isBareChar c = true := by
  simp only [isPlain, Bool.or_eq_true] at plain
  simp only [isBareChar, Bool.or_eq_true]
  exact .inl (.inl plain)

def wordText (word : List Char) : List Char :=
  if word.all isPlain then word else '"' :: word ++ ['"']

section

variable {word : List Char}

theorem wordText_cases (word : List Char) :
    (wordText word = word ∧ ∀ c ∈ word, isBareChar c = true ∧ isPlain c = true) ∨
      wordText word = '"' :: word ++ ['"'] := by
  by_cases plain : word.all isPlain
  · refine .inl ⟨if_pos plain, fun c member => ?_⟩
    have isPlain := all_eq_true.1 plain c member
    exact ⟨isBareChar_of_isPlain isPlain, isPlain⟩
  · exact .inr (if_neg plain)

theorem isValue_wordText (noQuote : '"' ∉ word) : IsValue (wordText word) := by
  obtain ⟨same, plain⟩ | quoted := wordText_cases word
  · rw [same]
    exact (isBare_of_forall fun c member => (plain c member).1).isValue
  · rw [quoted]
    exact ⟨encloses_quoted rfl noQuote, isTrimmed_between word rfl rfl⟩

theorem wordText_ne_negated (word rest : List Char) : wordText word ≠ '!' :: rest := by
  intro negated
  obtain ⟨same, plain⟩ | quoted := wordText_cases word
  · have starts : '!' ∈ word := by
      rw [← same, negated]
      exact mem_cons_self
    exact absurd (plain '!' starts).2 (by decide)
  · rw [quoted] at negated
    cases negated

theorem dropQuotes_wordText (noQuote : '"' ∉ word) :
    Text.dropEnd '"' (dropStart '"' (wordText word)) = word := by
  obtain ⟨same, -⟩ | quoted := wordText_cases word
  · rw [same, Text.dropStart_of_not_mem noQuote, Text.dropEnd_of_not_mem noQuote]
  · rw [quoted, cons_append, Text.dropStart_cons]
    cases word with
    | nil => rfl
    | cons c rest =>
      have isOther : c ≠ '"' := fun same => noQuote (same ▸ mem_cons_self)
      have starts : dropStart '"' (c :: rest ++ ['"']) = c :: rest ++ ['"'] := by
        simp [dropStart, isOther]
      rw [starts, dropEnd_append, dropEnd_of_not_mem noQuote]

end

variable {clause : WordClause}

def valueText (clause : WordClause) : List Char :=
  if clause.negated then '!' :: wordText clause.word.toList else wordText clause.word.toList

theorem toList_render (clause : WordClause) (key : String) :
    (clause.render key).toList = key.toList ++ '=' :: clause.valueText := by
  unfold render valueText wordText
  by_cases plain : clause.word.toList.all isPlain
  · simp only [if_pos plain]
    cases clause.negated <;> simp
  · simp only [if_neg plain]
    cases clause.negated <;> simp

theorem isValue_valueText (noQuote : '"' ∉ clause.word.toList) : IsValue clause.valueText := by
  have bare := isValue_wordText noQuote
  unfold valueText
  split
  · have mark : Nesting.Encloses {} ['!'] := encloses_of_noMark (by simp [isMark])
    exact ⟨mark.append bare.enclosed, Text.IsTrimmed.nil.joined rfl bare.trimmed⟩
  · exact bare

theorem read_valueText (noQuote : '"' ∉ clause.word.toList) : read clause.valueText = clause := by
  have word := dropQuotes_wordText noQuote
  unfold read
  rw [Text.trimChars_eq_self_iff.2 (isValue_valueText noQuote).trimmed]
  unfold valueText
  cases negated : clause.negated with
  | true =>
    simp only [if_true, word]
    rw [ofList_toList, ← negated]
  | false =>
    have unmarked : ∀ rest, wordText clause.word.toList ≠ '!' :: rest := wordText_ne_negated _
    rw [if_neg (by decide)]
    split
    rename_i found matched
    split at matched
    · exact absurd ‹_› (unmarked _)
    · cases matched
      rw [word, ofList_toList, ← negated]

end WordClause

namespace ScoreClause

/-- A score clause whose text can be told from the marks around it. -/
@[mk_iff]
structure IsWritable (clause : ScoreClause) : Prop where
  objective : IsBare clause.objective.toList
  noEquals : '=' ∉ clause.objective.toList
  bounded : clause.range.min.isSome ∨ clause.range.max.isSome

instance : DecidablePred IsWritable :=
  fun clause => decidable_of_iff _ (isWritable_iff clause).symm

variable {clause : ScoreClause}

theorem toList_render (clause : ScoreClause) :
    clause.render.toList = clause.objective.toList ++ '=' :: clause.range.render.toList := by
  simp [render]

theorem isBare_render (writable : clause.IsWritable) : IsBare clause.render.toList := by
  rw [toList_render]
  exact writable.objective.keyed (isBare_renderRange clause.range)

theorem read?_render (writable : clause.IsWritable) : read? clause.render.toList = some clause := by
  have objective := Text.trimChars_eq_self_iff.2 writable.objective.trimmed
  have range := Text.trimChars_eq_self_iff.2 (isBare_renderRange clause.range).trimmed
  rw [toList_render, read?, Text.cutAt?_append writable.noEquals]
  simp only [Option.bind_eq_bind, Option.bind_some, objective, range,
    Range.readChars?_render writable.bounded, ofList_toList]
  rfl

end ScoreClause

namespace ItemClause

/-- An item clause whose text can be told from the marks around it. -/
@[mk_iff]
structure IsWritable (clause : ItemClause) : Prop where
  item : IsBare clause.item.toList
  location : ∀ location ∈ clause.location, IsBare location.toList
  bounded : ∀ quantity ∈ clause.quantity, quantity.min.isSome ∨ quantity.max.isSome

instance : DecidablePred IsWritable :=
  fun clause => decidable_of_iff _ (isWritable_iff clause).symm

variable {clause : ItemClause}

def fields (clause : ItemClause) : List String :=
  ("item=" ++ clause.item) :: field "data" (clause.data.map Number.showInt32) ++
    field "location" clause.location ++ field "slot" (clause.slot.map Number.showInt32) ++
    field "quantity" (clause.quantity.map Range.render)

theorem toList_render (clause : ItemClause) :
    clause.render.toList = '\x7b' :: (Text.joinWith "," clause.fields).toList ++ ['\x7d'] := by
  simp [render, fields]

theorem isBare_field {value : Option String} (isKey : IsKey key)
    (isValue : ∀ text ∈ value, IsBare text.toList) {text : String} (member : text ∈ field key value) :
    IsBare text.toList := by
  obtain ⟨source, isSource, rfl⟩ := mem_map.1 member
  have bare := isKey.bare.keyed (isValue source (Option.mem_toList.1 isSource))
  simpa using bare

/-- What a field that is read puts into the clause, by its key. -/
theorem readField_keyed (clause : ItemClause) {value : String} (bare : IsBare value.toList) :
    clause.readField ("item" ++ "=" ++ value).toList = { clause with item := value } ∧
    clause.readField ("data" ++ "=" ++ value).toList =
      { clause with data := Number.readInt32? value.toList } ∧
    clause.readField ("location" ++ "=" ++ value).toList = { clause with location := some value } ∧
    clause.readField ("slot" ++ "=" ++ value).toList =
      { clause with slot := Number.readInt32? value.toList } ∧
    clause.readField ("quantity" ++ "=" ++ value).toList =
      { clause with quantity := Range.readChars? value.toList } := by
  have item : IsKey "item" := {}
  have data : IsKey "data" := {}
  have location : IsKey "location" := {}
  have slot : IsKey "slot" := {}
  have quantity : IsKey "quantity" := {}
  simp only [readField, item.cut, data.cut, location.cut, slot.cut, quantity.cut,
    item.ofList_trimChars, data.ofList_trimChars, location.ofList_trimChars, slot.ofList_trimChars,
    quantity.ofList_trimChars, bare.trimChars_eq, ofList_toList, and_self]

/-- An optional field is read as the update that its value makes. -/
theorem foldl_field {State Value : Type} {step : State → List Char → State} {state : State}
    {key : String} {text : Value → String} {value : Option Value} (update : Option Value → State)
    (absent : state = update none)
    (present : ∀ one ∈ value, step state (key ++ "=" ++ text one).toList = update (some one)) :
    ((field key (value.map text)).map toList).foldl step state = update value := by
  cases value with
  | none => exact absent
  | some one => exact present one rfl

section

variable (writable : clause.IsWritable)

include writable

theorem isBare_fields : ∀ text ∈ clause.fields, IsBare text.toList := by
  have number (value : Option Int32) : ∀ text ∈ value.map Number.showInt32, IsBare text.toList := by
    simpa using fun value _ => isBare_showInt32 value
  intro text member
  simp only [fields, mem_append, mem_cons] at member
  obtain (((rfl | inData) | inLocation) | inSlot) | inQuantity := member
  · have bare := (IsKey.mk : IsKey "item").bare.keyed writable.item
    simpa using bare
  · exact isBare_field {} (number clause.data) inData
  · exact isBare_field {} writable.location inLocation
  · exact isBare_field {} (number clause.slot) inSlot
  · refine isBare_field {} ?_ inQuantity
    simpa using fun range _ => isBare_renderRange range

theorem isPiece_fields : ∀ text ∈ clause.fields, IsPiece text.toList := by
  intro text member
  have bare := isBare_fields writable text member
  refine ⟨bare.enclosed {}, bare.trimmed, ?_⟩
  simp only [fields, field, mem_append, mem_cons, mem_map] at member
  obtain (((rfl | ⟨_, -, rfl⟩) | ⟨_, -, rfl⟩) | ⟨_, -, rfl⟩) | ⟨_, -, rfl⟩ := member <;> simp

theorem foldl_readField_fields :
    (clause.fields.map toList).foldl readField { item := "" } = clause := by
  obtain ⟨item, data, location, slot, quantity⟩ := clause
  have number (value : Int32) := isBare_showInt32 value
  have bare : IsBare item.toList := writable.item
  simp only [fields, map_append, map_cons, cons_append, foldl_append, foldl_cons]
  rw [show "item=" ++ item = "item" ++ "=" ++ item from rfl, (readField_keyed _ bare).1,
    foldl_field (fun data => ({ item, data } : ItemClause)) rfl, show field "location" location = field "location" (location.map id) by simp,
    foldl_field (fun location => ({ item, data, location } : ItemClause)) rfl,
    foldl_field (fun slot => ({ item, data, location, slot } : ItemClause)) rfl,
    foldl_field (fun quantity => ({ item, data, location, slot, quantity } : ItemClause)) rfl]
  · intro range isRange
    rw [(readField_keyed _ (isBare_renderRange range)).2.2.2.2,
      Range.readChars?_render (writable.bounded range isRange)]
  · intro value _
    rw [(readField_keyed _ (number value)).2.2.2.1, Number.readInt32?_showInt32]
  · exact fun place isPlace => (readField_keyed _ (writable.location place isPlace)).2.2.1
  · intro value _
    rw [(readField_keyed _ (number value)).2.1, Number.readInt32?_showInt32]

theorem read_render : read clause.render.toList = clause := by
  have noBrace := @not_mem_joinWith_bare _ (isBare_fields writable)
  rw [read, toList_render, withoutBraces_braced (noBrace rfl (by decide)) (noBrace rfl (by decide)),
    splitTopLevel_joinWith (isPiece_fields writable), foldl_readField_fields writable]

end

theorem encloses_render {nesting : Nesting} (isOutside : nesting.quoted = false)
    (deep : 0 ≤ nesting.depth) (writable : clause.IsWritable) :
    nesting.Encloses clause.render.toList := by
  have isOpen : ({ nesting with depth := nesting.depth + 1 } : Nesting) ≠ {} := by
    intro same
    have shallow : nesting.depth + 1 = 0 := congrArg Nesting.depth same
    omega
  rw [toList_render]
  refine Nesting.encloses_bracketed isOutside (.inl rfl) (Nesting.encloses_joinWith isOpen ?_)
  exact fun text member => (isBare_fields writable text member).enclosed _

theorem isPiece_render (writable : clause.IsWritable) : IsPiece clause.render.toList where
  enclosed := encloses_render rfl (Int.le_refl 0) writable
  trimmed := by
    rw [toList_render]
    exact Text.isTrimmed_between _ rfl rfl
  nonempty := by simp [toList_render]

def listText : List ItemClause → List Char
  | [item] => item.render.toList
  | items => '[' :: (Text.joinWith "," (items.map render)).toList ++ [']']

variable {items : List ItemClause}

/-- A single clause stands by itself, and several stand in brackets. -/
theorem listText_cases (items : List ItemClause) :
    (∃ item, items = [item] ∧ listText items = item.render.toList) ∨
      listText items = '[' :: (Text.joinWith "," (items.map render)).toList ++ [']'] := by
  match items with
  | [] => exact .inr rfl
  | [item] => exact .inl ⟨item, rfl, rfl⟩
  | _ :: _ :: _ => exact .inr rfl

theorem isValue_listText (writable : ∀ item ∈ items, item.IsWritable) : IsValue (listText items) := by
  obtain ⟨item, rfl, single⟩ | several := listText_cases items
  · have piece := isPiece_render (writable item mem_cons_self)
    rw [single]
    exact ⟨piece.enclosed, piece.trimmed⟩
  · rw [several]
    refine ⟨Nesting.encloses_bracketed rfl (.inr rfl) (Nesting.encloses_joinWith (by decide) ?_),
      Text.isTrimmed_between _ rfl rfl⟩
    intro text member
    obtain ⟨item, isItem, rfl⟩ := mem_map.1 member
    exact encloses_render rfl (by decide) (writable item isItem)

theorem readList_listText (writable : ∀ item ∈ items, item.IsWritable) :
    readList (listText items) = items := by
  obtain ⟨item, rfl, single⟩ | several := listText_cases items
  · have read := read_render (writable item mem_cons_self)
    rw [single]
    rw [toList_render] at read ⊢
    exact congrArg (fun item => [item]) read
  · have pieces : ∀ text ∈ items.map render, IsPiece text.toList := by
      intro text member
      obtain ⟨item, isItem, rfl⟩ := mem_map.1 member
      exact isPiece_render (writable item isItem)
    have noBracket : ']' ∉ (Text.joinWith "," (items.map render)).toList := by
      intro member
      obtain comma | ⟨text, isText, inside⟩ := mem_joinWith_comma member
      · cases comma
      · obtain ⟨item, isItem, rfl⟩ := mem_map.1 isText
        have absent := @not_mem_joinWith_bare _ (isBare_fields (writable item isItem)) ']' rfl (by decide)
        rw [toList_render] at inside
        exact absent (by simpa using inside)
    rw [several]
    change (splitTopLevel (dropEnd ']' (_ ++ [']']))).map read = items
    rw [dropEnd_append, dropEnd_of_not_mem noBracket, splitTopLevel_joinWith pieces,
      map_map, map_map]
    refine (map_congr_left fun item isItem => ?_).trans (map_id items)
    rw [Function.comp_apply, Function.comp_apply, read_render (writable item isItem), id_eq]

end ItemClause

namespace Selector

/-- The clauses of one kind that hold words. -/
inductive WordKey where
  | type
  | name
  | family
  | tag

def WordKey.text : WordKey → String
  | type => "type"
  | name => "name"
  | family => "family"
  | tag => "tag"

def WordKey.add (key : WordKey) (selector : Selector) (clauses : List WordClause) : Selector :=
  match key with
  | type => { selector with types := selector.types ++ clauses }
  | name => { selector with names := selector.names ++ clauses }
  | family => { selector with families := selector.families ++ clauses }
  | tag => { selector with tags := selector.tags ++ clauses }

theorem WordKey.isKey_text (key : WordKey) : IsKey key.text := by
  cases key <;> exact {}

variable {clause : WordClause}

theorem readClause_word (selector : Selector) (key : WordKey) (noQuote : '"' ∉ clause.word.toList) :
    selector.readClause (clause.render key.text).toList = key.add selector [clause] := by
  have word : WordClause.read (trimChars clause.valueText) = clause := by
    rw [trimChars_eq_self_iff.2 (WordClause.isValue_valueText noQuote).trimmed,
      WordClause.read_valueText noQuote]
  have isKey := key.isKey_text.ofList_trimChars
  rw [readClause, clause.toList_render, cutAt?_append key.isKey_text.noEquals]
  cases key <;> simp only [WordKey.text] at isKey ⊢ <;> simp only [isKey, word] <;> rfl

theorem foldl_readClause_words (selector : Selector) (key : WordKey) {clauses : List WordClause}
    (noQuote : ∀ clause ∈ clauses, '"' ∉ clause.word.toList) :
    ((clauses.map (·.render key.text)).map toList).foldl readClause selector =
      key.add selector clauses := by
  induction clauses generalizing selector with
  | nil => cases key <;> simp [WordKey.add]
  | cons clause clauses ih =>
    obtain ⟨here, later⟩ := forall_mem_cons.1 noQuote
    rw [map_cons, map_cons, foldl_cons, readClause_word selector key here, ih _ later]
    cases key <;> simp [WordKey.add]

theorem isPiece_word (key : WordKey) (noQuote : '"' ∉ clause.word.toList) :
    IsPiece (clause.render key.text).toList := by
  rw [clause.toList_render]
  exact .keyed key.isKey_text.bare (WordClause.isValue_valueText noQuote)

/-- What a clause that is read puts into the selector, by its key. -/
theorem readClause_keyed (selector : Selector) {value : List Char} (trimmed : Text.IsTrimmed value) :
    selector.readClause ("scores".toList ++ '=' :: value) = { selector with
      scores := selector.scores ++ (splitTopLevel (withoutBraces value)).filterMap ScoreClause.read? } ∧
    selector.readClause ("hasitem".toList ++ '=' :: value) =
      { selector with items := selector.items ++ readList value } ∧
    selector.readClause ("c".toList ++ '=' :: value) =
      { selector with count := Number.readInt32? value } := by
  have scores : IsKey "scores" := {}
  have items : IsKey "hasitem" := {}
  have count : IsKey "c" := {}
  simp only [readClause, cutAt?_append scores.noEquals, cutAt?_append items.noEquals,
    cutAt?_append count.noEquals, scores.ofList_trimChars, items.ofList_trimChars,
    count.ofList_trimChars, trimChars_eq_self_iff.2 trimmed, and_self]

def scoresText (scores : List ScoreClause) : List Char :=
  '\x7b' :: (joinWith "," (scores.map ScoreClause.render)).toList ++ ['\x7d']

section

variable {scores : List ScoreClause}

section

variable (writable : ∀ score ∈ scores, score.IsWritable)

include writable

theorem isBare_scores : ∀ text ∈ scores.map ScoreClause.render, IsBare text.toList := by
  intro text member
  obtain ⟨score, isScore, rfl⟩ := mem_map.1 member
  exact ScoreClause.isBare_render (writable score isScore)

theorem isValue_scoresText : IsValue (scoresText scores) := by
  refine ⟨encloses_bracketed rfl (.inl rfl) (encloses_joinWith (by decide) ?_),
    isTrimmed_between _ rfl rfl⟩
  exact fun text member => (isBare_scores writable text member).enclosed _

theorem read_scoresText :
    (splitTopLevel (withoutBraces (scoresText scores))).filterMap ScoreClause.read? = scores := by
  have bare := isBare_scores writable
  have pieces : ∀ text ∈ scores.map ScoreClause.render, IsPiece text.toList := by
    intro text member
    refine ⟨(bare text member).enclosed {}, (bare text member).trimmed, ?_⟩
    obtain ⟨score, -, rfl⟩ := mem_map.1 member
    simp [ScoreClause.toList_render]
  have noBrace := @not_mem_joinWith_bare _ bare
  rw [scoresText, withoutBraces_braced (noBrace rfl (by decide)) (noBrace rfl (by decide)),
    splitTopLevel_joinWith pieces, filterMap_map, filterMap_map]
  refine (filterMap_congr fun score isScore => ?_).trans filterMap_some
  rw [Function.comp_apply, Function.comp_apply, ScoreClause.read?_render (writable score isScore)]

end

/-- What holds of the only part, if there is one. -/
theorem forall_mem_part {holds : List Char → Prop} {parts : List String} {empty : Prop} {piece : List Char}
    (known : (empty ∧ parts = []) ∨ parts.map toList = [piece]) (isPiece : holds piece) :
    ∀ text ∈ parts, holds text.toList := by
  intro text member
  obtain ⟨-, rfl⟩ | isPart := known
  · cases member
  · have isText : text.toList ∈ parts.map toList := mem_map_of_mem member
    rw [isPart] at isText
    rwa [mem_singleton.1 isText]

theorem toList_scorePart (scores : List ScoreClause) :
    (scores = [] ∧ scorePart scores = []) ∨
      (scorePart scores).map toList = ["scores".toList ++ '=' :: scoresText scores] := by
  cases scores with
  | nil => exact .inl ⟨rfl, rfl⟩
  | cons score rest => exact .inr (by simp [scorePart, scoresText])

theorem foldl_readClause_scores (selector : Selector)
    (writable : ∀ score ∈ scores, score.IsWritable) :
    ((scorePart scores).map toList).foldl readClause selector =
      { selector with scores := selector.scores ++ scores } := by
  obtain ⟨rfl, -⟩ | part := toList_scorePart scores
  · simp [scorePart]
  · rw [part, foldl_cons, foldl_nil,
      (readClause_keyed selector (isValue_scoresText writable).trimmed).1, read_scoresText writable]

end

section

variable {items : List ItemClause}

theorem toList_itemPart (items : List ItemClause) :
    (items = [] ∧ itemPart items = []) ∨
      (itemPart items).map toList = ["hasitem".toList ++ '=' :: listText items] := by
  match items with
  | [] => exact .inl ⟨rfl, rfl⟩
  | [item] | first :: second :: rest => exact .inr (by simp [itemPart, listText])

theorem foldl_readClause_items (selector : Selector) (writable : ∀ item ∈ items, item.IsWritable) :
    ((itemPart items).map toList).foldl readClause selector =
      { selector with items := selector.items ++ items } := by
  obtain ⟨rfl, -⟩ | part := toList_itemPart items
  · simp [itemPart]
  · rw [part, foldl_cons, foldl_nil,
      (readClause_keyed selector (isValue_listText writable).trimmed).2.1,
      readList_listText writable]

end

theorem foldl_readClause_count {selector : Selector} (absent : selector.count = none)
    (count : Option Int32) :
    ((field "c" (count.map Number.showInt32)).map toList).foldl readClause selector =
      { selector with count } := by
  refine foldl_field (fun count => { selector with count }) ?_ fun value _ => ?_
  · rw [← absent]
  · have read := (readClause_keyed selector (isBare_showInt32 value).trimmed).2.2
    rw [Number.readInt32?_showInt32] at read
    rw [← read]
    simp

def keys : List String :=
  ["type", "name", "family", "tag", "c", "x", "y", "z", "r", "rm", "scores", "hasitem"]

/-- A clause that is carried along as it is written: its key, if it has one, is none of those that
are understood. -/
@[mk_iff]
structure IsExtra (text : String) : Prop where
  piece : IsPiece text.toList
  foreign : ∀ cut ∈ cutAt? '=' text.toList, trim (ofList cut.1) ∉ keys

instance : DecidablePred IsExtra :=
  fun text => decidable_of_iff _ (isExtra_iff text).symm

theorem readClause_extra (selector : Selector) {text : String} (isExtra : IsExtra text) :
    selector.readClause text.toList = { selector with extra := selector.extra ++ [text] } := by
  unfold readClause
  split
  case h_1 => rw [ofList_toList]
  case h_2 key value cut =>
    have foreign := isExtra.foreign (key, value) cut
    rw [trim, String.toList_ofList] at foreign
    have whole := trimChars_eq_self_iff.2 isExtra.piece.trimmed
    split
    -- a key that is understood is none of a foreign clause
    case h_13 => rw [whole, ofList_toList]
    all_goals
      rename_i understood
      rw [understood] at foreign
      exact absurd (by decide) foreign

theorem foldl_readClause_extra (selector : Selector) (areExtra : ∀ text ∈ texts, IsExtra text) :
    (texts.map toList).foldl readClause selector =
      { selector with extra := selector.extra ++ texts } := by
  induction texts generalizing selector with
  | nil => simp
  | cons text texts ih =>
    obtain ⟨here, later⟩ := forall_mem_cons.1 areExtra
    rw [map_cons, foldl_cons, readClause_extra selector here, ih _ later]
    simp

/-- A selector that only chooses entities and whose words can be told from the marks between
them. -/
@[mk_iff]
structure IsWritable (selector : Selector) : Prop where
  noBlock : selector.blockClause = none
  noOffset : selector.offset = none
  noArea : selector.area.isEmpty = true
  words : ∀ clause ∈ selector.types ++ selector.names ++ selector.families ++ selector.tags,
    '"' ∉ clause.word.toList
  scores : ∀ score ∈ selector.scores, score.IsWritable
  items : ∀ item ∈ selector.items, item.IsWritable
  extra : ∀ text ∈ selector.extra, IsExtra text

instance : DecidablePred IsWritable :=
  fun selector => decidable_of_iff _ (isWritable_iff selector).symm

variable {selector : Selector}

theorem Area.eq_of_isEmpty {area : Area} (empty : area.isEmpty = true) : area = {} := by
  obtain ⟨x, y, z, radius, innerRadius⟩ := area
  simp only [Area.isEmpty, Bool.and_eq_true, Option.isNone_iff_eq_none] at empty
  simp [empty]

theorem IsWritable.area_eq (writable : selector.IsWritable) : selector.area = {} :=
  Area.eq_of_isEmpty writable.noArea

theorem IsWritable.isPiece_parts (writable : selector.IsWritable) :
    ∀ text ∈ selector.parts, IsPiece text.toList := by
  have word (key : WordKey) {clauses : List WordClause}
      (noQuote : ∀ clause ∈ clauses, '"' ∉ clause.word.toList) :
      ∀ text ∈ clauses.map (·.render key.text), IsPiece text.toList := by
    intro text member
    obtain ⟨clause, isClause, rfl⟩ := mem_map.1 member
    exact isPiece_word key (noQuote clause isClause)
  obtain ⟨⟨⟨types, names⟩, families⟩, tags⟩ := by
    simpa only [forall_mem_append] using writable.words
  rw [parts, writable.area_eq, show areaParts {} = [] from rfl, append_nil]
  simp only [forall_mem_append]
  refine ⟨⟨⟨⟨⟨⟨⟨word .type types, word .name names⟩, word .family families⟩, word .tag tags⟩,
    fun text member => ?score⟩, fun text member => ?item⟩, fun text member => ?count⟩,
    fun text member => (writable.extra text member).piece⟩
  case score =>
    exact forall_mem_part (toList_scorePart _)
      (.keyed (IsKey.mk : IsKey "scores").bare (isValue_scoresText writable.scores)) text member
  case item =>
    exact forall_mem_part (toList_itemPart _)
      (.keyed (IsKey.mk : IsKey "hasitem").bare (isValue_listText writable.items)) text member
  case count =>
    obtain ⟨_, isNumber, rfl⟩ := mem_map.1 member
    obtain ⟨value, -, rfl⟩ := Option.map_eq_some_iff.1 (Option.mem_toList.1 isNumber)
    have piece : IsPiece ("c".toList ++ '=' :: (Number.showInt32 value).toList) :=
      .keyed (IsKey.mk : IsKey "c").bare (isBare_showInt32 value).isValue
    simpa using piece

theorem IsWritable.foldl_readClause_parts (writable : selector.IsWritable) :
    (selector.parts.map toList).foldl readClause { base := selector.base } = selector := by
  obtain ⟨⟨⟨types, names⟩, families⟩, tags⟩ := by
    simpa only [forall_mem_append] using writable.words
  have word := fun selector key => @foldl_readClause_words selector key
  rw [parts, writable.area_eq, show areaParts {} = [] from rfl, append_nil]
  simp only [map_append, foldl_append]
  rw [show "type" = WordKey.text .type from rfl, show "name" = WordKey.text .name from rfl,
    show "family" = WordKey.text .family from rfl, show "tag" = WordKey.text .tag from rfl,
    word _ _ types, word _ _ names, word _ _ families, word _ _ tags,
    foldl_readClause_scores _ writable.scores, foldl_readClause_items _ writable.items,
    foldl_readClause_count rfl, foldl_readClause_extra _ writable.extra]
  simp only [WordKey.add, nil_append, ← writable.area_eq, ← writable.noBlock, ← writable.noOffset]

/-- The base and the clauses of a selector are found again between the brackets. -/
theorem cutBrackets?_render (base : SelectorBase) (body : List Char) :
    cutBrackets? (trimChars (base.render.toList ++ '[' :: body ++ [']'])) =
      some (base.render.toList, some body) := by
  have noBracket : '[' ∉ base.render.toList := by cases base <;> decide
  have trimmed : Text.IsTrimmed (base.render.toList ++ '[' :: body ++ [']']) := by
    obtain ⟨rest, starts⟩ : ∃ rest, base.render.toList = '@' :: rest := by
      cases base <;> exact ⟨_, rfl⟩
    rw [starts]
    exact isTrimmed_between _ rfl rfl
  rw [trimChars_eq_self_iff.2 trimmed, cutBrackets?, append_assoc, cons_append,
    cutAt?_append noBracket]
  simp [cutAtLast?, cutAt?]

/-- A selector is read back from its text. -/
theorem selector_text_reads_back (writable : selector.IsWritable) :
    read? selector.render = some selector := by
  have base : SelectorBase.read? (String.ofList selector.base.render.toList) = some selector.base := by
    cases selector.base <;> rfl
  have clauses := writable.foldl_readClause_parts
  unfold read? readChars? render
  cases parts : selector.parts with
  | nil =>
    have bare : cutBrackets? (trimChars selector.base.render.toList) =
        some (selector.base.render.toList, none) := by
      cases selector.base <;> rfl
    rw [parts] at clauses
    simp only [bare, base, Option.bind_eq_bind, Option.bind_some]
    exact congrArg some clauses
  | cons first rest =>
    have pieces := splitTopLevel_joinWith writable.isPiece_parts
    have cut := cutBrackets?_render selector.base (joinWith "," selector.parts).toList
    rw [parts] at cut pieces clauses
    have text : (selector.base.render ++ "[" ++ joinWith "," (first :: rest) ++ "]").toList =
        selector.base.render.toList ++ '[' :: (joinWith "," (first :: rest)).toList ++ [']'] := by
      simp
    simp only [text, cut, base, Option.bind_eq_bind, Option.bind_some, Option.getD_some, pieces]
    exact congrArg some clauses

/-- A selector whose words hold commas, brackets, blanks and marks of negation. -/
def crowded : Selector where
  base := .entities
  count := some (-3)
  types := [⟨"minecraft:armor_stand", true⟩]
  names := [⟨"!a, b=[c\x7d", false⟩, ⟨"", true⟩]
  tags := [⟨" x ", true⟩, ⟨"y", false⟩]
  scores := [⟨"_mcc_tmp0", ⟨some 1, none, true⟩⟩, ⟨"a b", ⟨some 2, some 2, false⟩⟩]
  items := [⟨"a=b", some 0, some "slot.weapon", none, some ⟨none, some 5, false⟩⟩, ⟨"", none, none, some 1, none⟩]
  extra := ["flag", "rx=[1, \x7b2\x7d]", "has_property=\x7bp=\"],\"\x7d"]

/-- The crowded selector is read back. -/
theorem crowded_text_reads_back : crowded.IsWritable ∧ read? crowded.render = some crowded := by
  have writable : crowded.IsWritable := by decide +kernel
  exact ⟨writable, selector_text_reads_back writable⟩

end Selector

end ScriptPack
