import ScriptPack.Proofs.ScoreNames

/-!
Names of scores in selectors. Main results: the text of a selector without reserved names is covered,
whatever is declared, and the selectors that are read from a text without reserved names have none.
-/

namespace ScriptPack

open List Number Text

variable {text : List Char} {selector : Selector} {key : String}

/-! ## Writing -/

theorem Number.not_mem_positional (decimal : Decimal) : '_' ∉ positional decimal := by
  have digits : '_' ∉ Nat.toDigits 10 decimal.digits := fun member =>
    absurd (Nat.isDigit_of_mem_toDigits (by decide) le_rfl member) (by decide)
  have taken (count : Nat) := mt (mem_of_mem_take (i := count)) digits
  have dropped (count : Nat) := mt (mem_of_mem_drop (i := count)) digits
  simp only [positional]
  split
  · simp [digits]
  · split <;> simp [digits, taken, dropped]

theorem Number.not_mem_showPlain {format : BinaryFormat} (value : Binary format) :
    '_' ∉ value.showPlain.toList := by
  cases value with
  | nan =>
    change '_' ∉ "NaN".toList
    decide
  | infinite negative =>
    change '_' ∉ (if negative then "-inf" else "inf").toList
    cases negative <;> decide
  | finite negative mantissa exponent =>
    simp only [Binary.showPlain, String.toList_ofList]
    split <;> split <;> simp [not_mem_positional]

theorem Coord.not_mem_render (coord : Coord) : '_' ∉ coord.render.toList := by
  have whole := @not_mem_showInt32 coord.value.toInt32 '_' (by decide) (by decide)
  have plain := not_mem_showPlain coord.value
  unfold render
  cases coord.relative <;> cases coord.facing <;> simp only [Bool.false_eq_true, if_false, if_true] <;>
    split <;> first | decide | (split <;> simp [whole, plain])

theorem Range.not_mem_render (range : Range) : '_' ∉ range.render.toList :=
  fun member => absurd (mem_render member) (by decide)

namespace Selector

def texts (selector : Selector) : List String :=
  (selector.types ++ selector.names ++ selector.families ++ selector.tags).map (·.word) ++
    selector.scores.map (·.objective) ++
    selector.items.flatMap (fun clause => clause.item :: clause.location.toList) ++ selector.extra

def IsUnmarked (selector : Selector) : Prop :=
  ∀ text ∈ selector.texts, Text.IsUnmarked text.toList

instance : DecidablePred IsUnmarked :=
  fun selector => inferInstanceAs (Decidable (∀ text ∈ selector.texts, _))

section

variable {declared : List String} {selector : Selector}

theorem coversText_keyed {value : List Char} (isKey : Text.IsUnmarked key.toList)
    (covered : CoversText declared value) : CoversText declared (key.toList ++ '=' :: value) :=
  (coversText_append_divider (by decide)).2 ⟨coversText_of_isUnmarked isKey, covered⟩

theorem coversText_field {value : Option String} (isKey : Text.IsUnmarked key.toList)
    (covered : ∀ text ∈ value, CoversText declared text.toList) {text : String}
    (member : text ∈ ItemClause.field key value) : CoversText declared text.toList := by
  obtain ⟨source, isSource, rfl⟩ := mem_map.1 member
  have keyed := coversText_keyed isKey (covered source (Option.mem_toList.1 isSource))
  simpa using keyed

theorem coversText_map {α : Type} {write : α → String} (absent : ∀ value, '_' ∉ (write value).toList)
    {value : Option α} : ∀ text ∈ value.map write, CoversText declared text.toList := by
  intro text member
  obtain ⟨source, -, rfl⟩ := Option.map_eq_some_iff.1 member
  exact coversText_of_isUnmarked (isUnmarked_of_not_mem (absent source))

theorem coversText_numeral {value : Option Int32} :
    ∀ text ∈ value.map showInt32, CoversText declared text.toList :=
  coversText_map fun _ => not_mem_showInt32 (by decide) (by decide)

theorem coversText_word {clause : WordClause} (unmarked : Text.IsUnmarked clause.word.toList)
    (isKey : Text.IsUnmarked key.toList) : CoversText declared (clause.render key).toList := by
  have word : CoversText declared (WordClause.wordText clause.word.toList) := by
    obtain ⟨same, -⟩ | quoted := WordClause.wordText_cases clause.word.toList
    · rw [same]
      exact coversText_of_isUnmarked unmarked
    · rw [quoted]
      exact (coversText_of_isUnmarked unmarked).enclosed (by decide) (by decide)
  rw [WordClause.toList_render]
  refine coversText_keyed isKey ?_
  unfold WordClause.valueText
  split
  · rwa [coversText_cons_divider (by decide)]
  · exact word

theorem coversText_item {clause : ItemClause} (item : Text.IsUnmarked clause.item.toList)
    (location : ∀ text ∈ clause.location, Text.IsUnmarked text.toList) :
    CoversText declared clause.render.toList := by
  rw [ItemClause.toList_render]
  refine CoversText.enclosed (coversText_joinWith_comma fun text member => ?_) (by decide) (by decide)
  simp only [ItemClause.fields, mem_append, mem_cons] at member
  obtain (((rfl | data) | place) | slot) | quantity := member
  · simpa using coversText_keyed (by decide : Text.IsUnmarked "item".toList)
      (coversText_of_isUnmarked item)
  · exact coversText_field (by decide) coversText_numeral data
  · exact coversText_field (by decide)
      (fun text member => coversText_of_isUnmarked (location text member))
      place
  · exact coversText_field (by decide) coversText_numeral slot
  · exact coversText_field (by decide) (coversText_map Range.not_mem_render) quantity

theorem coversText_scorePart (unmarked : selector.IsUnmarked) {text : String}
    (member : text ∈ scorePart selector.scores) : CoversText declared text.toList := by
  refine forall_mem_part (toList_scorePart selector.scores) (coversText_keyed (by decide)
    (CoversText.enclosed (coversText_joinWith_comma fun text member => ?_) (by decide) (by decide)))
    text member
  obtain ⟨clause, isClause, rfl⟩ := mem_map.1 member
  have objective : Text.IsUnmarked clause.objective.toList :=
    unmarked _ (by
      simp only [texts, mem_append]
      exact .inl (.inl (.inr (mem_map_of_mem isClause))))
  rw [ScoreClause.toList_render]
  exact coversText_keyed objective
    (coversText_of_isUnmarked (isUnmarked_of_not_mem clause.range.not_mem_render))

theorem coversText_itemPart (unmarked : selector.IsUnmarked) {text : String}
    (member : text ∈ itemPart selector.items) : CoversText declared text.toList := by
  have item : ∀ clause ∈ selector.items, CoversText declared clause.render.toList := by
    intro clause isClause
    have inside : ∀ text ∈ clause.item :: clause.location.toList, Text.IsUnmarked text.toList := by
      intro text member
      refine unmarked text ?_
      simp only [texts, mem_append]
      exact .inl (.inr (mem_flatMap.2 ⟨clause, isClause, member⟩))
    exact coversText_item (inside _ mem_cons_self)
      fun text member => inside text (mem_cons_of_mem _ (Option.mem_toList.2 member))
  refine forall_mem_part (toList_itemPart selector.items) (coversText_keyed (by decide) ?_) text member
  obtain ⟨only, single, list⟩ | list := ItemClause.listText_cases selector.items
  · rw [list]
    exact item only (single ▸ mem_singleton_self only)
  · rw [list]
    refine CoversText.enclosed (coversText_joinWith_comma fun text member => ?_) (by decide)
      (by decide)
    obtain ⟨clause, isClause, rfl⟩ := mem_map.1 member
    exact item clause isClause

theorem coversText_areaPart {area : Area} {text : String} (member : text ∈ areaParts area) :
    CoversText declared text.toList := by
  have coord {value : Option Coord} :
      ∀ text ∈ value.map Coord.render, CoversText declared text.toList :=
    coversText_map Coord.not_mem_render
  have radius {value : Option Single} :
      ∀ text ∈ value.map Binary.showPlain, CoversText declared text.toList :=
    coversText_map not_mem_showPlain
  simp only [areaParts, mem_append] at member
  obtain (((x | y) | z) | outer) | inner := member
  · exact coversText_field (by decide) coord x
  · exact coversText_field (by decide) coord y
  · exact coversText_field (by decide) coord z
  · exact coversText_field (by decide) radius outer
  · exact coversText_field (by decide) radius inner

/-- The text of a selector without reserved names names no undeclared ones. -/
theorem coversText_render (unmarked : selector.IsUnmarked) :
    CoversText declared selector.render.toList := by
  have word {clauses : List WordClause}
      (within : clauses ⊆ selector.types ++ selector.names ++ selector.families ++ selector.tags)
      {key : String} (isKey : Text.IsUnmarked key.toList) {text : String}
      (member : text ∈ clauses.map (·.render key)) : CoversText declared text.toList := by
    obtain ⟨clause, isClause, rfl⟩ := mem_map.1 member
    refine coversText_word (unmarked _ ?_) isKey
    simp only [texts, mem_append]
    exact .inl (.inl (.inl (mem_map_of_mem (within isClause))))
  have parts : ∀ text ∈ selector.parts, CoversText declared text.toList := by
    intro text member
    simp only [Selector.parts, mem_append] at member
    obtain (((((((type | named) | family) | tag) | score) | item) | area) | count) | extra := member
    · exact word (fun _ => by simp +contextual) (by decide) type
    · exact word (fun _ => by simp +contextual) (by decide) named
    · exact word (fun _ => by simp +contextual) (by decide) family
    · exact word (fun _ => by simp +contextual) (by decide) tag
    · exact coversText_scorePart unmarked score
    · exact coversText_itemPart unmarked item
    · exact coversText_areaPart area
    · exact coversText_field (by decide) coversText_numeral count
    · exact coversText_of_isUnmarked (unmarked text (mem_append_right _ extra))
  have base : CoversText declared selector.base.render.toList :=
    coversText_of_isUnmarked (by cases selector.base <;> decide)
  unfold render
  split
  · exact base
  · have body := (coversText_joinWith_comma parts).enclosed (by decide : isDivider '[' = true)
      (by decide : isDivider ']' = true)
    rw [cons_append, coversText_cons_divider (by decide)] at body
    have whole := (coversText_append_divider (by decide : isDivider '[' = true)).2 ⟨base, body⟩
    simpa using whole

end

end Selector

/-! ## Reading -/

namespace Text

variable {text before after : List Char} {mark : Char}

theorem dropWhileEnd_isInfix (drop : Char → Bool) (text : List Char) :
    dropWhileEnd drop text <:+: text := by
  have inside := (dropWhile_suffix (l := text.reverse) drop).isInfix
  rwa [← reverse_reverse (text.reverse.dropWhile drop), reverse_infix] at inside

theorem trimChars_isInfix (text : List Char) : trimChars text <:+: text :=
  (dropWhileEnd_isInfix _ _).trans (dropWhile_suffix _).isInfix

theorem eq_of_cutAt? (cut : cutAt? mark text = some (before, after)) :
    text = before ++ mark :: after := by
  induction text generalizing before with
  | nil => cases cut
  | cons c text ih =>
    rw [cutAt?] at cut
    split at cut
    · rename_i same
      cases cut
      rw [beq_iff_eq.1 same]
      rfl
    · obtain ⟨⟨inner, rest⟩, found, equal⟩ := Option.map_eq_some_iff.1 cut
      cases equal
      rw [ih found]
      rfl

theorem cutAt?_isInfix (cut : cutAt? mark text = some (before, after)) :
    before <:+: text ∧ after <:+: text := by
  rw [eq_of_cutAt? cut]
  exact ⟨(prefix_append _ _).isInfix,
    ((suffix_cons mark after).trans (suffix_append before _)).isInfix⟩

theorem cutAtLast?_isInfix (cut : cutAtLast? mark text = some (before, after)) : before <:+: text := by
  obtain ⟨⟨rest, start⟩, found, equal⟩ := Option.map_eq_some_iff.1 cut
  cases equal
  have inside := (cutAt?_isInfix found).2
  rwa [← reverse_reverse start, reverse_infix] at inside

theorem dropStart_isInfix (mark : Char) (text : List Char) : dropStart mark text <:+: text :=
  (dropWhile_suffix _).isInfix

theorem dropEnd_isInfix (mark : Char) (text : List Char) : dropEnd mark text <:+: text :=
  dropWhileEnd_isInfix _ text

end Text

theorem topLevelPieces_isInfix {depth : Int} {quoted : Bool} {piece part : List Char}
    (member : part ∈ topLevelPieces depth quoted piece text) : part <:+: piece.reverse ++ text := by
  induction text generalizing depth quoted piece with
  | nil =>
    rw [mem_singleton.1 member, append_nil]
  | cons c text ih =>
    have carried {depth : Int} {quoted : Bool}
        (member : part ∈ topLevelPieces depth quoted (c :: piece) text) :
        part <:+: piece.reverse ++ c :: text := by simpa using ih member
    rw [topLevelPieces] at member
    split at member
    · exact carried member
    split at member
    · exact carried member
    split at member
    · exact carried member
    split at member
    · obtain rfl | later := mem_cons.1 member
      · exact (prefix_append _ _).isInfix
      · have inside : part <:+: text := by simpa using ih later
        exact inside.trans ((suffix_cons c text).trans (suffix_append _ _)).isInfix
    · exact carried member

theorem splitTopLevel_isInfix {part : List Char} (member : part ∈ splitTopLevel text) :
    part <:+: text := by
  obtain ⟨isPiece, -⟩ := mem_filter.1 member
  obtain ⟨piece, inside, rfl⟩ := mem_map.1 isPiece
  exact (trimChars_isInfix piece).trans (by simpa using topLevelPieces_isInfix inside)

theorem withoutBraces_isInfix (text : List Char) : withoutBraces text <:+: text :=
  (dropEnd_isInfix _ _).trans (dropStart_isInfix _ _)

theorem WordClause.isUnmarked_read (unmarked : IsUnmarked text) :
    IsUnmarked (read text).word.toList := by
  have trimmed := unmarked.of_isInfix (trimChars_isInfix text)
  have bare {word : List Char} (unmarked : IsUnmarked word) :
      IsUnmarked (dropEnd '"' (dropStart '"' word)) :=
    unmarked.of_isInfix ((dropEnd_isInfix _ _).trans (dropStart_isInfix _ _))
  unfold read
  split
  rename_i negated word matched
  simp only [String.toList_ofList]
  split at matched
  · rename_i rest starts
    cases matched
    rw [starts] at trimmed
    exact bare (trimmed.of_isInfix (suffix_cons _ _).isInfix)
  · cases matched
    exact bare trimmed

theorem ScoreClause.isUnmarked_read? (unmarked : IsUnmarked text)
    {clause : ScoreClause} (found : read? text = some clause) : IsUnmarked clause.objective.toList := by
  obtain ⟨⟨objective, range⟩, cut, found⟩ := Option.bind_eq_some_iff.1 found
  obtain ⟨value, -, found⟩ := Option.bind_eq_some_iff.1 found
  cases found
  simp only [String.toList_ofList]
  exact unmarked.of_isInfix ((trimChars_isInfix _).trans (cutAt?_isInfix cut).1)

namespace ItemClause

def IsUnmarked (clause : ItemClause) : Prop :=
  ∀ text ∈ clause.item :: clause.location.toList, Text.IsUnmarked text.toList

theorem isUnmarked_readField {clause : ItemClause} (isUnmarked : clause.IsUnmarked)
    (unmarked : Text.IsUnmarked text) : (clause.readField text).IsUnmarked := by
  unfold readField
  split
  · exact isUnmarked
  · rename_i key value cut
    have inside := unmarked.of_isInfix ((trimChars_isInfix value).trans (cutAt?_isInfix cut).2)
    have item := forall_mem_cons.1 isUnmarked
    dsimp only
    split
    · exact forall_mem_cons.2 ⟨by simpa using inside, item.2⟩
    · exact isUnmarked
    · exact forall_mem_cons.2 ⟨item.1, by simpa using inside⟩
    · exact isUnmarked
    · exact isUnmarked
    · exact isUnmarked

theorem isUnmarked_read (unmarked : Text.IsUnmarked text) : (read text).IsUnmarked := by
  have pieces : ∀ part ∈ splitTopLevel (withoutBraces text), Text.IsUnmarked part :=
    fun part member => unmarked.of_isInfix ((splitTopLevel_isInfix member).trans (withoutBraces_isInfix text))
  have start : ({ item := "" } : ItemClause).IsUnmarked :=
    forall_mem_singleton.2 (by decide)
  exact foldlRecOn _ readField start fun _ isUnmarked part member =>
    isUnmarked_readField isUnmarked (pieces part member)

theorem isUnmarked_readList (unmarked : Text.IsUnmarked text) :
    ∀ clause ∈ readList text, clause.IsUnmarked := by
  intro clause member
  unfold readList at member
  split at member
  · rename_i entries
    obtain ⟨part, isPart, rfl⟩ := mem_map.1 member
    exact isUnmarked_read (unmarked.of_isInfix ((splitTopLevel_isInfix isPart).trans
      ((dropEnd_isInfix _ _).trans (suffix_cons _ _).isInfix)))
  · rw [mem_singleton.1 member]
    exact isUnmarked_read unmarked

end ItemClause

namespace Selector

theorem isUnmarked_iff : selector.IsUnmarked ↔
    (∀ clause ∈ selector.types, Text.IsUnmarked clause.word.toList) ∧
    (∀ clause ∈ selector.names, Text.IsUnmarked clause.word.toList) ∧
    (∀ clause ∈ selector.families, Text.IsUnmarked clause.word.toList) ∧
    (∀ clause ∈ selector.tags, Text.IsUnmarked clause.word.toList) ∧
    (∀ clause ∈ selector.scores, Text.IsUnmarked clause.objective.toList) ∧
    (∀ clause ∈ selector.items, clause.IsUnmarked) ∧
    ∀ text ∈ selector.extra, Text.IsUnmarked text.toList := by
  simp only [IsUnmarked, texts, forall_mem_append, forall_mem_map, forall_mem_flatMap,
    ItemClause.IsUnmarked, and_assoc]

theorem isUnmarked_readClause (isUnmarked : selector.IsUnmarked)
    (unmarked : Text.IsUnmarked text) : (selector.readClause text).IsUnmarked := by
  obtain ⟨types, names, families, tags, scores, items, extra⟩ := isUnmarked_iff.1 isUnmarked
  have kept {part : List Char} (inside : part <:+: text) :
      ({ selector with extra := selector.extra ++ [String.ofList part] } : Selector).IsUnmarked := by
    refine isUnmarked_iff.2 ⟨types, names, families, tags, scores, items,
      forall_mem_append.2 ⟨extra, forall_mem_singleton.2 ?_⟩⟩
    simpa using unmarked.of_isInfix inside
  unfold readClause
  split
  · exact kept (infix_refl _)
  · rename_i key value cut
    have inside := unmarked.of_isInfix ((trimChars_isInfix value).trans (cutAt?_isInfix cut).2)
    have word {clauses : List WordClause}
        (earlier : ∀ clause ∈ clauses, Text.IsUnmarked clause.word.toList) :
        ∀ clause ∈ clauses ++ [.read (trimChars value)], Text.IsUnmarked clause.word.toList :=
      forall_mem_append.2 ⟨earlier, forall_mem_singleton.2 (WordClause.isUnmarked_read inside)⟩
    dsimp only
    split
    · exact isUnmarked_iff.2 ⟨word types, names, families, tags, scores, items, extra⟩
    · exact isUnmarked_iff.2 ⟨types, word names, families, tags, scores, items, extra⟩
    · exact isUnmarked_iff.2 ⟨types, names, word families, tags, scores, items, extra⟩
    · exact isUnmarked_iff.2 ⟨types, names, families, word tags, scores, items, extra⟩
    · exact isUnmarked
    · exact isUnmarked
    · exact isUnmarked
    · exact isUnmarked
    · exact isUnmarked
    · exact isUnmarked
    · refine isUnmarked_iff.2 ⟨types, names, families, tags,
        forall_mem_append.2 ⟨scores, fun clause member => ?_⟩, items, extra⟩
      obtain ⟨part, isPart, found⟩ := mem_filterMap.1 member
      exact ScoreClause.isUnmarked_read?
        (inside.of_isInfix ((splitTopLevel_isInfix isPart).trans (withoutBraces_isInfix _))) found
    · exact isUnmarked_iff.2 ⟨types, names, families, tags, scores,
        forall_mem_append.2 ⟨items, ItemClause.isUnmarked_readList inside⟩, extra⟩
    · exact kept (trimChars_isInfix text)

theorem isUnmarked_readChars? (unmarked : Text.IsUnmarked text)
    (found : readChars? text = some selector) : selector.IsUnmarked := by
  obtain ⟨⟨base, body⟩, cut, found⟩ := Option.bind_eq_some_iff.1 found
  obtain ⟨selectorBase, -, found⟩ := Option.bind_eq_some_iff.1 found
  cases found
  have inside : body.getD [] <:+: text := by
    refine List.IsInfix.trans ?_ (trimChars_isInfix text)
    unfold cutBrackets? at cut
    split at cut
    · cases cut
      exact nil_infix
    · rename_i start rest opened
      obtain ⟨⟨between, after⟩, isLast, equal⟩ := Option.map_eq_some_iff.1 cut
      cases equal
      exact (cutAtLast?_isInfix isLast).trans (cutAt?_isInfix opened).2
  have pieces : ∀ part ∈ splitTopLevel (body.getD []), Text.IsUnmarked part :=
    fun part member => unmarked.of_isInfix ((splitTopLevel_isInfix member).trans inside)
  have start : ({ base := selectorBase } : Selector).IsUnmarked := by simp [IsUnmarked, texts]
  exact foldlRecOn _ readClause start fun _ isUnmarked part member =>
    isUnmarked_readClause isUnmarked (pieces part member)

/-- The selector that a text without reserved names stands for has none. -/
theorem isUnmarked_ofText? {text : String} (unmarked : Text.IsUnmarked text.toList)
    (found : ofText? text = some selector) : selector.IsUnmarked := by
  have trimmed := unmarked.of_isInfix (trimChars_isInfix text.toList)
  have named {name : List Char} (inside : name <:+: trimChars text.toList) :
      ({ base := .entities, names := [⟨String.ofList name, false⟩] } : Selector).IsUnmarked := by
    simpa [IsUnmarked, texts] using trimmed.of_isInfix inside
  unfold ofText? at found
  split at found
  · cases found
    decide
  · rename_i rest starts
    rw [starts] at trimmed
    exact isUnmarked_readChars? trimmed found
  · dsimp only at found
    split at found
    · rename_i name type cut
      split at found
      · cases found
        exact named (infix_refl _)
      · cases found
        have parts := cutAt?_isInfix cut
        simpa [IsUnmarked, texts] using ⟨trimmed.of_isInfix parts.2, trimmed.of_isInfix parts.1⟩
    · cases found
      exact named (infix_refl _)

end Selector

end ScriptPack
