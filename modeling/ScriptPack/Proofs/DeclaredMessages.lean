import ScriptPack.Proofs.DeclaredCounters
import ScriptPack.Proofs.MessageScores

/-!
Messages name only scores that are declared: those of the counters that they show, and the ones by
which a time is shown, which are not reserved. The plain parts of a message are stretches of its
source, so that they hold no reserved name if the source has none.
-/

namespace ScriptPack

open Counter Option Segment

open Json (compact compactMembers escape quote)
open TimeScores (atPlace)
open List Text

namespace RawTerm

/-- Plain parts and selectors have no reserved names, and a score that is shown is declared or not
reserved. -/
def IsCovered (declared : List String) : RawTerm → Prop
  | text content => IsUnmarked content.toList
  | score target objective =>
      IsUnmarked target.toList ∧ CoversText declared (quote objective).toList
  | selector target => IsUnmarked target.toList

variable {declared : List String}

theorem coversText_quoted {before after : List Char} {text : String} (opening : IsUnmarked before)
    (covered : CoversText declared (Json.quote text).toList) (closing : CoversText declared after) :
    CoversText declared (before ++ ((Json.quote text).toList ++ after)) := by
  have quote : isDivider '"' = true := by decide
  rw [Json.quote, String.toList_ofList, cons_append] at covered ⊢
  rw [coversText_cons_divider quote, coversText_append_divider quote] at covered
  rw [cons_append, append_assoc, singleton_append, coversText_append_divider quote,
    coversText_append_divider quote]
  exact ⟨coversText_of_isUnmarked opening, covered.1, closing⟩

theorem coversText_toJson {term : RawTerm} (covered : term.IsCovered declared) :
    CoversText declared term.toJson.compact.toList := by
  have brace : CoversText declared ['\x7d'] := coversText_of_isUnmarked (by decide)
  have braces : CoversText declared ['\x7d', '\x7d'] := coversText_of_isUnmarked (by decide)
  cases term with
  | text content =>
    have text : (RawTerm.text content).toJson.compact.toList =
        "\x7b\"text\":".toList ++ ((quote content).toList ++ ['\x7d']) := by
      simp [toJson, compact, compactMembers, joinWith, quote, escape]
    rw [text]
    exact coversText_quoted (by decide) (coversText_quote covered) brace
  | selector target =>
    have text : (RawTerm.selector target).toJson.compact.toList =
        "\x7b\"selector\":".toList ++ ((quote target).toList ++ ['\x7d']) := by
      simp [toJson, compact, compactMembers, joinWith, quote, escape]
    rw [text]
    exact coversText_quoted (by decide) (coversText_quote covered) brace
  | score target objective =>
    have text : (RawTerm.score target objective).toJson.compact.toList =
        "\x7b\"score\":\x7b\"name\":".toList ++ ((quote target).toList ++
          (",\"objective\":".toList ++ ((quote objective).toList ++ ['\x7d', '\x7d']))) := by
      simp [toJson, compact, compactMembers, joinWith, quote, escape]
    rw [text]
    exact coversText_quoted (by decide) (coversText_quote covered.1)
      (coversText_quoted (by decide) covered.2 braces)

end RawTerm

theorem coversText_rawText {declared : List String} {terms : List RawTerm}
    (covered : ∀ term ∈ terms, term.IsCovered declared) :
    CoversText declared (rawText terms).toList := by
  have items : Json.compactItems (terms.map RawTerm.toJson) = terms.map (·.toJson.compact) := by
    induction terms with
    | nil => rfl
    | cons term terms ih =>
      rw [map_cons, map_cons, Json.compactItems,
        ih fun term member => covered term (mem_cons_of_mem _ member)]
  have joined : CoversText declared (joinWith "," (terms.map (·.toJson.compact))).toList := by
    refine coversText_joinWith_comma fun text member => ?_
    obtain ⟨term, isTerm, rfl⟩ := mem_map.1 member
    exact RawTerm.coversText_toJson (covered term isTerm)
  have text : (rawText terms).toList = "\x7b\"rawtext\":[".toList ++
      ((joinWith "," (terms.map (·.toJson.compact))).toList ++ "]\x7d".toList) := by
    simp [rawText, compact, compactMembers, items, joinWith, quote, escape]
  rw [text]
  exact joined.between (by decide) (by decide) (by decide) (by decide)

namespace Counter

theorem timeScores_apart (index : Nat) :
    ∀ name ∈ (atPlace index).names, IsName name.toList ∧ ¬IsReservedScore name := by
  simp only [TimeScores.names, forall_mem_cons, not_mem_nil, false_implies, implies_true, and_true]
  refine ⟨⟨?_, ?_⟩, ⟨?_, ?_⟩, ⟨?_, ?_⟩, ?_, ?_⟩
  all_goals first
    | exact Scoreboard.isName_numbered (by decide) index
    | simp [IsReservedScore, atPlace, Scoreboard.temporaryName, Routine.resultName,
        cons_prefix_cons]

variable {declared : List String} {target : String}

/-! Showing counters. -/

theorem isCovered_score (unmarked : IsUnmarked target.toList) {objective : String}
    (areNames : ∀ name ∈ declared, IsName name.toList) (settled : IsSettled declared objective) :
    (RawTerm.score target objective).IsCovered declared := by
  refine ⟨unmarked, ?_⟩
  obtain unmarked | isDeclared := settled
  · exact coversText_quote unmarked
  · exact (areNames objective isDeclared).coversText_quote fun _ => isDeclared

mutual

theorem isCovered_displayOf (unmarked : IsUnmarked target.toList)
    (areNames : ∀ name ∈ declared, IsName name.toList) (index : Nat) {name : String} :
    (kind : CounterKind) →
      (settled : ∀ objective ∈ objectivesOf name kind, IsSettled declared objective) →
      ∀ term ∈ displayOf target index name kind, term.IsCovered declared
  | .int, settled | .bool, settled => by
    intro term member
    rw [mem_singleton.1 member]
    exact isCovered_score unmarked areNames (settled name mem_cons_self)
  | .time, settled => by
    intro term member
    have shown {objective : String} (isScore : objective ∈ (atPlace index).names) :
        (RawTerm.score target objective).IsCovered declared := by
      obtain ⟨isName, apart⟩ := timeScores_apart index objective isScore
      exact ⟨unmarked, isName.coversText_quote fun reserved => absurd reserved apart⟩
    simp only [displayOf, mem_cons, not_mem_nil, or_false] at member
    obtain rfl | rfl | rfl := member
    · exact shown (by simp [TimeScores.names])
    · exact (by decide : IsUnmarked ":".toList)
    · exact shown (by simp [TimeScores.names])
  | .decimal _, settled => by
    intro term member
    simp only [displayOf, mem_cons, not_mem_nil, or_false] at member
    obtain rfl | rfl | rfl := member
    · exact isCovered_score unmarked areNames (settled _ mem_cons_self)
    · exact (by decide : IsUnmarked ".".toList)
    · exact isCovered_score unmarked areNames (settled _ (mem_cons_of_mem _ mem_cons_self))
  | .record _ fields, settled => by
    intro term member
    simp only [displayOf, mem_append, mem_cons, not_mem_nil, or_false] at member
    obtain (rfl | inside) | rfl := member
    · exact (by decide : IsUnmarked "[".toList)
    · exact isCovered_displayFields unmarked areNames index false fields settled term inside
    · exact (by decide : IsUnmarked "]".toList)

theorem isCovered_displayFields (unmarked : IsUnmarked target.toList)
    (areNames : ∀ name ∈ declared, IsName name.toList) (index : Nat) {name : String} (comma : Bool) :
    (fields : List (String × String × CounterKind)) →
      (settled : ∀ objective ∈ fieldObjectives name fields, IsSettled declared objective) →
      ∀ term ∈ displayFields target index name comma fields, term.IsCovered declared
  | [], _ => by
    intro term member
    cases member
  | (_, key, kind) :: rest, settled => by
    intro term member
    have first : ∀ objective ∈ objectivesOf (name ++ ":" ++ key) kind, IsSettled declared objective :=
      fun objective inside => settled objective (mem_append_left _ inside)
    have others : ∀ objective ∈ fieldObjectives name rest, IsSettled declared objective :=
      fun objective inside => settled objective (mem_append_right _ inside)
    simp only [displayFields, mem_append] at member
    obtain (separator | shown) | following := member
    · cases comma with
      | true =>
        rw [mem_singleton.1 separator]
        exact (by decide : IsUnmarked ", ".toList)
      | false => cases separator
    · exact isCovered_displayOf unmarked areNames index kind first term shown
    · exact isCovered_displayFields unmarked areNames index true rest others term following

end

theorem coversAll_displaySetup (unmarked : IsUnmarked target.toList) {counter : Counter}
    (covered : counter.IsCovered declared) (index : Nat) :
    CoversAll declared (counter.displaySetup target index) := by
  unfold displaySetup
  split
  · rename_i isTime
    have shown := (covered.name (by rw [isTime]; rfl)).mem
    have isTarget : CoversNames declared (names target) := coversNames_target unmarked
    have apart := fun name member => (timeScores_apart index name member).2
    simp only [TimeScores.names, forall_mem_cons, not_mem_nil, false_implies, implies_true, and_true] at apart
    obtain ⟨minutes, seconds, rest, unit⟩ := apart
    intro command member
    simp only [mem_cons, not_mem_nil, or_false] at member
    obtain rfl | rfl | rfl | rfl | rfl | rfl | rfl | rfl | rfl | rfl | rfl | rfl | rfl := member
    all_goals refine ⟨?_, by simp [Command.creates, minutes, seconds, rest, unit]⟩
    all_goals simp [Command.scores, isTarget, minutes, seconds, rest, unit]
    exact shown
  · exact coversAll_nil

end Counter

/-! ## Interpolation -/

namespace Segment

theorem flatMap_source_ofText (text : List Char) : (ofText text).flatMap source = text := by
  fun_induction ofText text with
  | case1 => rfl
  | case2 c rest isBrace segment after found ih =>
    rw [flatMap_cons, ih, ← source_readBraces? found, beq_iff_eq.1 isBrace]
  | case3 c rest _ _ ih =>
    rw [flatMap_cons, ih]
    rfl
  | case4 c rest _ ih =>
    rw [flatMap_cons, ih]
    rfl

end Segment

namespace Message

variable {declared : List String}

/-- The plain text at the end, to which further plain text is appended. -/
def lastText (message : Message) : List Char :=
  match message.terms.getLast? with
  | some (.text text) => text.toList
  | _ => []

/-- What is there is covered, and the plain text at the end stays so with the text that follows. -/
structure IsCovered (declared : List String) (message : Message) (following : List Char) : Prop where
  terms : ∀ term ∈ message.terms, term.IsCovered declared
  unmarked : IsUnmarked (message.lastText ++ following)

variable {message : Message} {following : List Char}

theorem lastText_append {terms others : List RawTerm} {setup : List Command} {readsScores : Bool}
    (nonempty : others ≠ []) :
    lastText ⟨terms ++ others, setup, readsScores⟩ = lastText ⟨others, setup, readsScores⟩ := by
  simp [lastText, getLast?_append_of_ne_nil terms nonempty]

theorem IsCovered.pushText {text : String}
    (covered : message.IsCovered declared (text.toList ++ following)) :
    (message.pushText text).IsCovered declared following := by
  have unmarked := covered.unmarked
  unfold Message.pushText
  split
  · rename_i last isLast
    have before : message.lastText = last.toList := by simp [lastText, isLast]
    rw [before, ← append_assoc, ← String.toList_append] at unmarked
    refine ⟨forall_mem_append.2 ⟨fun term earlier => covered.terms term (dropLast_subset _ earlier),
      forall_mem_singleton.2 (unmarked.of_isInfix (prefix_append _ _).isInfix)⟩, ?_⟩
    rw [lastText_append (cons_ne_nil _ _)]
    exact unmarked
  · rename_i noText
    have appended := unmarked.of_isInfix (suffix_append message.lastText _).isInfix
    refine ⟨forall_mem_append.2 ⟨covered.terms,
      forall_mem_singleton.2 (appended.of_isInfix (prefix_append _ _).isInfix)⟩, ?_⟩
    rw [lastText_append (cons_ne_nil _ _)]
    exact appended

theorem lastText_display (counter : Counter) (target : String) (index : Nat) (setup : List Command)
    (readsScores : Bool) : counter.display target index ≠ [] ∧
      (lastText ⟨counter.display target index, setup, readsScores⟩ = [] ∨
        lastText ⟨counter.display target index, setup, readsScores⟩ = [']']) := by
  obtain ⟨name, kind⟩ := counter
  unfold display
  cases kind with
  | record recordName fields =>
    rw [displayOf]
    refine ⟨cons_ne_nil _ _, .inr ?_⟩
    rw [lastText_append (cons_ne_nil _ _)]
    rfl
  | int | time | decimal | bool =>
    rw [displayOf]
    exact ⟨cons_ne_nil _ _, .inl rfl⟩

/-- Appending the pieces of a text keeps a message covered: what is appended as plain text stands in
the text, and the counters are covered. -/
theorem IsCovered.pushAll {board : Scoreboard} (isCovered : board.IsCovered)
    {target : String} (unmarked : IsUnmarked target.toList) {segments : List Segment} (index : Nat)
    (covered : message.IsCovered board.declared (segments.flatMap source ++ following)) :
    (message.pushAll board target index segments).IsCovered board.declared following := by
  induction segments generalizing message index with
  | nil => exact covered
  | cons segment rest ih =>
    rw [flatMap_cons, append_assoc] at covered
    have later := covered.unmarked.of_isInfix
      ((suffix_append segment.source _).trans (suffix_append message.lastText _)).isInfix
    cases segment with
    | plain c => exact ih index (IsCovered.pushText (by simpa [source] using covered))
    | entities selector =>
      have unmarked : IsUnmarked (String.ofList selector).toList :=
        covered.unmarked.of_isInfix ⟨message.lastText ++ ['\x7b'],
          '\x7d' :: (rest.flatMap source ++ following), by simp [source]⟩
      refine ih index ⟨forall_mem_append.2 ⟨covered.terms, forall_mem_singleton.2 unmarked⟩, ?_⟩
      rw [lastText_append (cons_ne_nil _ _)]
      exact later
    | counter accessor =>
      rw [Message.pushAll]
      split
      · rename_i counter found
        refine ih (index + 1) ⟨forall_mem_append.2 ⟨covered.terms, isCovered_displayOf unmarked
          isCovered.names index counter.kind (isCovered.get? found).settled⟩, ?_⟩
        obtain ⟨nonempty, last⟩ := lastText_display counter target index
          (message.setup ++ counter.displaySetup target index) true
        rw [lastText_append nonempty]
        obtain empty | bracket := last
        · rw [empty]
          exact later
        · rw [bracket]
          exact later.cons (by decide)
      · exact ih index (IsCovered.pushText (by simpa [source] using covered))

theorem isCovered_ofText {board : Scoreboard} (isCovered : board.IsCovered) {target text : String}
    (isTarget : IsUnmarked target.toList) (unmarked : IsUnmarked text.toList) :
    CoversAll board.declared (ofText board target text).setup ∧
      CoversText board.declared (ofText board target text).rawText.toList := by
  have start : (({} : Message)).IsCovered board.declared
      ((Segment.ofText text.toList).flatMap Segment.source ++ []) := by
    rw [flatMap_source_ofText, append_nil]
    exact ⟨by simp, unmarked⟩
  refine ⟨?_, coversText_rawText (start.pushAll isCovered isTarget 0).terms⟩
  rw [setup_ofText]
  intro command member
  obtain ⟨⟨counter, place⟩, isShown, member⟩ := mem_flatMap.1 member
  obtain ⟨segment, -, found⟩ := mem_filterMap.1 (fst_mem_of_mem_zipIdx isShown)
  cases segment with
  | counter accessor =>
    exact coversAll_displaySetup isTarget (isCovered.get? found) place command member
  | plain | entities => cases found

end Message

end ScriptPack
