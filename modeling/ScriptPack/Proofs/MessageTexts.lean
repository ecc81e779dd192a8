import Mathlib.Algebra.Order.Field.Rat
import Mathlib.Tactic.Positivity
import ScriptPack.Proofs.Replay
import ScriptPack.Proofs.SelectorText
import ScriptPack.RawText.Interpolation

/-!
What a message reads like. A decimal is shown as its whole part, a point and its decimals as an
integer, without zeros in front; and a name in braces is taken for a counter only if it has at most
sixteen characters. Main results: which decimals are shown as what they are worth, and which names of
counters are shown as counters.
-/

namespace ScriptPack

open List Number Segment

/-! ## Decimals -/

/-- What the game writes for a part of a message. Entities have no numbers to show. -/
def RawTerm.print (scores : Scores) : RawTerm → List Char
  | text content => content.toList
  | score _ objective => (showInt32 (scores objective)).toList
  | selector _ => []

namespace Number

/-- The text is digits, a point and digits, and this is their value. -/
def Denotes (text : List Char) (value : ℚ) : Prop :=
  ∃ whole places digits decimals, text = whole ++ '.' :: places ∧ readDigits? whole = some digits ∧
    readDigits? places = some decimals ∧ value = digits + decimals / 10 ^ places.length

theorem Denotes.unique {text : List Char} {value other : ℚ} (denotes : Denotes text value)
    (again : Denotes text other) : value = other := by
  obtain ⟨whole, places, digits, decimals, rfl, isWhole, isPlaces, rfl⟩ := denotes
  obtain ⟨otherWhole, otherPlaces, otherDigits, otherDecimals, same, isOther, areOther, rfl⟩ := again
  have noPoint {digits : List Char} {value : Nat} (read : readDigits? digits = some value) :
      '.' ∉ digits := by
    intro member
    unfold readDigits? at read
    split at read
    · cases read
    · next digit =>
      simp only [Bool.or_eq_true, Bool.not_eq_true', not_or, Bool.not_eq_false, all_eq_true] at digit
      exact absurd (digit.2 '.' member) (by decide)
  obtain ⟨rfl, -, rfl⟩ := (append_cons_inj_of_notMem (noPoint isWhole) (noPoint isPlaces)).1 same
  rw [Option.some.inj (isWhole.symm.trans isOther), Option.some.inj (isPlaces.symm.trans areOther)]

end Number

/-- A decimal reads as its whole part and as many places as its decimals have digits. This is what it
is worth exactly if they have as many digits as places are meant to be, or are zero. -/
theorem decimal_shown_exactly_iff {name target : String} {precision index : Nat} {scores : Scores}
    {whole part : Nat} (isWhole : (scores (name ++ ":w")).toInt = whole)
    (isPart : (scores (name ++ ":d")).toInt = part) (positive : 0 < precision)
    (small : part < 10 ^ precision) :
    let text := (Counter.display ⟨name, .decimal precision⟩ target index).flatMap (RawTerm.print scores)
    Denotes text (whole + part / 10 ^ (Nat.toDigits 10 part).length) ∧
      (Denotes text (whole + part / 10 ^ precision) ↔ part = 0 ∨ 10 ^ (precision - 1) ≤ part) := by
  have shows {objective : String} {value : Nat} (isValue : (scores objective).toInt = value) :
      (showInt32 (scores objective)).toList = Nat.toDigits 10 value := by
    rw [toList_showInt32, isValue, if_neg (by omega), Int.natAbs_natCast]
  intro text
  have written : text = Nat.toDigits 10 whole ++ '.' :: Nat.toDigits 10 part := by
    simp [text, Counter.display, Counter.displayOf, RawTerm.print, shows isWhole, shows isPart]
  have denotes : Denotes text (whole + part / 10 ^ (Nat.toDigits 10 part).length) :=
    ⟨_, _, whole, part, written, readDigits?_toDigits whole, readDigits?_toDigits part, rfl⟩
  have bound {places : Nat} (positive : 0 < places) :
      (Nat.toDigits 10 part).length ≤ places ↔ part < 10 ^ places :=
    Nat.length_toDigits_le_iff (by decide) positive
  refine ⟨denotes, fun exactly => ?_, ?_⟩
  · by_contra short
    obtain ⟨nonzero, less⟩ := not_or.1 short
    have fewer : (Nat.toDigits 10 part).length < precision := by
      have several : 0 < precision - 1 := by
        by_contra single
        rw [Nat.eq_zero_of_not_pos single] at less
        omega
      have := (bound several).2 (Nat.lt_of_not_le less)
      omega
    have more : (part : ℚ) / 10 ^ precision < part / 10 ^ (Nat.toDigits 10 part).length := by
      have : (0 : ℚ) < part := by exact_mod_cast Nat.pos_of_ne_zero nonzero
      gcongr
      norm_num
    exact absurd (exactly.unique denotes) (by simpa using more.ne)
  · rintro (rfl | large)
    · simpa using denotes
    · have least : precision ≤ (Nat.toDigits 10 part).length := by
        by_contra fewer
        have nonempty := length_pos_iff.2 (@Nat.toDigits_ne_nil part 10)
        have := (@bound (precision - 1) (by omega)).1 (by omega)
        omega
      rwa [← Nat.le_antisymm ((bound positive).2 small) least]

/-- One and five hundredths are shown like one and a half. -/
theorem decimal_shown_exactly_iff_hundredths :
    ¬Denotes ((Counter.display ⟨"d", .decimal 2⟩ selfTarget 0).flatMap
      (RawTerm.print fun objective => if objective = "d:w" then 1 else 5)) (1 + 5 / 10 ^ 2) := by
  intro denotes
  have exactly := ((@decimal_shown_exactly_iff "d" selfTarget 2 0
    (fun objective => if objective = "d:w" then 1 else 5) 1 5 rfl rfl (by decide) (by decide)).2).1
      (by simpa using denotes)
  exact absurd exactly (by decide)

/-! ## Names of counters -/

/-- The scoreboards that definitions of counters and of records lead to. -/
inductive Scoreboard.Reached : Scoreboard → Prop where
  | empty : Reached {}
  | define {board later : Scoreboard} {counter : Counter} (reached : Reached board)
      (accepted : board.define counter = .ok later) : Reached later
  | defineRecord {board : Scoreboard} (reached : Reached board) (record : RecordType) :
      Reached (board.defineRecord record)

theorem Scoreboard.Reached.name {board : Scoreboard} (reached : board.Reached) {key : String}
    {counter : Counter} (found : board.counters.get? key = some counter) :
    Text.upper counter.name = key ∧ counter.name.length ≤ CounterKind.greatestNameLength := by
  induction reached with
  | empty => cases found
  | defineRecord _ _ ih => exact ih found
  | define _ accepted ih =>
    unfold Scoreboard.define at accepted
    dsimp only at accepted
    split at accepted
    · cases accepted
    · next short =>
      cases accepted
      rw [addCounter, Table.get?_insert] at found
      split at found
      · next same =>
        cases found
        refine ⟨same.symm, (Nat.le_of_not_lt short).trans ?_⟩
        cases counter.kind <;> simp [CounterKind.maxNameLength]
      · exact ih found

namespace Segment

variable {accessor : List Char} (isAccessor : ∀ c ∈ accessor, isAccessorChar c = true)

theorem ascii_of_isAccessorChar {c : Char} (isAccessor : isAccessorChar c = true) : c.toNat < 128 := by
  simp only [isAccessorChar, Bool.or_eq_true, beq_iff_eq] at isAccessor
  rcases isAccessor with (((plain | rfl) | rfl) | rfl) | rfl
  · exact (Text.toNat_of_isAlphanum plain).2.trans_lt (by decide)
  all_goals decide

theorem ofText_of_not_mem {text : List Char} (noBrace : '\x7b' ∉ text) : ofText text = text.map .plain := by
  induction text with
  | nil => rw [ofText, map_nil]
  | cons c text ih =>
    obtain ⟨other, later⟩ := not_or.1 (mt mem_cons.2 noBrace)
    rw [ofText, if_neg (by simpa using Ne.symm other), ih later, map_cons]

include isAccessor in
/-- A name in braces is a counter if it is not too long, and plain text otherwise. -/
theorem ofText_braces : ofText ('\x7b' :: accessor ++ ['\x7d']) =
    if accessor.isEmpty || greatestAccessor < accessor.length then ('\x7b' :: accessor ++ ['\x7d']).map .plain
    else [.counter accessor] := by
  have name : (accessor ++ ['\x7d']).takeWhile isAccessorChar = accessor := by
    rw [takeWhile_append_of_pos isAccessor]
    exact append_nil _
  have rest : (accessor ++ ['\x7d']).dropWhile isAccessorChar = ['\x7d'] := by
    rw [dropWhile_append_of_pos isAccessor]
    rfl
  have absent {c : Char} (other : isAccessorChar c = false) : c ∉ accessor := fun member => by
    simp [isAccessor c member] at other
  have noEntities : readEntities? (accessor ++ ['\x7d']) = none := by
    unfold readEntities?
    split
    · next starts =>
      cases accessor with
      | nil => cases starts
      | cons c accessor =>
        obtain ⟨rfl, -⟩ := cons.inj starts
        exact absurd mem_cons_self (absent (by decide))
    · rfl
  have read : readBraces? (accessor ++ ['\x7d']) =
      if accessor.isEmpty || greatestAccessor < accessor.length then none
      else some (.counter accessor, []) := by
    simp only [readBraces?, readAccessor?, name, rest, noEntities, Option.or_none]
  rw [cons_append, ofText, if_pos (beq_self_eq_true _)]
  split
  · next found =>
    rw [read] at found
    split at found
    · cases found
    · next short =>
      cases found
      rw [if_neg short, ofText]
  · next missing =>
    rw [read] at missing
    split at missing
    · next long =>
      rw [if_pos long, ofText_of_not_mem, map_cons]
      simpa using absent (by decide)
    · cases missing

end Segment

namespace Message

variable {board : Scoreboard} {target : String}

theorem pushAll_plain {index : Nat} {message : Message} {start : String}
    (isText : message.terms = [.text start]) (text : List Char) :
    message.pushAll board target index (text.map .plain) =
      { message with terms := [.text (start ++ String.ofList text)] } := by
  induction text generalizing message start with
  | nil => simp [pushAll, ← isText]
  | cons c text ih =>
    have pushed : message.pushText (String.singleton c) =
        { message with terms := [.text (start ++ String.singleton c)] } := by
      simp [pushText, isText]
    rw [map_cons, pushAll, pushed, ih rfl, String.append_assoc]
    congr
    exact String.ext (by simp)

theorem ofText_plain {text : String} {c : Char} {rest : List Char} (isText : text.toList = c :: rest)
    (plain : Segment.ofText text.toList = text.toList.map .plain) :
    ofText board target text = { terms := [.text text] } := by
  have pushed : ({} : Message).pushText (String.singleton c) = { terms := [.text (String.singleton c)] } := rfl
  rw [ofText, plain, isText, map_cons, pushAll, pushed, pushAll_plain rfl]
  congr
  exact String.ext (by simp [isText])

end Message

theorem Text.length_upper_of_ascii {text : String} (ascii : ∀ c ∈ text.toList, c.toNat < 128) :
    (Text.upper text).length = text.length := by
  have single : ∀ c ∈ text.toList, (upperChar c).length = 1 := fun c member => by
    rw [upperChar, if_pos (ascii c member), length_singleton]
  rw [← String.length_toList, upper, String.toList_ofList, length_flatMap, map_congr_left single]
  simp [String.length_toList]

/-- The name of a counter, or of a field of one, is shown as the counter if it has at most sixteen
characters, and as it is written otherwise. The names of counters themselves are never longer, if they
are ASCII; those of fields may be. -/
theorem names_shown_iff_short {board : Scoreboard} (reached : board.Reached) {accessor : String}
    {counter : Counter} (found : board.get? accessor = some counter)
    (isAccessor : ∀ c ∈ accessor.toList, Segment.isAccessorChar c = true) (target : String) :
    let text := "\x7b" ++ accessor ++ "\x7d"
    let isShort := accessor ≠ "" ∧ accessor.length ≤ Segment.greatestAccessor
    (isShort → Message.ofText board target text =
      ⟨counter.display target 0, counter.displaySetup target 0, true⟩) ∧
    (¬isShort → Message.ofText board target text = ⟨[.text text], [], false⟩) ∧
    (board.counters.get? (Text.upper accessor) = some counter →
      (∀ c ∈ counter.name.toList, c.toNat < 128) → accessor.length ≤ Segment.greatestAccessor) := by
  intro text isShort
  have braces : text.toList = '\x7b' :: accessor.toList ++ ['\x7d'] := by simp [text]
  have segments := ofText_braces isAccessor
  rw [← braces] at segments
  have isLong : (accessor.toList.isEmpty || greatestAccessor < accessor.toList.length) = true ↔
      ¬isShort := by
    simp [isShort, imp_iff_not_or, ← String.length_toList]
  refine ⟨fun short => ?_, fun long => ?_, fun isCounter ascii => ?_⟩
  · rw [if_neg (mt isLong.1 (not_not_intro short))] at segments
    rw [Message.ofText, segments]
    simp [Message.pushAll, found]
  · rw [if_pos (isLong.2 long)] at segments
    exact Message.ofText_plain braces segments
  · obtain ⟨same, short⟩ := reached.name isCounter
    have asciiAccessor : ∀ c ∈ accessor.toList, c.toNat < 128 := fun c member =>
      ascii_of_isAccessorChar (isAccessor c member)
    rw [← Text.length_upper_of_ascii asciiAccessor, ← same, Text.length_upper_of_ascii ascii]
    exact short

def Landmark.point : RecordType := RecordType.addField ⟨"point", []⟩ "longfieldname" .int

def Landmark.spot : Counter := ⟨"point", point.kind⟩

def Landmark.board : Scoreboard := (Scoreboard.defineRecord {} point).addCounter spot

/-- The field of a counter is not shown if its name is long. -/
theorem names_shown_iff_short_landmark :
    Message.ofText Landmark.board selfTarget "\x7bpoint:longfieldname\x7d" =
      ⟨[.text "\x7bpoint:longfieldname\x7d"], [], false⟩ := by
  have accepted : (Scoreboard.defineRecord {} Landmark.point).define Landmark.spot = .ok Landmark.board := rfl
  have reached : Landmark.board.Reached := .define (.defineRecord .empty Landmark.point) accepted
  have found : Landmark.board.get? "point:longfieldname" = some ⟨"point:a", .int⟩ := by decide +kernel
  exact (names_shown_iff_short reached found (all_eq_true.1 rfl) selfTarget).2.1 (by decide)

end ScriptPack
