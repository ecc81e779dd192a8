import ScriptPack.Proofs.SourceLines

/-!
Lines of tokens. A text is taken apart into pieces, one for each place where something is read; a token
starts where its piece does. Main result: the line of a token is one more than the line breaks between
the tokens before it. Those inside of tokens are not counted.
-/

namespace ScriptPack

open List

namespace Token

/-- What is read at one place of a text: its characters, and the token that they are if any. -/
structure Piece where
  spelling : List Char
  kind? : Option TokenKind

def Piece.lines (piece : Piece) : Nat :=
  if piece.kind?.isSome then 0 else countLines piece.spelling

/-- A text taken apart into what is read at one place after the other, up to the first fault. -/
def pieces (gap : Bool) (text : List Char) : List Piece :=
  match text with
  | [] => []
  | c :: rest =>
      match _found : readLexeme gap c rest with
      | .error _ => []
      | .ok lexeme =>
          ⟨c :: rest.take (rest.length - lexeme.rest.length), lexeme.kind?⟩ ::
            pieces lexeme.gap lexeme.rest
termination_by text.length
decreasing_by
  have := readLexeme_length _found
  simp only [length_cons]
  omega

def spelled (pieces : List Piece) : List Char :=
  pieces.flatMap Piece.spelling

/-- Line breaks between tokens. -/
def linesOf (pieces : List Piece) : Nat :=
  pieces.foldr (fun piece lines => piece.lines + lines) 0

/-- The tokens among pieces, the first of which starts on the line. -/
def placed (line : Nat) : List Piece → List Token
  | [] => []
  | piece :: rest => (piece.kind?.map (Token.mk · line)).toList ++ placed (line + piece.lines) rest

variable {gap : Bool} {c : Char} {rest : List Char} {lexeme : Lexeme}

theorem pieces_of_ok (read : readLexeme gap c rest = .ok lexeme) :
    ∃ passed, rest = passed ++ lexeme.rest ∧ lexeme.lines = Piece.lines ⟨c :: passed, lexeme.kind?⟩ ∧
      pieces gap (c :: rest) = ⟨c :: passed, lexeme.kind?⟩ :: pieces lexeme.gap lexeme.rest := by
  obtain ⟨passed, same, counted⟩ := isRead_lexeme read
  refine ⟨passed, same, counted, ?_⟩
  have taken : rest.take (rest.length - lexeme.rest.length) = passed := by simp [same]
  rw [pieces]
  split
  · simp_all
  · rename_i found read'
    cases read'.symm.trans read
    rw [← taken]

/-- A text that can be read consists of its pieces, and they give its tokens. -/
theorem scan_pieces {line last : Nat} {text : List Char} {tokens : List Token}
    (scanned : scan line gap text = .ok (tokens, last)) :
    spelled (pieces gap text) = text ∧ tokens = placed line (pieces gap text) := by
  induction line, gap, text using scan_induction generalizing tokens with
  | nil line gap =>
    rw [scan] at scanned
    cases scanned
    simp [pieces, placed, spelled]
  | error line gap c rest fault read =>
    rw [scan_of_error read] at scanned
    cases scanned
  | ok line gap c rest lexeme read ih =>
    obtain ⟨passed, same, counted, taken⟩ := pieces_of_ok read
    rw [scan_of_ok read] at scanned
    obtain ⟨others, found, equal⟩ := map_eq_ok.1 scanned
    cases equal
    obtain ⟨spells, places⟩ := ih found
    rw [taken]
    constructor
    · rw [spelled, flatMap_cons, ← spelled, spells, same]
      rfl
    · rw [placed, places, ← counted]
      rfl

theorem kinds_placed (line : Nat) (pieces : List Piece) :
    (placed line pieces).map Token.kind = pieces.filterMap Piece.kind? := by
  induction pieces generalizing line with
  | nil => rfl
  | cons piece rest ih =>
    rw [placed, map_append, ih, filterMap_cons]
    cases piece.kind? <;> rfl

theorem placed_append (line : Nat) (earlier later : List Piece) :
    placed line (earlier ++ later) = placed line earlier ++ placed (line + linesOf earlier) later := by
  induction earlier generalizing line with
  | nil => rfl
  | cons piece rest ih =>
    rw [cons_append, placed, placed, ih, append_assoc, linesOf, linesOf, foldr_cons, Nat.add_assoc]

theorem linesOf_le (pieces : List Piece) : linesOf pieces ≤ countLines (spelled pieces) ∧
    (linesOf pieces = countLines (spelled pieces) ↔
      ∀ piece ∈ pieces, piece.kind?.isSome = true → '\n' ∉ piece.spelling) := by
  induction pieces with
  | nil => simp [linesOf, spelled, countLines]
  | cons piece rest ih =>
    have first : piece.lines ≤ countLines piece.spelling ∧ (piece.lines = countLines piece.spelling ↔
        (piece.kind?.isSome = true → '\n' ∉ piece.spelling)) := by
      unfold Piece.lines
      split
      · rw [countLines, eq_comm, count_eq_zero]
        simp_all
      · simp_all
    rw [forall_mem_cons, ← ih.2, ← first.2]
    simp only [linesOf, spelled, countLines, foldr_cons, flatMap_cons, count_append] at ih first ⊢
    omega

/-- The pieces of a text that can be read are all of it, and its tokens are those among them. The line
of a token is one more than the line breaks between the tokens before it. So it is the true one exactly
if no token before it has a line break inside, which can stand in a quoted text after a backslash. -/
theorem token_lines_counted {source : String} {tokens : List Token}
    (read : readAll source = .ok tokens) :
    spelled (pieces true source.toList) = source.toList ∧
    tokens.map Token.kind = (pieces true source.toList).filterMap Piece.kind? ∧
    ∀ earlier piece later kind, pieces true source.toList = earlier ++ piece :: later →
      piece.kind? = some kind → ∃ line,
        tokens[(earlier.filterMap Piece.kind?).length]? = some ⟨kind, line⟩ ∧
        line = 1 + linesOf earlier ∧ line ≤ 1 + countLines (spelled earlier) ∧
        (line = 1 + countLines (spelled earlier) ↔
          ∀ other ∈ earlier, other.kind?.isSome = true → '\n' ∉ other.spelling) := by
  obtain ⟨found, scanned, rfl⟩ := map_eq_ok.1 read
  obtain ⟨spells, places⟩ := scan_pieces scanned
  rw [places]
  refine ⟨spells, kinds_placed 1 _, fun earlier piece later kind split isToken => ?_⟩
  obtain ⟨below, exactly⟩ := linesOf_le earlier
  refine ⟨1 + linesOf earlier, ?_, rfl, by omega, by rw [← exactly]; omega⟩
  rw [split, placed_append, placed, isToken, ← kinds_placed 1 earlier, length_map,
    getElem?_append_right (Nat.le_refl _), Nat.sub_self]
  rfl

set_option maxRecDepth 20000 in
/-- A line break after a backslash in a quoted text is not counted: the token after the text stands on
the second line and gets the first. -/
theorem token_lines_counted_escape :
    readAll "\"a\\\nb\" c" = .ok [⟨.literal (.text "a\\\nb"), 1⟩, ⟨.word "c", 1⟩] ∧
      ∃ earlier later, pieces true "\"a\\\nb\" c".toList = earlier ++ ⟨['c'], some (.word "c")⟩ :: later ∧
        1 ≠ 1 + countLines (spelled earlier) ∧
        ¬∀ other ∈ earlier, other.kind?.isSome = true → '\n' ∉ other.spelling := by
  have read : readAll "\"a\\\nb\" c" = .ok [⟨.literal (.text "a\\\nb"), 1⟩, ⟨.word "c", 1⟩] := by
    cbv
  have split : pieces true "\"a\\\nb\" c".toList =
      [⟨"\"a\\\nb\"".toList, some (.literal (.text "a\\\nb"))⟩, ⟨[' '], none⟩] ++
        ⟨['c'], some (.word "c")⟩ :: [] := by
    cbv
  obtain ⟨line, found, -, -, exactly⟩ := (token_lines_counted read).2.2 _ _ _ _ split rfl
  cases found
  have late : 1 ≠ 1 + countLines (spelled
      [⟨"\"a\\\nb\"".toList, some (.literal (.text "a\\\nb"))⟩, ⟨[' '], none⟩]) := by
    decide
  exact ⟨read, _, _, split, late, fun all => late (exactly.2 all)⟩

end Token

end ScriptPack
