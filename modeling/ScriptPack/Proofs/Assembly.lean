import ScriptPack.Proofs.Nesting
import ScriptPack.Proofs.Steps

/-!
Statements assembled from tokens. No token is lost, only a brace that is never closed is refused,
and the size of every block leads to the brace that closes it. The size stays right in all lists of
statements that a run takes from the assembled one.
-/

namespace ScriptPack

open Braces BuildM List Option Piece Statement

variable {size : Nat} {first : Statement} {rest : List Statement} {before : Build}

def Token.brace? (token : Token) : Option DyckStep :=
  match token.kind with
  | .openBlock => some .U
  | .closeBlock => some .D
  | _ => none

def Token.braces (tokens : List Token) : List DyckStep :=
  tokens.filterMap brace?

namespace Piece

def brace? : Piece → Option DyckStep
  | words _ => none
  | opening _ => some .U
  | closing _ => some .D

def braces (pieces : List Piece) : List DyckStep :=
  pieces.filterMap brace?

def tokens : Piece → List Token
  | words tokens => tokens
  | opening line => [⟨.openBlock, line⟩]
  | closing line => [⟨.closeBlock, line⟩]

variable {pieces : List Piece} {depth size : Nat}

/-- The size leads to the brace that closes as many blocks and one more. -/
theorem bodySize?_eq_some (found : bodySize? depth pieces = some size) :
    climb depth (braces (pieces.take size)) = some 0 ∧
      ∃ line, pieces[size]? = some (.closing line) := by
  induction pieces generalizing depth size with
  | nil => cases found
  | cons piece pieces ih =>
    cases piece with
    | words tokens =>
      obtain ⟨before, foundBefore, rfl⟩ := map_eq_some_iff.1 found
      exact ih foundBefore
    | opening line =>
      obtain ⟨before, foundBefore, rfl⟩ := map_eq_some_iff.1 found
      exact ih foundBefore
    | closing line =>
      cases depth with
      | zero =>
        cases found
        exact ⟨rfl, line, rfl⟩
      | succ depth =>
        obtain ⟨before, foundBefore, rfl⟩ := map_eq_some_iff.1 found
        exact ih foundBefore

/-- Where no size is found, no brace closes as many blocks and one more. -/
theorem bodySize?_eq_none_iff :
    bodySize? depth pieces = none ↔ Braces.Unclosed depth (braces pieces) := by
  induction pieces generalizing depth with
  | nil => exact iff_of_true rfl unclosed_nil
  | cons piece pieces ih =>
    cases piece with
    | words tokens => exact map_eq_none_iff.trans ih
    | opening line => exact map_eq_none_iff.trans (ih.trans unclosed_up.symm)
    | closing line =>
      cases depth with
      | zero => exact iff_of_false nofun not_unclosed_zero
      | succ depth => exact map_eq_none_iff.trans (ih.trans unclosed_down.symm)

theorem tokens_ofTokens (pending tokens : List Token) :
    (ofTokens pending tokens).flatMap Piece.tokens = pending.reverse ++ tokens := by
  have flushed (pending : List Token) : (flush pending).flatMap Piece.tokens = pending.reverse := by
    unfold flush
    cases pending with
    | nil => rfl
    | cons token pending => exact append_nil _
  induction tokens generalizing pending with
  | nil => exact (flushed pending).trans (append_nil _).symm
  | cons token rest ih =>
    obtain ⟨kind, line⟩ := token
    unfold ofTokens
    split
    · rename_i isOpening
      cases isOpening
      rw [flatMap_append, flushed, flatMap_cons, ih]
      rfl
    · rename_i isClosing
      cases isClosing
      rw [flatMap_append, flushed, flatMap_cons, ih]
      rfl
    · split
      · split
        · rw [ih, reverse_cons, append_assoc]
          rfl
        · rw [flatMap_append, flushed, ih]
          rfl
      · rename_i isEmpty
        rw [head?_eq_none_iff.1 isEmpty, ih]
        rfl

theorem braces_ofTokens (pending tokens : List Token) :
    braces (ofTokens pending tokens) = Token.braces tokens := by
  have flushed (pending : List Token) (others : List Piece) :
      braces (flush pending ++ others) = braces others := by
    cases pending <;> rfl
  induction tokens generalizing pending with
  | nil => cases pending <;> rfl
  | cons token rest ih =>
    obtain ⟨kind, line⟩ := token
    unfold ofTokens
    split
    · rename_i isOpening
      cases isOpening
      rw [flushed]
      exact congrArg (.U :: ·) (ih [])
    · rename_i isClosing
      cases isClosing
      rw [flushed]
      exact congrArg (.D :: ·) (ih [])
    · rename_i noOpening noClosing
      have word : Token.brace? ⟨kind, line⟩ = none := by
        unfold Token.brace?
        split <;> trivial
      rw [Token.braces, filterMap_cons_none word, ← Token.braces]
      split
      · split
        · exact ih _
        · exact (flushed pending _).trans (ih _)
      · exact ih _

end Piece

namespace Statement

def brace? (statement : Statement) : Option DyckStep :=
  match statement.kind with
  | .openBlock _ => some .U
  | .closeBlock => some .D
  | _ => none

def braces (statements : List Statement) : List DyckStep :=
  statements.filterMap brace?

def Balanced (statements : List Statement) : Prop :=
  Braces.Balanced (braces statements)

def Sized (statements : List Statement) : Prop :=
  ∀ index opening size, statements[index]? = some opening → opening.size? = some size →
    (∃ closing, statements[index + size + 1]? = some closing ∧ closing.isCloseBlock = true) ∧
      Balanced ((statements.drop (index + 1)).take size)

/-- The tokens that a statement is read from. A directive has lost its keyword, and a brace is all
that there is. -/
def Spells (statement : Statement) (tokens : List Token) : Prop :=
  match statement.kind with
  | .openBlock _ => tokens = [⟨.openBlock, statement.line⟩] ∧ statement.tokens = []
  | .closeBlock => tokens = [⟨.closeBlock, statement.line⟩] ∧ statement.tokens = []
  | .directive directive => ∃ keyword, Directive.ofToken? keyword = some directive ∧
      tokens = ⟨keyword, statement.line⟩ :: statement.tokens
  | _ => tokens = statement.tokens

theorem sized_cons : Sized (first :: rest) ↔ (∀ size, first.size? = some size →
      (∃ closing, rest[size]? = some closing ∧ closing.isCloseBlock = true) ∧
        Balanced (rest.take size)) ∧ Sized rest := by
  constructor
  · intro sized
    refine ⟨fun size isSize => ?_, fun index opening size found isSize => ?_⟩
    · have here := sized 0 first size rfl isSize
      rwa [Nat.zero_add] at here
    · have later := sized (index + 1) opening size found isSize
      rwa [Nat.add_right_comm index 1 size] at later
  · rintro ⟨here, later⟩ index opening size found isSize
    cases index with
    | zero =>
      cases found
      rw [Nat.zero_add]
      exact here size isSize
    | succ index =>
      rw [Nat.add_right_comm index 1 size]
      exact later index opening size found isSize

theorem braces_eq_of_map_eq {pieces : List Piece} {statements : List Statement}
    (same : statements.map brace? = pieces.map Piece.brace?) :
    braces statements = Piece.braces pieces := by
  have mapped := congrArg (filterMap id) same
  rwa [filterMap_map, filterMap_map] at mapped

theorem brace?_ofWords (lines : List String) (tokens : List Token) :
    (ofWords lines tokens).brace? = none := by
  unfold ofWords
  split
  · rfl
  · dsimp only
    split
    · rfl
    · split <;> rfl

theorem ofWords_spells (lines : List String) (tokens : List Token) :
    (ofWords lines tokens).Spells tokens := by
  unfold ofWords
  split
  · rfl
  · dsimp only
    split
    · rename_i directive isDirective
      exact ⟨_, isDirective, rfl⟩
    · split <;> rfl

/-- The statement of a piece, given the pieces after it. -/
inductive OfPiece (lines : List String) (rest : List Piece) : Piece → Statement → Prop where
  | words (tokens : List Token) : OfPiece lines rest (.words tokens) (ofWords lines tokens)
  | opening (line : Nat) {size : Nat} (isSize : bodySize? 0 rest = some size) :
      OfPiece lines rest (.opening line) ⟨.openBlock size, [], line, lineText lines line⟩
  | closing (line : Nat) :
      OfPiece lines rest (.closing line) ⟨.closeBlock, [], line, lineText lines line⟩

variable {lines : List String} {piece : Piece} {pieces : List Piece} {statement : Statement}
  {statements : List Statement}

theorem ofPieces_cons (run : ofPieces lines (piece :: pieces) = .ok statements) :
    ∃ first rest, statements = first :: rest ∧ OfPiece lines pieces piece first ∧
      ofPieces lines pieces = .ok rest := by
  unfold ofPieces at run
  cases others : ofPieces lines pieces with
  | error line =>
    rw [others] at run
    cases run
  | ok rest =>
    rw [others] at run
    cases piece with
    | words tokens =>
      cases run
      exact ⟨_, rest, rfl, .words tokens, rfl⟩
    | opening line =>
      cases isSize : bodySize? 0 pieces with
      | none =>
        simp only [isSize] at run
        cases run
      | some size =>
        simp only [isSize] at run
        cases run
        exact ⟨_, rest, rfl, .opening line isSize, rfl⟩
    | closing line =>
      cases run
      exact ⟨_, rest, rfl, .closing line, rfl⟩

theorem OfPiece.brace?_eq (isStatement : OfPiece lines pieces piece statement) :
    statement.brace? = piece.brace? := by
  cases isStatement with
  | words tokens => exact brace?_ofWords lines tokens
  | opening line isSize => rfl
  | closing line => rfl

theorem OfPiece.spells (isStatement : OfPiece lines pieces piece statement) :
    statement.Spells piece.tokens := by
  cases isStatement with
  | words tokens => exact ofWords_spells lines tokens
  | opening line isSize => exact ⟨rfl, rfl⟩
  | closing line => exact ⟨rfl, rfl⟩

theorem map_brace?_ofPieces (run : ofPieces lines pieces = .ok statements) :
    statements.map brace? = pieces.map Piece.brace? := by
  induction pieces generalizing statements with
  | nil =>
    cases run
    rfl
  | cons piece pieces ih =>
    obtain ⟨first, rest, rfl, isFirst, others⟩ := ofPieces_cons run
    rw [map_cons, map_cons, isFirst.brace?_eq, ih others]

theorem ofPieces_spells (run : ofPieces lines pieces = .ok statements) :
    Forall₂ Spells statements (pieces.map Piece.tokens) := by
  induction pieces generalizing statements with
  | nil =>
    cases run
    exact .nil
  | cons piece pieces ih =>
    obtain ⟨first, rest, rfl, isFirst, others⟩ := ofPieces_cons run
    exact .cons isFirst.spells (ih others)

theorem brace?_of_size? (isSize : statement.size? = some size) : statement.brace? = some .U := by
  obtain ⟨kind, tokens, line, source⟩ := statement
  cases kind <;> cases isSize
  rfl

theorem isCloseBlock_of_brace? (isClosing : statement.brace? = some .D) :
    statement.isCloseBlock = true := by
  obtain ⟨kind, tokens, line, source⟩ := statement
  cases kind <;> cases isClosing
  rfl

theorem ofPieces_sized (run : ofPieces lines pieces = .ok statements) : Sized statements := by
  induction pieces generalizing statements with
  | nil =>
    cases run
    nofun
  | cons piece pieces ih =>
    obtain ⟨first, rest, rfl, isFirst, others⟩ := ofPieces_cons run
    refine sized_cons.2 ⟨fun size isSize => ?_, ih others⟩
    have same := map_brace?_ofPieces others
    cases isFirst with
    | words tokens => cases (brace?_of_size? isSize).symm.trans (brace?_ofWords lines tokens)
    | closing line => cases isSize
    | opening line found =>
      cases isSize
      obtain ⟨climbs, closingLine, closes⟩ := Piece.bodySize?_eq_some found
      constructor
      · have isClosing : (rest.map brace?)[size]? = some (some .D) := by
          rw [same, getElem?_map, closes]
          rfl
        rw [getElem?_map] at isClosing
        obtain ⟨closing, isStatement, isBrace⟩ := map_eq_some_iff.1 isClosing
        exact ⟨closing, isStatement, isCloseBlock_of_brace? isBrace⟩
      · have taken : (rest.take size).map brace? = (pieces.take size).map Piece.brace? := by
          rw [map_take, same, map_take]
        rw [Balanced, braces_eq_of_map_eq taken]
        exact balanced_iff.2 climbs

theorem ofPieces_eq_error_iff : (∃ line, ofPieces lines pieces = .error line) ↔
    Braces.HasUnclosed (Piece.braces pieces) := by
  induction pieces with
  | nil => simp [ofPieces, Piece.braces, Braces.HasUnclosed]
  | cons piece pieces ih =>
    have fails : (∃ line, ofPieces lines (piece :: pieces) = .error line) ↔
        (∃ line, ofPieces lines pieces = .error line) ∨
          ∃ line, piece = .opening line ∧ bodySize? 0 pieces = none := by
      rw [ofPieces]
      cases ofPieces lines pieces with
      | error line => simp [bind, Except.bind]
      | ok rest =>
        cases piece with
        | opening line =>
          cases bodySize? 0 pieces <;> simp [bind, Except.bind, pure, Except.pure]
        | _ => simp [bind, Except.bind, pure, Except.pure]
    rw [fails, ih, bodySize?_eq_none_iff]
    cases piece with
    | words tokens => exact or_iff_left (by simp)
    | _ => simp [Piece.braces, Piece.brace?, hasUnclosed_cons]

/-- A balanced part at the front of a list with right sizes has right sizes. -/
theorem Sized.take (sized : Sized statements) (balanced : Balanced (statements.take size)) :
    Sized (statements.take size) := by
  intro index opening inner found isSize
  obtain ⟨bound, isOpening⟩ := List.getElem?_eq_some_iff.1 found
  have inFront : index < size := Nat.lt_of_lt_of_le bound (length_take_le _ _)
  rw [getElem?_take_of_lt inFront] at found
  obtain ⟨⟨closing, isClosing, closes⟩, inside⟩ := sized index opening inner found isSize
  have inBounds : index + inner + 1 < size := by
    by_contra beyond
    have split : statements.take size = (statements.take size).take index ++
        opening :: (statements.take size).drop (index + 1) := by
      rw [← isOpening, ← drop_eq_getElem_cons bound, take_append_drop]
    rw [Balanced, split, braces, filterMap_append,
      filterMap_cons_some (brace?_of_size? isSize)] at balanced
    refine balanced.closes inside (IsPrefix.filterMap brace? ?_)
    rw [drop_take]
    exact take_prefix_take_left (by omega)
  refine ⟨⟨closing, ?_, closes⟩, ?_⟩
  · rwa [getElem?_take_of_lt inBounds]
  · rwa [drop_take, take_take, Nat.min_eq_left (by omega)]

theorem Sized.drop (sized : Sized statements) (count : Nat) : Sized (statements.drop count) := by
  induction count generalizing statements with
  | zero => exact sized
  | succ count ih =>
    cases statements with
    | nil => exact sized
    | cons first rest => exact ih (sized_cons.1 sized).2

/-- What stands behind an opening brace: the inside of the block, and the brace that closes it. -/
theorem Sized.split {opening : Statement}
    (sized : Sized (opening :: rest)) (isSize : opening.size? = some size) :
    ∃ inside closing outside, rest = inside ++ closing :: outside ∧ inside.length = size ∧
      closing.isCloseBlock = true ∧ Balanced inside := by
  obtain ⟨⟨closing, isClosing, closes⟩, balanced⟩ := (sized_cons.1 sized).1 size isSize
  obtain ⟨bound, isStatement⟩ := List.getElem?_eq_some_iff.1 isClosing
  refine ⟨rest.take size, closing, rest.drop (size + 1), ?_, ?_, closes, balanced⟩
  · rw [← isStatement, ← drop_eq_getElem_cons bound, take_append_drop]
  · rw [length_take, Nat.min_eq_left (Nat.le_of_lt bound)]

end Statement

theorem BuildM.takeBody_of_block (upcoming : before.upcoming = first :: rest)
    (isSize : first.size? = some (size + 1)) :
    takeBody before = .ok (rest.take (size + 1))
      { before with upcoming := rest.drop (size + 1 + 1) } :=
  takeBody_eq_ok_iff.2 ⟨first, rest, upcoming, .inr ⟨size, isSize, rfl, rfl⟩⟩

namespace Statement

variable {statements part : List Statement}

/-- The lists that a run comes to from a list of statements: it goes past statements, takes bodies
out of the list and goes on behind them, opens blocks, which may be skipped, and enters them. -/
inductive Reaches (statements : List Statement) : List Statement → Prop where
  | whole : Reaches statements statements
  | next {first : Statement} {rest : List Statement} (reached : Reaches statements (first :: rest)) :
      Reaches statements rest
  | body {before after : Build} {body : List Statement} (reached : Reaches statements before.upcoming)
      (took : takeBody before = .ok body after) : Reaches statements body
  | behind {before after : Build} {body : List Statement}
      (reached : Reaches statements before.upcoming)
      (took : takeBody before = .ok body after) : Reaches statements after.upcoming
  | opened {before : Build} {opening : Statement} {size : Nat}
      (reached : Reaches statements (opening :: before.upcoming))
      (isSize : opening.size? = some size) : Reaches statements (before.openBlock size).upcoming
  | entered {before : Build} (reached : Reaches statements before.upcoming) :
      Reaches statements before.enterBlock.upcoming

theorem sized_singleton (noBlock : first.size? = none) : Sized [first] :=
  sized_cons.2 ⟨fun _ isSize => absurd (noBlock.symm.trans isSize) nofun, nofun⟩

theorem Sized.takeBody {after : Build} {body : List Statement} (sized : Sized before.upcoming)
    (took : takeBody before = .ok body after) : Sized body ∧ Sized after.upcoming := by
  obtain ⟨first, rest, upcoming, ⟨noSize, rfl, rfl⟩ | ⟨size, isSize, rfl, rfl⟩⟩ :=
    takeBody_eq_ok_iff.1 took
  · rw [upcoming] at sized
    exact ⟨sized_singleton noSize, (sized_cons.1 sized).2⟩
  · rw [upcoming] at sized
    have sizedRest := (sized_cons.1 sized).2
    exact ⟨sizedRest.take ((sized_cons.1 sized).1 _ isSize).2, sizedRest.drop _⟩

end Statement

theorem Build.openBlock_upcoming (build : Build) (size : Nat) :
    (build.openBlock size).upcoming =
      if (build.pendingBlock.getD {}).skip then build.upcoming.drop size else build.upcoming := by
  obtain ⟨_, _, _, _, _, _, opened⟩ := build.openBlock_eq size
  rw [opened]

theorem Build.enterBlock_upcoming (build : Build) :
    build.enterBlock.upcoming = build.upcoming ∨ build.enterBlock.upcoming = build.upcoming.tail := by
  unfold enterBlock
  split
  · rename_i statement rest isUpcoming
    split
    · exact .inr (by rw [isUpcoming]; rfl)
    · exact .inl rfl
  · exact .inl rfl

namespace Statement

variable {statements part : List Statement}

theorem Reaches.sized (sized : Sized statements) (reached : Reaches statements part) : Sized part := by
  induction reached with
  | whole => exact sized
  | next reached ih => exact (sized_cons.1 ih).2
  | body reached took ih => exact (ih.takeBody took).1
  | behind reached took ih => exact (ih.takeBody took).2
  | opened reached isSize ih =>
    rw [Build.openBlock_upcoming]
    split
    · exact (sized_cons.1 ih).2.drop _
    · exact (sized_cons.1 ih).2
  | entered reached ih =>
    obtain same | passed := Build.enterBlock_upcoming _
    · rwa [same]
    · rw [passed, ← drop_one]
      exact ih.drop 1

end Statement

/-- Assembling tokens. It fails exactly if a brace is never closed, which a stack of open braces
tells. Otherwise the statements spell the tokens, and every block leads by its size to the brace
that closes it, in the whole list and in every list that a run comes to from it. So a block that is
skipped ends at its closing brace, and a body that is taken ends before it. -/
theorem assemble_spells_and_sizes (source : String) (tokens : List Token) :
    ((∃ fault, Statement.assemble source tokens = .error fault) ↔
      Braces.HasUnclosed (Token.braces tokens)) ∧
    (Braces.HasUnclosed (Token.braces tokens) ↔ 0 < Braces.height 0 (Token.braces tokens)) ∧
    ∀ statements, Statement.assemble source tokens = .ok statements →
      (∃ parts, List.Forall₂ Statement.Spells statements parts ∧ parts.flatten = tokens) ∧
      Statement.Sized statements ∧
      ∀ part, Statement.Reaches statements part → Statement.Sized part ∧
        ∀ (opening : Statement) (size : Nat) (build : Build), part = opening :: build.upcoming →
          opening.size? = some size →
          ∃ inside closing outside, build.upcoming = inside ++ closing :: outside ∧
            inside.length = size ∧ closing.isCloseBlock = true ∧
            (∀ hooks, build.pendingBlock = some hooks → hooks.skip = true →
              (build.openBlock size).upcoming = closing :: outside) ∧
            (0 < size → BuildM.takeBody { build with upcoming := part } =
              .ok inside { build with upcoming := outside }) := by
  have outcome : (∃ fault, assemble source tokens = .error fault) ↔
      ∃ line, ofPieces (sourceLines source) (ofTokens [] tokens) = .error line := by
    unfold assemble
    cases ofPieces (sourceLines source) (ofTokens [] tokens) with
    | ok statements => simp
    | error line => simp
  refine ⟨?_, hasUnclosed_iff, fun statements assembled => ?_⟩
  · rw [outcome, ofPieces_eq_error_iff, braces_ofTokens]
  · have pieces : ofPieces (sourceLines source) (ofTokens [] tokens) = .ok statements := by
      unfold assemble at assembled
      split at assembled
      · cases assembled
        assumption
      · cases assembled
    have sized := ofPieces_sized pieces
    refine ⟨⟨_, ofPieces_spells pieces, ?_⟩, sized, fun part reached => ?_⟩
    · rw [← flatMap_def, tokens_ofTokens]
      rfl
    · have sizedPart := reached.sized sized
      refine ⟨sizedPart, fun opening size build isPart isSize => ?_⟩
      subst isPart
      obtain ⟨inside, closing, outside, upcoming, length, closes, -⟩ := sizedPart.split isSize
      refine ⟨inside, closing, outside, upcoming, length, closes, fun hooks waits skips => ?_,
        fun positive => ?_⟩
      · rw [Build.openBlock_upcoming, waits, getD_some, if_pos skips, upcoming, drop_left' length]
      · obtain ⟨count, rfl⟩ := Nat.exists_eq_succ_of_ne_zero (Nat.ne_of_gt positive)
        have passed : (inside ++ closing :: outside).drop (count + 1 + 1) = outside := by
          rw [append_cons, drop_left' (by rw [length_append, length]; rfl)]
        rw [BuildM.takeBody_of_block rfl isSize, upcoming, take_left' length, passed]

def Token.nestedSample : List Token :=
  [.word "a", .openBlock, .word "b", .openBlock, .closeBlock, .word "c", .closeBlock,
    .closeBlock].map fun kind => ⟨kind, 1⟩

/-- The outer block has four statements inside, the inner one none, and the last brace closes
nothing. -/
theorem assemble_spells_and_sizes_nested :
    ∃ statements, Statement.assemble "" Token.nestedSample = .ok statements ∧
      statements.map Statement.kind = [.unknown, .openBlock 4, .unknown, .openBlock 0, .closeBlock,
        .unknown, .closeBlock, .closeBlock] ∧
      (∃ parts, List.Forall₂ Statement.Spells statements parts ∧
        parts.flatten = Token.nestedSample) ∧
      Statement.Balanced ((statements.drop 2).take 4) := by
  have kinds : (assemble "" Token.nestedSample).toOption.map (·.map kind) =
      some [.unknown, .openBlock 4, .unknown, .openBlock 0, .closeBlock, .unknown, .closeBlock,
        .closeBlock] := by
    decide +kernel
  obtain ⟨statements, isOk, isKinds⟩ := map_eq_some_iff.1 kinds
  have assembled : assemble "" Token.nestedSample = .ok statements := by
    cases outcome : assemble "" Token.nestedSample <;> rw [outcome] at isOk <;> cases isOk
    rfl
  obtain ⟨-, -, succeeds⟩ := assemble_spells_and_sizes "" Token.nestedSample
  obtain ⟨spells, sized, -⟩ := succeeds statements assembled
  have second : (statements.map kind)[1]? = some (.openBlock 4) := by
    rw [isKinds]
    rfl
  rw [getElem?_map] at second
  obtain ⟨opening, isOpening, isBlock⟩ := map_eq_some_iff.1 second
  have isSize : opening.size? = some 4 := by rw [size?, isBlock]
  exact ⟨statements, assembled, isKinds, spells, (sized 1 opening 4 isOpening isSize).2⟩

end ScriptPack
