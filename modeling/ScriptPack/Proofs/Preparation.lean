import ScriptPack.Proofs.Emission

/-!
From the tokens of a statement to evaluated ones. Names of counters are bound to the counters, and
then every expression is evaluated. For a statement without calls, what it spells out determines
what the evaluated tokens stand for.
-/

namespace ScriptPack

open List

variable {board : Scoreboard} {phrase : Phrase Atom} {tokens : List Token}

/-- An operand of an integer expression as it is written: a number or the name of a counter. -/
inductive Atom where
  | number (value : Int32)
  | counter (accessor : String)
deriving DecidableEq

namespace Scoreboard

variable {accessor : String} {counter : Counter}

/-- An integer-like counter that no temporary can take the place of, whatever has been asked for. -/
structure Holds (board : Scoreboard) (accessor : String) (counter : Counter) : Prop where
  found : board.get? accessor = some counter
  simple : counter.kind.isIntegerLike = true
  accessor_free : ¬IsReserved accessor
  name_free : ¬IsReserved counter.name

theorem Holds.names (holds : board.Holds accessor counter) : board.Names accessor counter :=
  names_of_not_isReserved holds.found holds.simple holds.accessor_free holds.name_free

def scoreOf (board : Scoreboard) (scores : Scores) (accessor : String) : Int32 :=
  match board.get? accessor with
  | some counter => scores counter.name
  | none => 0

def counterOf (board : Scoreboard) (accessor : String) : Counter :=
  (board.get? accessor).getD ⟨accessor, .int⟩

theorem Names.scoreOf_eq (names : board.Names accessor counter) (scores : Scores) :
    board.scoreOf scores accessor = scores counter.name := by
  rw [scoreOf, names.found]

theorem Holds.pushScope (holds : board.Holds accessor counter) : board.pushScope.Holds accessor counter :=
  ⟨holds.found, holds.simple, holds.accessor_free, holds.name_free⟩

end Scoreboard

def Value.score : Value → Int32
  | int value => value
  | bool value => if value then 1 else 0
  | _ => 0

def Operand.valueIn (board : Scoreboard) (scores : Scores) : Operand → Int32
  | literal value => value.score
  | counter accessor => board.scoreOf scores accessor

namespace Atom

def written : Atom → TokenKind
  | number value => .literal (.int value)
  | counter accessor => .word accessor

def bound : Atom → TokenKind
  | number value => .literal (.int value)
  | counter accessor => .counter accessor

def value (board : Scoreboard) (scores : Scores) : Atom → Int32
  | number value => value
  | counter accessor => board.scoreOf scores accessor

def source : Atom → Source
  | number _ => .constant
  | counter accessor => .counter accessor

def quantity (board : Scoreboard) (scores : Scores) (atom : Atom) : Quantity :=
  ⟨atom.value board scores, atom.source⟩

def IsHeld (board : Scoreboard) : Atom → Prop
  | number _ => True
  | counter accessor => ∃ counter, board.Holds accessor counter

variable {atom : Atom}

theorem IsHeld.pushScope (held : atom.IsHeld board) : atom.IsHeld board.pushScope := by
  cases atom with
  | number value => trivial
  | counter accessor =>
    obtain ⟨counter, holds⟩ := held
    exact ⟨counter, holds.pushScope⟩

theorem value_pushScope (board : Scoreboard) (scores : Scores) :
    value board.pushScope scores = value board scores := by
  funext atom
  cases atom <;> rfl

theorem denotes_bound (held : atom.IsHeld board) (scores : Scores) :
    atom.bound.Denotes board scores (.quantity (atom.quantity board scores)) := by
  cases atom with
  | number value => exact .literal value
  | counter accessor =>
    obtain ⟨counter, holds⟩ := held
    rw [quantity, value, holds.names.scoreOf_eq]
    exact .counter holds.names

end Atom

open Atom

def TokenKind.isSeparator : TokenKind → Bool
  | assign _ | compare _ | both | negation => true
  | _ => false

namespace Build

variable {build : Build} {resolves : Bool}

/-- A token of the one kind becomes one of the other. -/
def Binds (build : Build) (kind bound : TokenKind) : Prop :=
  ∀ resolves line, build.bindToken resolves ⟨kind, line⟩ = .ok [⟨bound, line⟩]

theorem binds_counter {accessor : String} {counter : Counter}
    (names : build.scoreboard.Names accessor counter) :
    build.Binds (.word accessor) (.counter accessor) := by
  intro resolves line
  have known : build.scoreboard.contains accessor = true := by
    rw [Scoreboard.contains, names.found]
    rfl
  simp [bindToken, bindName, known]

theorem bindTokens_of_binds {kinds : List TokenKind}
    (binds : Forall₂ build.Binds (tokens.map Token.kind) kinds) :
    ∃ bound, build.bindTokens resolves tokens = .ok bound ∧ bound.map Token.kind = kinds := by
  have each : ∃ bound : List Token, tokens.mapM (build.bindToken resolves) =
      .ok (bound.map fun token => [token]) ∧ bound.map Token.kind = kinds := by
    induction tokens generalizing kinds with
    | nil =>
      cases binds
      exact ⟨[], rfl, rfl⟩
    | cons token tokens ih =>
      obtain ⟨kind, others, first, rest, rfl⟩ := forall₂_cons_left_iff.1 binds
      obtain ⟨bound, boundRest, rfl⟩ := ih rest
      refine ⟨⟨kind, token.line⟩ :: bound, ?_, rfl⟩
      rw [mapM_cons, first, boundRest]
      rfl
  obtain ⟨bound, isBound, isKinds⟩ := each
  refine ⟨bound, ?_, isKinds⟩
  rw [bindTokens, isBound]
  exact congrArg Except.ok (flatMap_singleton' bound)

/-- The token binds, and not to a routine. -/
def BindsPlainly (build : Build) (kind bound : TokenKind) : Prop :=
  build.Binds kind bound ∧ ∀ name, bound ≠ .routine name

theorem notRoutine_of_binds {kinds bound : List TokenKind}
    (binds : Forall₂ build.BindsPlainly kinds bound) : ∀ kind ∈ bound, ∀ name, kind ≠ .routine name :=
  ((forall₂_and_left _ _).1 (Forall₂.flip (binds.imp fun _ _ plain => plain.symm))).1

theorem bindTokens_plainly {kinds : List TokenKind}
    (binds : Forall₂ build.BindsPlainly (tokens.map Token.kind) kinds) :
    ∃ bound, build.bindTokens resolves tokens = .ok bound ∧ bound.map Token.kind = kinds ∧
      ∀ token ∈ bound, ∀ name, token.kind ≠ .routine name := by
  obtain ⟨bound, isBound, rfl⟩ := bindTokens_of_binds (binds.imp fun _ _ => And.left)
  exact ⟨bound, isBound, rfl, forall_mem_map.1 (notRoutine_of_binds binds)⟩

end Build

namespace Expression

variable {α : Type} {level : Level} {leafKind : α → TokenKind} {e : Expression α level}

/-- What relates the leaves relates all tokens, if operators and parentheses are related to
themselves. -/
theorem forall₂_kinds {R : TokenKind → TokenKind → Prop} {otherKind : α → TokenKind}
    (leaves : ∀ leaf ∈ e.leaves, R (leafKind leaf) (otherKind leaf))
    (operators : ∀ op, R (.arith op) (.arith op)) (opening : R .openParen .openParen)
    (closing : R .closeParen .closeParen) : Forall₂ R (e.kinds leafKind) (e.kinds otherKind) := by
  induction e with
  | leaf leaf => exact .cons (leaves leaf mem_cons_self) .nil
  | group inner ih => exact .cons opening (rel_append (ih leaves) (.cons closing .nil))
  | factor inner ih | product inner ih => exact ih leaves
  | times left op _ right leftIh rightIh | plus left op _ right leftIh rightIh =>
    obtain ⟨leftLeaves, rightLeaves⟩ := forall_mem_append.1 leaves
    exact rel_append (leftIh leftLeaves) (.cons (operators op) (rightIh rightLeaves))

/-- The tokens of an expression stand for its symbols when its leaves do. -/
theorem denote_kinds {scores : Scores} {quantities : α → Quantity}
    (leaves : ∀ leaf ∈ e.leaves, (leafKind leaf).Denotes board scores (.quantity (quantities leaf))) :
    Forall₂ (TokenKind.Denotes board scores) (e.kinds leafKind) (e.symbols quantities) := by
  induction e with
  | leaf leaf => exact .cons (leaves leaf mem_cons_self) .nil
  | group inner ih => exact .cons .openParen (rel_append (ih leaves) (.cons .closeParen .nil))
  | factor inner ih | product inner ih => exact ih leaves
  | times left op _ right leftIh rightIh | plus left op _ right leftIh rightIh =>
    obtain ⟨leftLeaves, rightLeaves⟩ := forall_mem_append.1 leaves
    exact rel_append (leftIh leftLeaves) (.cons (.arith op) (rightIh rightLeaves))

end Expression

namespace Phrase

variable {α : Type} {phrases : List (Phrase Atom)}

def kinds (leafKind : α → TokenKind) : Phrase α → List TokenKind
  | mark kind => [kind]
  | operand e => e.kinds leafKind

def IsHeld (board : Scoreboard) : Phrase Atom → Prop
  | mark kind => kind.isSeparator = true
  | operand e => ∀ atom ∈ e.leaves, atom.IsHeld board

theorem IsHeld.takesArguments (held : phrase.IsHeld board) : phrase.takesArguments = false := by
  cases phrase with
  | mark kind => cases kind <;> simp_all [IsHeld, TokenKind.isSeparator, Phrase.takesArguments,
      BuildM.takesArguments]
  | operand e => rfl

theorem IsHeld.binds {build : Build} (held : phrase.IsHeld build.scoreboard) :
    Forall₂ build.BindsPlainly (phrase.kinds written) (phrase.kinds bound) := by
  cases phrase with
  | mark kind =>
    refine .cons ?_ .nil
    cases kind with
    | assign | compare | both | negation => exact ⟨fun _ _ => rfl, by simp⟩
    | _ => cases held
  | operand e =>
    refine e.forall₂_kinds (fun atom member => ?_) (fun _ => ⟨fun _ _ => rfl, by simp⟩)
      ⟨fun _ _ => rfl, by simp⟩ ⟨fun _ _ => rfl, by simp⟩
    have atomHeld := held atom member
    cases atom with
    | number value => exact ⟨fun _ _ => rfl, by simp [bound]⟩
    | counter accessor =>
      obtain ⟨counter, holds⟩ := atomHeld
      exact ⟨Build.binds_counter holds.names, by simp [bound]⟩

theorem result?_of_value {scores : Scores} {e : Expression Atom .sum}
    {value : Int32} (valued : e.value (Atom.value board scores) = some value) :
    (Phrase.operand e).result? (quantity board scores) =
      some (.quantity ⟨value, e.source source⟩) := by
  change ((e.value (Atom.value board scores)).map _).map _ = _
  rw [valued]
  rfl

theorem IsHeld.denotes (held : phrase.IsHeld board) (scores : Scores) :
    Forall₂ (TokenKind.Denotes board scores) (phrase.kinds bound)
      (phrase.symbols (quantity board scores)) := by
  cases phrase with
  | mark kind =>
    refine .cons (.mark ?_) .nil
    cases kind <;> simp_all [IsHeld, TokenKind.isSeparator, TokenKind.isMark]
  | operand e => exact e.denote_kinds fun atom member => denotes_bound (held atom member) scores

theorem denote_flatMap (held : ∀ phrase ∈ phrases, phrase.IsHeld board) (scores : Scores) :
    Forall₂ (TokenKind.Denotes board scores) (phrases.flatMap (kinds bound))
      (phrases.flatMap (symbols (quantity board scores))) := by
  induction phrases with
  | nil => exact .nil
  | cons phrase phrases ih =>
    obtain ⟨first, others⟩ := forall_mem_cons.1 held
    exact rel_append (first.denotes scores) (ih others)

theorem binds_flatMap {build : Build} (held : ∀ phrase ∈ phrases, phrase.IsHeld build.scoreboard) :
    Forall₂ build.BindsPlainly (phrases.flatMap (kinds written))
      (phrases.flatMap (kinds bound)) := by
  induction phrases with
  | nil => exact .nil
  | cons phrase phrases ih =>
    obtain ⟨first, others⟩ := forall_mem_cons.1 held
    exact rel_append first.binds (ih others)

end Phrase

namespace BuildM

variable {statement : Statement} {before : Build}

theorem evaluateCalls_of_noRoutine
    (noRoutine : ∀ token ∈ tokens, ∀ name, token.kind ≠ .routine name) (build : Build) :
    evaluateCalls tokens build = .ok tokens build := by
  induction tokens with
  | nil => rw [evaluateCalls, pure_apply]
  | cons first rest ih =>
    obtain ⟨notRoutine, others⟩ := forall_mem_cons.1 noRoutine
    rw [evaluateCalls]
    · rw [bind_of_ok (ih others), pure_apply]
    · intro name line inner kind
      exact absurd kind (notRoutine name)

def resolves (statement : Statement) : Bool :=
  match statement.kind with
  | .directive directive => directive.resolves
  | _ => true

def kept (statement : Statement) : Nat :=
  match statement.kind with
  | .call => 2
  | _ => 0

/-- Preparing a statement is evaluating the calls in its bound tokens and then the arithmetic. -/
theorem prepare_of_bindTokens
    (bound : before.bindTokens (resolves statement) statement.tokens = .ok tokens) :
    prepare statement before = (evaluateCalls (tokens.drop (kept statement)) >>= fun evaluated =>
      evaluateArithmetic (tokens.take (kept statement) ++ evaluated)) before := by
  unfold prepare
  rw [bind_of_ok (get_apply before)]
  change (ofExcept _ (before.bindTokens (resolves statement) statement.tokens) >>= _) before = _
  rw [bound]
  rfl

section

variable (noCall : statement.kind ≠ .call)

include noCall

theorem kept_of_ne_call : kept statement = 0 := by
  unfold kept
  split
  · contradiction
  · rfl

theorem prepare_of_bound (bound : before.bindTokens (resolves statement) statement.tokens = .ok tokens)
    (noRoutine : ∀ token ∈ tokens, ∀ name, token.kind ≠ .routine name) :
    prepare statement before = evaluateArithmetic tokens before := by
  rw [prepare_of_bindTokens bound, kept_of_ne_call noCall]
  exact bind_of_ok (evaluateCalls_of_noRoutine noRoutine before)

/-- What the tokens of a statement stand for once they have been prepared. -/
theorem prepare_spelled {phrases : List (Phrase Atom)} {results : List Token} {after : Build}
    (spelled : statement.tokens.map Token.kind = phrases.flatMap (Phrase.kinds written))
    (held : ∀ phrase ∈ phrases, phrase.IsHeld before.scoreboard)
    (self : before.active = .self) (noFrames : before.frames = [])
    (run : prepare statement before = .ok results after) :
    ∃ commands, before.Lowers after commands ∧
      ∀ scores symbols, Forall₂ (fun phrase symbol =>
          phrase.result? (quantity before.scoreboard scores) = some symbol) phrases symbols →
        ∃ later, Reaches before.scoreboard.nextTemporary commands scores later ∧
          DenoteAll after.scoreboard later results symbols := by
  obtain ⟨tokens, isBound, boundKinds, noRoutine⟩ :=
    Build.bindTokens_plainly (spelled ▸ Phrase.binds_flatMap held)
  rw [prepare_of_bound noCall isBound noRoutine] at run
  obtain ⟨commands, lowers⟩ := evaluateArithmetic_lowers self noFrames run
  refine ⟨commands, lowers, fun scores symbols known => ?_⟩
  have denote : DenoteAll before.scoreboard scores tokens
      (phrases.flatMap (Phrase.symbols (quantity before.scoreboard scores))) :=
    forall₂_map_left_iff.1 (boundKinds ▸ Phrase.denote_flatMap held scores)
  obtain ⟨_, _, others, later, again, lowersAgain, reaches, denotes⟩ := evaluateArithmetic_evaluates denote
    symbols (foldArithmetic_phrases known fun phrase member => (held phrase member).takesArguments)
  cases run.symm.trans again
  cases lowers.unique lowersAgain
  exact ⟨later, reaches, denotes⟩

end

end BuildM

end ScriptPack
