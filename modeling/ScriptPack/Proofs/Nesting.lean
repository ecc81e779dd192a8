import Mathlib.Combinatorics.Enumerative.DyckWord
import ScriptPack.Build.Expression

/-!
Braces and parentheses, which close in the order in which they are opened. Main results: one is never
closed exactly if a stack of those that are open is not empty in the end, and what stands between a
parenthesis and the one that closes it is balanced.
-/

namespace ScriptPack

open List

/-! Braces alone, `U` for an opening and `D` for a closing one. -/

namespace Braces

def Balanced (braces : List DyckStep) : Prop :=
  ∃ word : DyckWord, word.toList = braces

def HasUnclosed (braces : List DyckStep) : Prop :=
  ∃ before after, braces = before ++ .U :: after ∧
    ∀ inside outside, after = inside ++ .D :: outside → ¬Balanced inside

/-- The height of a stack of open braces after some more. A closing brace takes the last one off,
if there is one. -/
def height (size : Nat) (braces : List DyckStep) : Nat :=
  braces.foldl (fun
    | size, .U => size + 1
    | size, .D => size - 1) size

/-- How many braces are open after some more, unless one of them closes nothing. -/
def climb : Nat → List DyckStep → Option Nat
  | depth, [] => some depth
  | depth, .U :: rest => climb (depth + 1) rest
  | depth + 1, .D :: rest => climb depth rest
  | 0, .D :: _ => none

/-- The brace below so many others is never closed. -/
def Unclosed (depth : Nat) (braces : List DyckStep) : Prop :=
  ∀ inside outside, braces = inside ++ .D :: outside → climb depth inside ≠ some 0

variable {braces inside : List DyckStep} {depth final : Nat} {step : DyckStep}

theorem climb_eq_some_iff : climb depth braces = some final ↔
    depth + braces.count .U = final + braces.count .D ∧
      ∀ length, (braces.take length).count .D ≤ depth + (braces.take length).count .U := by
  induction braces generalizing depth with
  | nil => simp [climb]
  | cons step braces ih =>
    rw [← Nat.and_forall_add_one]
    cases step with
    | U =>
      rw [climb, ih]
      simp only [take_succ_cons, count_cons_self, count_cons_of_ne (show DyckStep.U ≠ .D by decide)]
      grind
    | D =>
      simp only [take_succ_cons, count_cons_self, count_cons_of_ne (show DyckStep.D ≠ .U by decide)]
      cases depth with
      | zero => simpa [climb] using fun _ => ⟨0, by simp⟩
      | succ depth =>
        rw [climb, ih]
        grind

theorem balanced_iff : Balanced braces ↔ climb 0 braces = some 0 := by
  rw [climb_eq_some_iff]
  constructor
  · rintro ⟨word, rfl⟩
    simpa using And.intro word.count_U_eq_count_D word.count_D_le_count_U
  · rintro ⟨same, below⟩
    exact ⟨⟨braces, by simpa using same, by simpa using below⟩, rfl⟩

theorem Balanced.closes {before partly : List DyckStep} (balanced : Balanced (before ++ .U :: partly))
    (block : Balanced inside) : ¬partly <+: inside := by
  rintro ⟨rest, rfl⟩
  rw [balanced_iff, climb_eq_some_iff] at balanced block
  have first := balanced.2 before.length
  have second := block.2 partly.length
  have all := balanced.1
  rw [take_left] at first second
  simp only [count_append, count_cons_self,
    count_cons_of_ne (show DyckStep.U ≠ .D by decide)] at all
  omega

/-! What is never closed. -/

theorem unclosed_nil : Unclosed depth [] :=
  fun inside _ split => by cases inside <;> cases split

theorem unclosed_cons : Unclosed depth (step :: braces) ↔ (step = .D → depth ≠ 0) ∧
    ∀ inside outside, braces = inside ++ .D :: outside → climb depth (step :: inside) ≠ some 0 := by
  constructor
  · intro unclosed
    refine ⟨?_, fun inside outside split => unclosed (step :: inside) outside (congrArg _ split)⟩
    rintro rfl rfl
    exact unclosed [] braces rfl rfl
  · rintro ⟨first, others⟩ (_ | ⟨other, inside⟩) outside split
    · cases split
      simpa [climb] using first rfl
    · cases split
      exact others inside outside rfl

@[simp]
theorem unclosed_up : Unclosed depth (.U :: braces) ↔ Unclosed (depth + 1) braces :=
  unclosed_cons.trans (and_iff_right nofun)

@[simp]
theorem unclosed_down : Unclosed (depth + 1) (.D :: braces) ↔ Unclosed depth braces :=
  unclosed_cons.trans (and_iff_right fun _ => Nat.succ_ne_zero depth)

theorem not_unclosed_zero : ¬Unclosed 0 (.D :: braces) :=
  fun unclosed => unclosed [] braces rfl rfl

theorem hasUnclosed_cons :
    HasUnclosed (step :: braces) ↔ HasUnclosed braces ∨ step = .U ∧ Unclosed 0 braces := by
  simp only [Unclosed, ne_eq, ← balanced_iff]
  constructor
  · rintro ⟨_ | ⟨first, before⟩, after, split, unclosed⟩
    · cases split
      exact .inr ⟨rfl, unclosed⟩
    · cases split
      exact .inl ⟨before, after, rfl, unclosed⟩
  · rintro (⟨before, after, rfl, unclosed⟩ | ⟨rfl, unclosed⟩)
    · exact ⟨step :: before, after, rfl, unclosed⟩
    · exact ⟨[], braces, rfl, unclosed⟩

/-- What is on the stack in the end has been on it from the start or is one of the braces, and has not
been closed. -/
theorem height_pos_iff (size : Nat) : 0 < height size braces ↔
    HasUnclosed braces ∨ ∃ depth < size, Unclosed depth braces := by
  induction braces generalizing size with
  | nil => simpa [height, HasUnclosed, unclosed_nil] using ⟨fun positive => ⟨0, positive⟩, by grind⟩
  | cons step braces ih =>
    rw [hasUnclosed_cons]
    cases step with
    | U =>
      refine (ih (size + 1)).trans ?_
      simp only [unclosed_up, Nat.exists_lt_succ_left, true_and, or_assoc]
    | D =>
      refine (ih (size - 1)).trans ?_
      cases size with
      | zero => simp
      | succ size =>
        rw [Nat.exists_lt_succ_left]
        simp [not_unclosed_zero]

/-- A brace is never closed exactly where the stack is not empty in the end. -/
theorem hasUnclosed_iff : HasUnclosed braces ↔ 0 < height 0 braces := by
  simp [height_pos_iff]

end Braces

open Braces

/-! Parentheses among other tokens. -/

def TokenKind.paren? : TokenKind → Option DyckStep
  | openParen => some .U
  | closeParen => some .D
  | _ => none

/-- As many parentheses are closed as opened, and none that is open before. -/
def Balanced (kinds : List TokenKind) : Prop :=
  Braces.Balanced (kinds.filterMap TokenKind.paren?)

variable {kinds : List TokenKind}

theorem balanced_nil : Balanced [] :=
  ⟨0, rfl⟩

theorem balanced_singleton {kind : TokenKind} (noParen : kind.paren? = none) : Balanced [kind] :=
  ⟨0, by rw [filterMap_cons_none noParen]; rfl⟩

theorem Balanced.append {first second : List TokenKind} (left : Balanced first)
    (right : Balanced second) : Balanced (first ++ second) := by
  obtain ⟨before, isFirst⟩ := left
  obtain ⟨after, isSecond⟩ := right
  refine ⟨before + after, ?_⟩
  rw [filterMap_append, ← isFirst, ← isSecond]
  rfl

theorem Balanced.parenthesized (inside : Balanced kinds) :
    Balanced (.openParen :: (kinds ++ [.closeParen])) := by
  obtain ⟨word, isInside⟩ := inside
  refine ⟨word.nest, ?_⟩
  rw [← cons_append, filterMap_append]
  exact congrArg (DyckStep.U :: · ++ [.D]) isInside

/-- The token between the two parts closes so many parentheses and one more. -/
def ClosesAt (depth : Nat) (tokens inside after : List Token) : Prop :=
  ∃ closing, tokens = inside ++ closing :: after ∧ closing.kind = .closeParen ∧
    climb depth ((inside.map Token.kind).filterMap TokenKind.paren?) = some 0

theorem closesAt_cons {depth inner : Nat} {token : Token} {rest after : List Token}
    (isInner : token.kind = .closeParen → depth ≠ 0)
    (climbs : ∀ others, climb depth (token.kind.paren?.toList ++ others) =
      climb inner others)
    (ih : ∀ inside, splitClose? inner rest = some (inside, after) ↔
      ClosesAt inner rest inside after) (inside : List Token) :
    splitClose?.keep token (splitClose? inner rest) = some (inside, after) ↔
      ClosesAt depth (token :: rest) inside after := by
  unfold ClosesAt at ih ⊢
  cases inside with
  | nil => simp +contextual [splitClose?.keep, climb, isInner]
  | cons first inside =>
    simp [splitClose?.keep, ih, ← climbs]
    grind

theorem splitClose?_iff_closesAt {depth : Nat} {tokens after : List Token} (inside : List Token) :
    splitClose? depth tokens = some (inside, after) ↔ ClosesAt depth tokens inside after := by
  fun_induction splitClose? depth tokens generalizing inside with
  | case1 depth => simp [ClosesAt]
  | case2 token rest isClosing =>
    cases inside with
    | nil => simp [ClosesAt, climb, isClosing]
    | cons first inside =>
      refine iff_of_false nofun ?_
      rintro ⟨closing, ⟨⟩, -, climbs⟩
      rw [map_cons, filterMap_cons, isClosing] at climbs
      cases climbs
  | case3 token rest depth isClosing ih =>
    exact closesAt_cons (fun _ => Nat.succ_ne_zero depth) (fun _ => by rw [isClosing]; rfl) ih inside
  | case4 depth token rest isOpening ih =>
    exact closesAt_cons (by simp [isOpening]) (fun _ => by rw [isOpening]; rfl) ih inside
  | case5 token rest depth notLast notInner notOpening ih =>
    have notClosing : token.kind ≠ .closeParen := by
      intro isClosing
      cases depth with
      | zero => exact notLast isClosing rfl
      | succ depth => exact notInner depth isClosing rfl
    have noParen : token.kind.paren? = none := by
      unfold TokenKind.paren?
      split <;> trivial
    exact closesAt_cons (absurd · notClosing) (fun _ => by rw [noParen]; rfl) ih inside

/-- The parenthesis after balanced tokens closes the one before them. -/
theorem splitClose?_eq_some_iff {tokens inside after : List Token} :
    splitClose? 0 tokens = some (inside, after) ↔ ∃ closing, tokens = inside ++ closing :: after ∧
      closing.kind = .closeParen ∧ Balanced (inside.map Token.kind) := by
  rw [splitClose?_iff_closesAt, ClosesAt]
  simp only [Balanced, balanced_iff]

end ScriptPack
