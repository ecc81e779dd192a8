import ScriptPack.Proofs.Conditions

/-!
The grammar of conditions. A condition is a chain of tests joined by `and`, each after any number of
negations. Behind its last test it may also end with an `and` and an even number of negations.
-/

namespace ScriptPack

namespace Comparison

variable {board : Scoreboard} {negated : Bool} {first token : Token} {tokens rest others : List Token}
  {test : Test} {chain : List Comparison}

/-- Tests joined by `and`, each after any number of negations, up to a rest of the tokens with which
the condition may end. Where an odd number of negations stands before the first test, what is
spelled is its negation. -/
inductive Spells (board : Scoreboard) (MayEnd : List Token → Prop) :
    Bool → List Token → List Comparison → Prop where
  | negation {negated : Bool} {token : Token} {tokens : List Token} {chain : List Comparison} :
      token.kind = .negation → Spells board MayEnd (!negated) tokens chain →
        Spells board MayEnd negated (token :: tokens) chain
  | last {negated : Bool} {tokens rest : List Token} {test : Test} :
      readTest board tokens = .ok (test, rest) → MayEnd rest →
        Spells board MayEnd negated tokens [⟨test, negated⟩]
  | joint {negated : Bool} {tokens : List Token} {test : Test} {joint : Token} {rest : List Token}
      {chain : List Comparison} :
      readTest board tokens = .ok (test, joint :: rest) → joint.kind = .both →
        Spells board MayEnd false rest chain →
          Spells board MayEnd negated tokens (⟨test, negated⟩ :: chain)

/-- Nothing, or an `and` with an even number of negations behind it. -/
def IsIdle (rest : List Token) : Prop :=
  rest = [] ∨ ∃ joint negations, rest = joint :: negations ∧ joint.kind = .both ∧
    (∀ token ∈ negations, Token.kind token = .negation) ∧ negations.length % 2 = 0

theorem readChain_eq_nil_iff : readChain board negated tokens = .ok [] ↔
    (∀ token ∈ tokens, Token.kind token = .negation) ∧ tokens.length % 2 = negated.toNat := by
  induction tokens generalizing negated with
  | nil => cases negated <;> simp [readChain]
  | cons token tokens ih =>
    rw [List.forall_mem_cons, List.length_cons]
    by_cases isNegation : token.kind = .negation
    · rw [readChain_negation isNegation, ih]
      cases negated <;> simp [isNegation] <;> omega
    · simp [readChain_eq_ok_iff isNegation, isNegation]

theorem readChain_of_readTest (read : readTest board tokens = .ok (test, rest)) :
    readChain board negated tokens = .ok chain ↔
      rest = [] ∧ chain = [⟨test, negated⟩] ∨ ∃ joint later tail, rest = joint :: later ∧
        joint.kind = .both ∧ readChain board false later = .ok tail ∧
        chain = ⟨test, negated⟩ :: tail := by
  cases tokens with
  | nil => cases read
  | cons first others =>
    have notNegation : first.kind ≠ .negation := by
      intro isNegation
      simp [readTest, isNegation] at read
    rw [readChain_eq_ok_iff notNegation]
    simp [read]

theorem spells_of_readChain (read : readChain board negated tokens = .ok chain)
    (nonempty : chain ≠ []) : Spells board IsIdle negated tokens chain := by
  fun_induction readChain board negated tokens generalizing chain with
  | case1 => cases read
  | case2 => exact absurd (Except.ok.inj read).symm nonempty
  | case3 _ _ _ ih => exact .negation rfl (ih read nonempty)
  | case4 => cases read
  | case5 _ _ _ _ _ readTest =>
    cases read
    exact .last readTest (.inl rfl)
  | case6 _ _ _ _ test joint rest readTest isJoint ih =>
    obtain ⟨tail, readTail, returned⟩ := exists_ok_of_bind read
    cases returned
    by_cases ended : tail = []
    · subst ended
      exact .last readTest (.inr ⟨joint, rest, rfl, isJoint, readChain_eq_nil_iff.1 readTail⟩)
    · exact .joint readTest isJoint (ih readTail ended)
  | case7 => cases read

/-- The conditions that are read are the ones that the grammar spells, and they are read as it
spells them. -/
theorem condition_read_iff_spelled :
    readChain board negated tokens = .ok chain ∧ chain ≠ [] ↔
      Spells board IsIdle negated tokens chain := by
  refine ⟨fun read => spells_of_readChain read.1 read.2, fun spelled => ?_⟩
  induction spelled with
  | negation isNegation _ ih => exact ⟨(readChain_negation isNegation).trans ih.1, ih.2⟩
  | last read idle =>
    refine ⟨(readChain_of_readTest read).2 ?_, List.cons_ne_nil _ _⟩
    exact idle.imp (⟨·, rfl⟩) fun ⟨joint, negations, isRest, isJoint, isIdle⟩ =>
      ⟨joint, negations, [], isRest, isJoint, readChain_eq_nil_iff.2 isIdle, rfl⟩
  | joint read isJoint _ ih =>
    exact ⟨(readChain_of_readTest read).2 (.inr ⟨_, _, _, rfl, isJoint, ih.1, rfl⟩),
      List.cons_ne_nil _ _⟩

end Comparison

end ScriptPack
