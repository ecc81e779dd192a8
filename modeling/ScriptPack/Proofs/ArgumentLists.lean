import Mathlib.Tactic.FinCases
import ScriptPack.Proofs.RoutineCalls

/-!
Argument lists. The arguments of a call stand one after the other with nothing between them, and each
of them ends where its grammar does. Main result: they become as many operands, worth what the
arguments are worth before anything is computed, for a call that is a statement and for one inside
of an expression.
-/

namespace ScriptPack

open Assignment Atom BuildM Expression List Token

variable {before : Build} {scores : Scores} {arguments : List (Expression Atom .sum)}

/-- One operand for each argument, and commands that leave in it what the argument is worth. -/
def Build.Supplies (before after : Build) (scores : Scores) (arguments : List (Expression Atom .sum))
    (operands : List Operand) : Prop :=
  ∃ commands later, before.Lowers after commands ∧
    Reaches before.scoreboard.nextTemporary commands scores later ∧
    Forall₂ (fun e operand => e.value (value before.scoreboard scores) =
      some (operand.valueIn after.scoreboard later)) arguments operands

namespace ArgumentLists

theorem exists_quantities {α : Type} {quantities : α → Quantity}
    {arguments : List (Expression α .sum)}
    (valued : ∀ e ∈ arguments, (e.value fun leaf => (quantities leaf).value).isSome = true) :
    ∃ worth, Forall₂ (fun e result => e.quantity? quantities = some result) arguments worth := by
  induction arguments with
  | nil => exact ⟨[], .nil⟩
  | cons e arguments ih =>
    obtain ⟨isValued, othersValued⟩ := forall_mem_cons.1 valued
    obtain ⟨value, isValue⟩ := Option.isSome_iff_exists.1 isValued
    obtain ⟨worth, each⟩ := ih othersValued
    exact ⟨_ :: worth, .cons (congrArg (Option.map _) isValue) each⟩

/-- Tokens that stand for what arguments are worth are operands. -/
theorem exists_operands {quantities : Atom → Quantity} {worth : List Quantity} {board : Scoreboard}
    {tokens : List Token}
    (each : Forall₂ (fun e result => e.quantity? quantities = some result) arguments worth)
    (denote : DenoteAll board scores tokens (worth.map .quantity)) :
    ∃ operands : List Operand, tokens.map kind = operands.map Operand.kind ∧
      Forall₂ (fun e operand => (e.value fun leaf => (quantities leaf).value) =
        some (operand.valueIn board scores)) arguments operands := by
  induction each generalizing tokens with
  | nil =>
    cases denote
    exact ⟨[], rfl, .nil⟩
  | cons known _ ih =>
    obtain ⟨token, others, denotes, denoteOthers, rfl⟩ := forall₂_cons_right_iff.1 denote
    obtain ⟨operands, kinds, others⟩ := ih denoteOthers
    obtain ⟨operand, viewed⟩ := denotes.operand_of_quantity
    have kind := View.operand_eq_some_iff.1 viewed
    rw [kind] at denotes
    refine ⟨operand :: operands, congrArg₂ cons kind kinds, .cons ?_ others⟩
    obtain ⟨value, isValue, rfl⟩ := Option.map_eq_some_iff.1 known
    rw [(Operand.of_denotes denotes).2, isValue]

theorem binds_arguments (held : ∀ e ∈ arguments, ∀ atom ∈ e.leaves, atom.IsHeld before.scoreboard) :
    Forall₂ before.BindsPlainly (arguments.flatMap (kinds written))
      (arguments.flatMap (kinds bound)) := by
  have phrases := @Phrase.binds_flatMap (arguments.map .operand) before (forall_mem_map.2 held)
  rwa [flatMap_map, flatMap_map] at phrases

/-- A call that is a statement keeps its name, and what is in its parentheses is evaluated. -/
theorem prepare_call {name : String} {statement : Statement} (isCall : statement.kind = .call)
    (bindsName : before.bindName name = .routine name)
    (held : ∀ e ∈ arguments, ∀ atom ∈ e.leaves, atom.IsHeld before.scoreboard)
    (spelled : statement.tokens.map kind = .word name :: .openParen ::
      (arguments.flatMap (kinds written) ++ [.closeParen])) :
    ∃ tokens, tokens.map kind = .routine name :: .openParen ::
        (arguments.flatMap (kinds bound) ++ [.closeParen]) ∧
      prepare statement before = evaluateArithmetic tokens before := by
  have binds : Forall₂ before.Binds (statement.tokens.map kind) (.routine name ::
      .openParen :: (arguments.flatMap (kinds bound) ++ [.closeParen])) := by
    rw [spelled]
    refine .cons ?_ (.cons (fun _ _ => rfl) (rel_append ?_ (.cons (fun _ _ => rfl) .nil)))
    · intro resolves line
      simp [Build.bindToken, bindsName]
    · exact (binds_arguments held).imp fun _ _ => And.left
  obtain ⟨bound, isBound, kinds⟩ := Build.bindTokens_of_binds binds
  obtain ⟨first, _, rfl, isFirst, others⟩ := map_eq_cons_iff.1 kinds
  obtain ⟨opening, inside, rfl, isOpening, others⟩ := map_eq_cons_iff.1 others
  refine ⟨_, kinds, ?_⟩
  rw [prepare_of_bindTokens isBound, kept, isCall]
  refine bind_of_ok (evaluateCalls_of_noRoutine ?_ before)
  intro token member
  have isKind : token.kind ∈ inside.map kind := mem_map_of_mem member
  rw [others, mem_append, mem_singleton] at isKind
  rcases isKind with isKind | isKind
  · exact Build.notRoutine_of_binds (binds_arguments held) _ isKind
  · simp [isKind]

theorem balanced_kinds {level : Level} (e : Expression Atom level) : Balanced (e.kinds bound) := by
  induction e with
  | leaf atom => exact balanced_bound atom
  | group inner ih => exact ih.parenthesized
  | factor inner ih | product inner ih => exact ih
  | times left op _ right leftIh rightIh | plus left op _ right leftIh rightIh =>
    exact leftIh.append ((balanced_arith op).append rightIh)

theorem balanced_flatMap (arguments : List (Expression Atom .sum)) :
    Balanced (arguments.flatMap (kinds bound)) := by
  induction arguments with
  | nil => exact balanced_nil
  | cons e arguments ih => exact (balanced_kinds e).append ih

end ArgumentLists

open ArgumentLists

open ArgumentLists in
/-- Arguments over counters that no temporary can take the place of, none of them with a zero
divisor. -/
theorem argument_lists_split {name : String}
    (held : ∀ e ∈ arguments, ∀ atom ∈ e.leaves, atom.IsHeld before.scoreboard)
    (valued : ∀ e ∈ arguments, (e.value (Atom.value before.scoreboard scores)).isSome = true) :
    (∀ statement : Statement, statement.kind = .call → before.bindName name = .routine name →
      statement.tokens.map Token.kind = .word name :: .openParen ::
        (arguments.flatMap (Expression.kinds Atom.written) ++ [.closeParen]) →
      ∃ results after operands, BuildM.prepare statement before = .ok results after ∧
        results.map Token.kind = .routine name :: .openParen ::
          (operands.map Operand.kind ++ [.closeParen]) ∧
        before.Supplies after scores arguments operands) ∧
    ∀ (first opening closing : Token) (inside rest : List Token), first.kind = .routine name →
      opening.kind = .openParen → closing.kind = .closeParen →
      inside.map Token.kind = arguments.flatMap (Expression.kinds Atom.bound) →
      ∃ after operands, before.Supplies after scores arguments operands ∧
        BuildM.evaluateCalls (first :: opening :: (inside ++ closing :: rest)) before = (do
          let result ← BuildM.evaluateCall name operands
          let others ← BuildM.evaluateCalls rest
          return (⟨result, first.line⟩ :: others : List Token)) after := by
  have denoted :=
    @Phrase.denote_flatMap before.scoreboard (arguments.map .operand) (forall_mem_map.2 held) scores
  obtain ⟨worth, each⟩ := @exists_quantities _ (quantity before.scoreboard scores) _ valued
  rw [flatMap_map] at denoted
  change List.Forall₂ _ (arguments.flatMap (kinds bound)) _ at denoted
  constructor
  · intro statement isCall binds spelled
    obtain ⟨tokens, kinds, prepares⟩ := prepare_call isCall binds held spelled
    have denote : List.Forall₂ (TokenKind.Denotes before.scoreboard scores)
        (.routine name :: .openParen :: (_ ++ [.closeParen])) _ :=
      .cons (.mark rfl) (.cons .openParen (rel_append denoted (.cons .closeParen .nil)))
    replace denote : DenoteAll before.scoreboard scores tokens _ :=
      forall₂_map_left_iff.1 (kinds ▸ denote)
    obtain ⟨results, after, commands, later, evaluated, lowers, reaches, denoteResults⟩ :=
      evaluateArithmetic_evaluates denote _
        (foldArithmetic_call (Phrase.result?_operands each) rfl (Phrase.takesArguments_operands _))
    obtain ⟨_, _, isName, denoteGroup, rfl⟩ := forall₂_cons_right_iff.1 denoteResults
    obtain ⟨_, values, isOpening, denoteValues, rfl⟩ := forall₂_cons_right_iff.1 denoteGroup
    obtain ⟨operands, areOperands, stored⟩ :=
      exists_operands each (forall₂_take_append _ _ _ denoteValues)
    obtain ⟨closing, _, isClosing, ⟨⟩, last⟩ :=
      forall₂_cons_right_iff.1 (forall₂_drop_append _ _ _ denoteValues)
    refine ⟨_, after, operands, prepares.trans evaluated, ?_, commands, later, lowers, reaches, stored⟩
    rw [← take_append_drop (worth.map Symbol.quantity).length values, last]
    simp only [map_cons, map_append, map_nil, areOperands, isName.eq_mark,
      isOpening.eq_paren_iff.1.2 rfl, isClosing.eq_paren_iff.2.2 rfl]
  · intro first opening closing inside rest isRoutine isOpening isClosing kinds
    have denote : DenoteAll before.scoreboard scores inside _ :=
      forall₂_map_left_iff.1 (kinds ▸ denoted)
    have noRoutine : ∀ token ∈ inside, ∀ name, token.kind ≠ .routine name :=
      forall_mem_map.1 (kinds ▸ Build.notRoutine_of_binds (binds_arguments held))
    obtain ⟨results, after, commands, later, evaluated, lowers, reaches, denoteResults⟩ :=
      evaluateArithmetic_evaluates denote _
        (foldArithmetic_phrases (Phrase.result?_operands each) (Phrase.takesArguments_operands _))
    obtain ⟨operands, areOperands, stored⟩ := exists_operands each denoteResults
    refine ⟨after, operands, ⟨commands, later, lowers, reaches, stored⟩, ?_⟩
    rw [evaluateCalls_split isRoutine isOpening
      (splitClose?_eq_some_iff.2 ⟨_, rfl, isClosing, kinds ▸ balanced_flatMap arguments⟩),
      bind_of_ok (evaluateCalls_of_noRoutine noRoutine before),
      bind_of_ok evaluated,
      bind_of_ok (toOperands_eq_ok_iff.2 ⟨areOperands, rfl⟩)]

namespace ArgumentLists

def callable (names : List String) : Build :=
  { defining names with routines := [Routine.make "f" .self []] }

def callOf (arguments : List (Expression Atom .sum)) : Statement where
  kind := .call
  tokens := (.word "f" :: .openParen ::
    (arguments.flatMap (kinds written) ++ [.closeParen])).map fun kind => ⟨kind, 1⟩
  line := 1
  source := ""

/-- What the operands are worth after the statement is prepared and what that writes is replayed. -/
def operandsAfter (names : List String) (arguments : List (Expression Atom .sum)) (scores : Scores) :
    Option (List Int32) :=
  match prepare (callOf arguments) (callable names) with
  | .ok results after => (replayLines? (fun _ _ => none) after.file.lines scores).map fun later =>
    (results.filterMap fun token => View.operand.view? token.kind).map (·.valueIn after.scoreboard later)
  | .error _ _ => none

end ArgumentLists

/-- The remainder of `(3 + 7) * 3` by 4, and `3 * 2 + 3 * 3`. -/
theorem argument_lists_split_two :
    ∃ results after, BuildM.prepare (ArgumentLists.callOf [Assignment.sample,
        Assignment.sampleSum "a"]) (ArgumentLists.callable ["a", "b"]) = .ok results after ∧
      ∃ first second commands later, results.map Token.kind =
          [.routine "f", .openParen, Operand.kind first, Operand.kind second, .closeParen] ∧
        after.file.lines = commands.map .plain ∧
        replayAll? (fun _ _ => none) commands (fun _ => 3) = some later ∧
        first.valueIn after.scoreboard later = 2 ∧ second.valueIn after.scoreboard later = 15 := by
  have heldCounter (name : String) (member : name ∈ ["a", "b"]) :
      Atom.IsHeld (callable ["a", "b"]).scoreboard (.counter name) := by
    refine ⟨⟨name, .int⟩, ?_⟩
    fin_cases member <;> exact ⟨by decide, rfl, by decide, by decide⟩
  have held : ∀ e ∈ [sample, sampleSum "a"], ∀ atom ∈ e.leaves,
      atom.IsHeld (callable ["a", "b"]).scoreboard := by
    intro e isArgument
    fin_cases isArgument <;> intro atom member <;> fin_cases member <;>
      first | trivial | exact heldCounter _ (by decide)
  obtain ⟨results, after, _, prepared, kinds, commands, later, lowers, reaches, stored⟩ :=
    (@argument_lists_split _ (fun _ => 3) _ "f" held (by decide)).1
      (callOf [sample, sampleSum "a"]) rfl rfl rfl
  obtain ⟨first, _, isFirst, others, rfl⟩ := forall₂_cons_left_iff.1 stored
  obtain ⟨second, _, isSecond, ⟨⟩, rfl⟩ := forall₂_cons_left_iff.1 others
  refine ⟨results, after, prepared, first, second, commands, later, kinds, ?_, reaches.replayed _,
    ?_, ?_⟩
  · rw [lowers.file]
    rfl
  · exact Option.some.inj (isFirst.symm.trans (by decide))
  · exact Option.some.inj (isSecond.symm.trans (by decide))

/-- The second argument is read where the literal of the first has been stored. -/
theorem argument_lists_split_taken_for_temporary :
    let arguments := [.product (.times (.factor (.leaf (.counter "_MCC_TMP0"))) .mul rfl
      (.leaf (.number 2))), .product (.factor (.leaf (.counter "_MCC_TMP0")))]
    let fives : Scores := fun _ => 5
    arguments.map (Expression.value (Atom.value
        (ArgumentLists.callable ["_MCC_TMP0"]).scoreboard fives)) = [some 10, some 5] ∧
      ArgumentLists.operandsAfter ["_MCC_TMP0"] arguments fives = some [10, 2] := by
  decide +kernel

end ScriptPack
