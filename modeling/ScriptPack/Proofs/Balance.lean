import ScriptPack.Proofs.Watch

/-!
The stacks of selectors and files are balanced at every statement boundary of every run that succeeds,
and no run reaches below its own part of them: whatever is put under the stacks, the run is the same
and leaves it where it is.
-/

namespace ScriptPack

open BuildM

/-- Every statement at every depth begins and ends with balanced stacks. On top of any ground, the
script does what it does by itself; so no pop ever finds only the root of a stack, since it would
take away what stands on the ground. -/
theorem stacks_stay_balanced {storage : FileTree} {options : Options} {file : String}
    {statements : List Statement} {last : Build}
    (ran : runScript options statements (.forScript storage options file) = .ok () last) :
    (∀ alarm, watchScript alarm (fun _ before after => before.IsBalanced ∧ after.IsBalanced)
        options statements (.forScript storage options file) = .ok () last) ∧
      ∀ ground : Ground, runScript options statements
        ((Build.forScript storage options file).onto ground) = .ok () (last.onto ground) := by
  have level := Build.level_forScript storage options file
  constructor
  · exact watchScript_of_runScript level rfl ran fun _ _ _ occurs =>
      ⟨occurs.level.balanced, occurs.levelAfter.balanced⟩
  · exact (moves_of_runScript level rfl ran).2.2

/-! A script with a routine, branches, a selection and a repetition. -/

def Nested.statement (kind : StatementKind) (tokens : List TokenKind) : Statement where
  kind := kind
  tokens := tokens.map (⟨·, 1⟩)
  line := 1
  source := ""

def Nested.script : List Statement := [
  statement (.directive .define) [.word "a"],
  statement (.directive .routine) [.word "f"],
  statement (.openBlock 5) [],
  statement (.directive .condition) [.word "a", .compare .gt, .literal (.int 1)],
  statement (.openBlock 2) [],
  statement (.directive .say) [.literal (.text "x")],
  statement (.directive .say) [.literal (.text "y")],
  statement .closeBlock [],
  statement .closeBlock [],
  statement (.directive .select) [.literal (.selector { base := .players })],
  statement (.openBlock 2) [],
  statement (.directive .condition) [.word "a", .compare .gt, .literal (.int 1)],
  statement (.directive .remove) [],
  statement .closeBlock [],
  statement (.directive .repeatBody) [.literal (.int 2)],
  statement (.openBlock 1) [],
  statement (.directive .say) [.literal (.text "z")],
  statement .closeBlock [],
  statement .call [.word "f", .openParen, .closeParen]]

def Nested.start : Build :=
  .forScript {} {} "main.mcc"

theorem Nested.script_succeeds : succeeds (runScript {} script start) = true := by
  decide +kernel

/-- The script runs, with balanced stacks at every boundary, and leaves alone a file that is put
under the stack. -/
theorem stacks_stay_balanced_nested :
    ∃ last, runScript {} Nested.script Nested.start = .ok () last ∧
      (∀ alarm, watchScript alarm (fun _ before after => before.IsBalanced ∧ after.IsBalanced)
        {} Nested.script Nested.start = .ok () last) ∧
      runScript {} Nested.script (Nested.start.onto ⟨[.self], [{ name := "below" }], by simp⟩) =
        .ok () (last.onto ⟨[.self], [{ name := "below" }], by simp⟩) := by
  obtain ⟨_, last, ran⟩ := exists_ok_of_succeeds Nested.script_succeeds
  obtain ⟨watched, grounded⟩ := stacks_stay_balanced ran
  exact ⟨last, ran, watched, grounded _⟩

end ScriptPack
