import ScriptPack.Proofs.Mirrors
import ScriptPack.Proofs.ScoreCommands

/-!
Computations on counters, seen from the files. They write nothing by themselves and only add
declarations for the top of the root file; the commands that they give call no files, but for the
one that calls a routine.
-/

namespace ScriptPack

open Access (owns_any)
open List

def AreLocal (commands : List Command) : Prop :=
  ∀ command ∈ commands, command.called? = none

theorem areLocal_nil : AreLocal [] :=
  forall_mem_nil _

variable {commands : List Command}

theorem areLocal_append {others : List Command} :
    AreLocal (commands ++ others) ↔ AreLocal commands ∧ AreLocal others :=
  forall_mem_append

theorem areLocal_cons {command : Command} :
    AreLocal (command :: commands) ↔ command.called? = none ∧ AreLocal commands :=
  forall_mem_cons

theorem AreLocal.calls (locals : AreLocal commands) (build : Build) :
    build.Calls (commands.map .plain) :=
  Build.calls_plain fun command member path called =>
    absurd (locals command member) (by rw [called]; nofun)

def AreLocalLines (lines : List Line) : Prop :=
  ∀ line ∈ lines, line.command.called? = none

theorem areLocalLines_nil : AreLocalLines [] :=
  forall_mem_nil _

theorem areLocalLines_cons {line : Line} {lines : List Line} :
    AreLocalLines (line :: lines) ↔ line.command.called? = none ∧ AreLocalLines lines :=
  forall_mem_cons

theorem AreLocal.lines (locals : AreLocal commands) : AreLocalLines (commands.map .plain) :=
  forall_mem_map.2 locals

theorem AreLocalLines.calls {lines : List Line} (locals : AreLocalLines lines) (build : Build) :
    build.Calls lines :=
  fun line member _ called => absurd ((locals line member).symm.trans called) nofun

namespace Scoreboard

theorem headGrows_declare (board : Scoreboard) (counter : Counter) :
    board.HeadGrows (board.declare counter) := by
  have one (board : Scoreboard) (objective : String) :
      board.HeadGrows (board.declareObjective objective) := by
    unfold declareObjective
    split
    · exact .refl board
    · exact ⟨[objective], rfl⟩
  have all (objectives : List String) (board : Scoreboard) :
      board.HeadGrows (objectives.foldl declareObjective board) := by
    induction objectives generalizing board with
    | nil => exact .refl board
    | cons objective objectives ih => exact (one board objective).trans (ih _)
  exact all counter.objectives board

theorem headGrows_popScope (board : Scoreboard) : board.HeadGrows board.popScope := by
  unfold popScope
  split
  · exact .refl board
  · exact ⟨[], (append_nil _).symm⟩

theorem headGrows_keepTemporaries (board : Scoreboard) : board.HeadGrows board.keepTemporaries := by
  unfold keepTemporaries
  split
  · exact .refl board
  · exact ⟨[], (append_nil _).symm⟩

end Scoreboard

theorem AllOnScores.areLocal {target : String} {access : Access}
    (isOn : AllOnScores target access commands) : AreLocal commands := by
  intro command member
  cases isOn command member with
  | set | combine => rfl
  | change amount =>
    unfold Counter.change
    split <;> rfl

namespace CounterM

variable {α : Type} {holds : α → Prop}

abbrev Yields (computation : CounterM α) (holds : α → Prop) : Prop :=
  Draws .any computation holds

theorem sound_headGrows (last : Scoreboard) :
    Sources.any.Sound (fun _ => True) Scoreboard.HeadGrows last where
  refl := .refl
  trans := .trans
  get := fun _ _ _ => trivial
  temporary := fun {board} _ _ _ => ⟨trivial, Scoreboard.headGrows_declare
    { board with nextTemporary := board.nextTemporary + 1 } _, fun _ => trivial⟩
  define := fun _ _ => ⟨trivial, ⟨[], (append_nil _).symm⟩⟩

theorem Yields.of_ok {computation : CounterM α} (yields : Yields computation holds)
    {board later : Scoreboard} {value : α} (run : computation board = .ok value later) :
    board.HeadGrows later ∧ holds value := by
  obtain ⟨-, grows, isValue⟩ := Draws.of_ok yields (sound_headGrows later) trivial run
  exact ⟨grows, isValue (.refl later)⟩

theorem yields_temporaryFor (literal : Value) :
    Yields (CounterM.temporaryFor literal) fun _ => True := by
  unfold temporaryFor
  split
  · exact (Draws.temporary trivial).mono fun _ _ => trivial
  · exact .throw _

end CounterM

open CounterM (Yields)

namespace Counter

theorem areLocal_setLiteral (counter : Counter) (target : String) (literal : Value) :
    AreLocal (counter.setLiteral target literal) :=
  (@allOnScores_setLiteral .any target counter (fun _ _ => trivial) literal).areLocal

theorem yields_assign (target : String) (left : Counter) (op : Option ArithOp) (right : Counter) :
    Yields (assign target left op right) AreLocal :=
  (@draws_assign .any .any target (fun _ _ => trivial) (fun _ _ => owns_any) left op right).mono
    fun _ isOn => (isOn owns_any owns_any.reads).areLocal

theorem yields_assignOperand (target : String) (left : Counter) (operand : Operand) :
    Yields (assignOperand target left operand) AreLocal :=
  (@draws_assignOperand .any .any target (fun _ _ => trivial) (fun _ _ => owns_any)
    (fun _ _ => owns_any) left operand).mono fun _ isOn => (isOn owns_any).areLocal

end Counter

theorem Assignment.yields_commands (assignment : Assignment) : Yields assignment.commands AreLocal :=
  (@draws_commands .any .any (fun _ _ => trivial) (fun _ _ => owns_any)
    (fun _ _ => owns_any) assignment).mono fun _ isOn => isOn.areLocal

/-- The commands of a call of a routine, of which there is one at least, call its file only. -/
theorem Routine.yields_callCommands (routine : Routine) (target : String) (arguments : List Operand) :
    Yields (routine.callCommands target arguments) fun commands => commands ≠ [] ∧
      ∀ command ∈ commands, ∀ path, command.called? = some path → path = routine.file := by
  refine (@draws_callCommands .any .any target (fun _ _ => trivial) (fun _ _ => owns_any)
    (fun _ _ => owns_any) routine arguments).mono ?_
  rintro _ ⟨sets, rfl, isOn⟩
  refine ⟨concat_ne_nil _ _, fun command member path called => ?_⟩
  obtain isSet | isCall := mem_append.1 member
  · rw [(isOn fun _ _ => owns_any).areLocal command isSet] at called
    cases called
  · cases mem_singleton.1 isCall
    cases called
    rfl

end ScriptPack
