import ScriptPack.Proofs.Replay
import ScriptPack.Proofs.ScoreCommands
import ScriptPack.Proofs.Temporaries

/-!
Which scores commands write. The commands of a computation on counters write scores of new
temporaries and, for an assignment, scores of the counter on the left; a replay leaves all others
as they were. Counters may be of any kind: a decimal has two scores and a record those of its
fields, all of them named after the counter.
-/

namespace ScriptPack

open List Option

variable {target objective : String} {op : Option ArithOp} {limit : Nat} {allowed : String → Prop}
  {board later : Scoreboard} {commands : List Command} {scores : Scores} {right left : Counter}

namespace Counter

/-- A score of a counter of this name: the name itself or, after a colon, a part of it. -/
def IsScoreOf (name objective : String) : Prop :=
  objective = name ∨ ∃ rest, objective = name ++ ":" ++ rest

theorem isScoreOf_part (name rest : String) : IsScoreOf name (name ++ ":" ++ rest) :=
  .inr ⟨rest, rfl⟩

theorem isScoreOf_whole (counter : Counter) : IsScoreOf counter.name counter.whole :=
  .inr ⟨"w", by rw [whole, String.append_assoc]; rfl⟩

theorem isScoreOf_decimals (counter : Counter) : IsScoreOf counter.name counter.part :=
  .inr ⟨"d", by rw [part, String.append_assoc]; rfl⟩

theorem IsScoreOf.of_part {name key : String}
    (isScore : IsScoreOf (name ++ ":" ++ key) objective) : IsScoreOf name objective := by
  rcases isScore with rfl | ⟨rest, rfl⟩
  · exact isScoreOf_part name key
  · refine .inr ⟨key ++ ":" ++ rest, ?_⟩
    simp only [String.append_assoc]

end Counter

namespace Scoreboard

def IsScratch (limit : Nat) (objective : String) : Prop :=
  ∃ index, limit ≤ index ∧ Counter.IsScoreOf (temporaryObjective index) objective

theorem IsScratch.mono {lower : Nat} (le : lower ≤ limit)
    (scratch : IsScratch limit objective) : IsScratch lower objective := by
  obtain ⟨index, bound, isScore⟩ := scratch
  exact ⟨index, le.trans bound, isScore⟩

theorem isScratch_temporaryObjective {index : Nat} (bound : limit ≤ index) :
    IsScratch limit (temporaryObjective index) :=
  ⟨index, bound, .inl rfl⟩

theorem IsScratch.isReserved (scratch : IsScratch limit objective) : IsReserved objective := by
  have starts (index : Nat) (rest : String) : IsReserved (temporaryObjective index ++ rest) := by
    have reserved := isReserved_temporaryObjective index
    unfold IsReserved at reserved ⊢
    rw [Text.upper_append, String.toList_append]
    exact reserved.trans (prefix_append _ _)
  obtain ⟨index, -, same | ⟨rest, same⟩⟩ := scratch
  · rw [same]
    exact isReserved_temporaryObjective index
  · rw [same, String.append_assoc]
    exact starts index _

theorem not_isScratch_temporaryObjective {index : Nat} (earlier : index < limit) :
    ¬IsScratch limit (temporaryObjective index) := by
  rintro ⟨other, bound, same | ⟨rest, same⟩⟩
  · have equal := temporaryObjective_inj.1 same
    omega
  · apply colon_notMem_temporaryObjective index
    rw [same]
    simp

end Scoreboard

/-- The scores differ in those of temporaries from a number on only. -/
def Scores.AgreesOff (limit : Nat) (scores later : Scores) : Prop :=
  ∀ objective, ¬Scoreboard.IsScratch limit objective → later objective = scores objective

theorem Scores.AgreesOff.refl (limit : Nat) (scores : Scores) : AgreesOff limit scores scores :=
  fun _ _ => rfl

theorem Scores.AgreesOff.mono {lower : Nat} (le : lower ≤ limit) {later : Scores}
    (agrees : AgreesOff limit scores later) : AgreesOff lower scores later :=
  fun objective old => agrees objective fun scratch => old (scratch.mono le)

theorem Scores.AgreesOff.trans {middle later : Scores} (first : AgreesOff limit scores middle)
    (second : AgreesOff limit middle later) : AgreesOff limit scores later := by
  intro objective old
  rw [second objective old, first objective old]

namespace Command

def objective? : Command → Option String
  | scoreSet _ objective _ => some objective
  | scoreAdd _ objective _ => some objective
  | scoreRemove _ objective _ => some objective
  | operation _ objective _ _ _ => some objective
  | _ => none

def Writes (allowed : String → Prop) (command : Command) : Prop :=
  ∃ objective, command.objective? = some objective ∧ allowed objective

theorem Writes.mono {wider : String → Prop} (le : ∀ objective, allowed objective → wider objective)
    {command : Command} (writes : command.Writes allowed) : command.Writes wider := by
  obtain ⟨objective, written, isAllowed⟩ := writes
  exact ⟨objective, written, le objective isAllowed⟩

theorem Writes.replay?_eq {command : Command}
    (writes : command.Writes allowed) (calls others : Calls) (scores : Scores) :
    command.replay? calls scores = command.replay? others scores := by
  obtain ⟨objective, written, -⟩ := writes
  cases command <;> simp_all [objective?, replay?]

theorem Writes.agrees {command : Command} (writes : command.Writes allowed) {calls : Calls}
    {later : Scores} (replayed : command.replay? calls scores = some later) :
    ∀ objective, ¬allowed objective → later objective = scores objective := by
  obtain ⟨written, isWritten, isAllowed⟩ := writes
  -- whatever the value, a single score has been put
  have put : ∃ value, later = scores.put written value := by
    cases command with
    | scoreSet target other value =>
      cases isWritten
      simp only [replay?, ite_none_right_eq_some, some.injEq] at replayed
      exact ⟨value, replayed.2.symm⟩
    | scoreAdd target other value | scoreRemove target other value
    | operation target other op source right =>
      cases isWritten
      simp only [replay?, ite_none_right_eq_some, map_eq_some_iff] at replayed
      obtain ⟨-, value, -, same⟩ := replayed
      exact ⟨value, same.symm⟩
    | _ => cases isWritten
  obtain ⟨value, rfl⟩ := put
  intro objective notAllowed
  apply Scores.put_other
  rintro rfl
  exact notAllowed isAllowed

end Command

def AllWrite (allowed : String → Prop) (commands : List Command) : Prop :=
  ∀ command ∈ commands, command.Writes allowed

section AllWrite

variable {wider : String → Prop}

theorem AllWrite.mono (le : ∀ objective, allowed objective → wider objective)
    (writes : AllWrite allowed commands) : AllWrite wider commands :=
  fun command member => (writes command member).mono le

theorem AllWrite.replayAll?_eq (writes : AllWrite allowed commands) (calls other : Calls)
    (scores : Scores) : replayAll? calls commands scores = replayAll? other commands scores := by
  induction commands generalizing scores with
  | nil => rfl
  | cons command rest ih =>
    obtain ⟨first, later⟩ := forall_mem_cons.1 writes
    rw [replayAll?_cons, replayAll?_cons, first.replay?_eq calls other]
    exact congrArg _ (funext (ih later))

theorem AllWrite.agrees (writes : AllWrite allowed commands) {calls : Calls}
    {later : Scores} (replayed : replayAll? calls commands scores = some later) :
    ∀ objective, ¬allowed objective → later objective = scores objective := by
  induction commands generalizing scores with
  | nil =>
    cases replayed
    exact fun _ _ => rfl
  | cons command rest ih =>
    obtain ⟨first, others⟩ := forall_mem_cons.1 writes
    obtain ⟨middle, executed, continued⟩ := bind_eq_some_iff.1 replayed
    intro objective notAllowed
    rw [ih others continued objective notAllowed, first.agrees executed objective notAllowed]

end AllWrite

namespace Counter

open Scoreboard (IsScratch Extends)
open CounterM (Sources)

mutual

theorem isScoreOf_objectivesOf {name : String} : ∀ {kind : CounterKind},
    ∀ score ∈ objectivesOf name kind, IsScoreOf name score
  | .int, _, member | .time, _, member | .bool, _, member => .inl (mem_singleton.1 member)
  | .decimal precision, _, member => by
    obtain rfl | member := mem_cons.1 member
    · exact isScoreOf_whole ⟨name, .decimal precision⟩
    · rw [mem_singleton.1 member]
      exact isScoreOf_decimals ⟨name, .decimal precision⟩
  | .record _ _, score, member => isScoreOf_fieldObjectives score member

theorem isScoreOf_fieldObjectives {name : String} : ∀ {fields : List (String × String × CounterKind)},
    ∀ score ∈ fieldObjectives name fields, IsScoreOf name score
  | [], _, member => nomatch member
  | (_, key, kind) :: rest, score, member => by
    obtain first | later := mem_append.1 member
    · exact (isScoreOf_objectivesOf score first).of_part
    · exact isScoreOf_fieldObjectives score later

end

def writing (allowed : String → Prop) : Access :=
  ⟨allowed, fun _ => True⟩

theorem owns_writing {scores : List String} (areAllowed : ∀ score ∈ scores, allowed score) :
    (writing allowed).Owns scores :=
  fun score member => ⟨areAllowed score member, trivial⟩

theorem allWrite_of_onScores (isOn : AllOnScores target (writing allowed) commands) :
    AllWrite allowed commands := by
  intro command member
  cases isOn command member with
  | set value isAllowed => exact ⟨_, rfl, isAllowed⟩
  | combine op isAllowed => exact ⟨_, rfl, isAllowed⟩
  | change amount isAllowed =>
    refine ⟨_, ?_, isAllowed⟩
    unfold change
    split <;> rfl

theorem setLiteral_writes (counter : Counter) (target : String) (literal : Value) :
    AllWrite (IsScoreOf counter.name) (counter.setLiteral target literal) :=
  allWrite_of_onScores (@allOnScores_setLiteral (writing _) target counter isScoreOf_objectivesOf literal)

def Assignable (limit : Nat) (name objective : String) : Prop :=
  IsScoreOf name objective ∨ IsScratch limit objective

/-- Nothing is defined, and temporaries have numbers from a limit on. -/
def scratching (limit : Nat) : Sources where
  found := fun _ => True
  fresh := fun counter => ∀ score ∈ counter.objectives, IsScratch limit score
  defined := fun _ => False
  asked := fun _ => True

theorem sound_scratching (limit : Nat) (last : Scoreboard) :
    (scratching limit).Sound (limit ≤ ·.nextTemporary) Extends last where
  refl := .refl
  trans := .trans
  get := fun _ _ _ => trivial
  temporary := fun {board kind} _ bound => by
    have grows := Scoreboard.extends_temporary board kind
    exact ⟨bound.trans grows.next_le, grows, fun _ score member =>
      ⟨board.nextTemporary, bound, isScoreOf_objectivesOf score member⟩⟩
  define := nofun

theorem writes_of_draws {name : String} {computation : CounterM (List Command)} (draws : CounterM.Draws
      (scratching board.nextTemporary) computation fun commands =>
        (writing (Assignable board.nextTemporary name)).Owns (objectivesOf name left.kind) →
          AllOnScores target (writing (Assignable board.nextTemporary name)) commands)
    (run : computation board = .ok commands later) :
    Extends board later ∧ AllWrite (Assignable board.nextTemporary name) commands := by
  obtain ⟨-, grows, isOn⟩ := draws.of_ok (sound_scratching _ later) le_rfl run
  exact ⟨grows, allWrite_of_onScores (isOn (.refl later)
    (owns_writing fun score member => .inl (isScoreOf_objectivesOf score member)))⟩

theorem owns_scratch {limit : Nat} {name : String} {counter : Counter}
    (fresh : (scratching limit).fresh counter) :
    (writing (Assignable limit name)).Owns counter.objectives :=
  owns_writing fun score member => .inr (fresh score member)

theorem assign_writes (run : assign target left op right board = .ok commands later) :
    Extends board later ∧ AllWrite (Assignable board.nextTemporary left.name) commands :=
  writes_of_draws ((draws_assign (fun _ _ => trivial) (fun _ => owns_scratch) left op right).mono
    fun _ isOn isOwn => isOn isOwn fun _ _ => trivial) run

theorem assignLiteral_writes {literal : Value}
    (run : assignLiteral target left op literal board = .ok commands later) :
    Extends board later ∧ AllWrite (Assignable board.nextTemporary left.name) commands :=
  writes_of_draws (draws_assignLiteral (fun _ _ => trivial) (fun _ => owns_scratch) left op literal) run

end Counter

end ScriptPack
