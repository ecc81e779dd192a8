import ScriptPack.Proofs.Conditions
import ScriptPack.Proofs.FixedPoint

/-!
Comparisons of numbers of any kind. A comparison of two counters leaves their difference, times a
power of ten that makes both integers, in a temporary that is kept beyond the statement, since the
frames of the next one test it. The commands that a chain writes change nothing but such
temporaries, and its frames then test what the chain says, with differences as 32 bits hold them.
-/

namespace ScriptPack

open BuildM Comparison Counter List Number Option Scoreboard Scores ScriptPack.Frame

variable {counter left right : Counter} {accessor : String} {limit : Nat} {literal : Value}

namespace Scoreboard

/-- Inside a statement that was entered with the counters `entry`: every temporary asked for so far
is kept. -/
structure Keeps (entry board : Scoreboard) : Prop where
  scopes : board.scopes = board.nextTemporary :: entry.scopes
  popped : entry.Extends board.popScope

section

variable {entry board : Scoreboard}

theorem keeps_pushScope (entry : Scoreboard) : entry.Keeps entry.pushScope :=
  ⟨rfl, .refl entry⟩

namespace Keeps

variable (keeps : entry.Keeps board)

include keeps

theorem popScope_eq : board.popScope = { board with scopes := entry.scopes } := by
  rw [popScope, keeps.scopes]

theorem nextTemporary_popScope : board.popScope.nextTemporary = board.nextTemporary := by
  rw [keeps.popScope_eq]

theorem grows : entry.Grows board := by
  have popped := keeps.popped
  rw [keeps.popScope_eq] at popped
  exact ⟨popped.next_le, popped.counters⟩

theorem keepTemporaries {later : Scoreboard}
    (extension : board.Extends later) : entry.Keeps later.keepTemporaries := by
  have scopes : later.scopes = board.nextTemporary :: entry.scopes :=
    extension.scopes.trans keeps.scopes
  have kept : later.keepTemporaries =
      { later with scopes := later.nextTemporary :: entry.scopes } := by
    rw [Scoreboard.keepTemporaries, scopes]
  have popped := keeps.popped
  rw [keeps.popScope_eq] at popped
  rw [kept]
  refine ⟨rfl, popped.next_le.trans extension.next_le, rfl,
    extension.records.trans popped.records, ?_⟩
  exact (keeps.grows.trans extension.grows).counters

end Keeps

def keepNew (board : Scoreboard) (kind : CounterKind) : Scoreboard :=
  (board.temporary kind).2.keepTemporaries

theorem grows_keepNew (board : Scoreboard) (kind : CounterKind) : board.Grows (board.keepNew kind) :=
  (extends_temporary board kind).grows.trans (grows_keepTemporaries _)

theorem nextTemporary_keepNew (board : Scoreboard) (kind : CounterKind) :
    (board.keepNew kind).nextTemporary = board.nextTemporary + 1 := by
  rw [keepNew, nextTemporary_keepTemporaries, nextTemporary_temporary]

theorem Keeps.keepNew (keeps : entry.Keeps board) (kind : CounterKind) :
    entry.Keeps (board.keepNew kind) :=
  keeps.keepTemporaries (extends_temporary board kind)

theorem Holds.grow (holds : entry.Holds accessor counter)
    (grows : entry.Grows board) : board.Holds accessor counter :=
  ⟨(holds.names.grow grows).found, holds.simple, holds.accessor_free, holds.name_free⟩

theorem Holds.extend (holds : entry.Holds accessor counter)
    (extension : entry.Extends board) : board.Holds accessor counter :=
  holds.grow extension.grows

end

def KeepsOn (board later : Scoreboard) : Prop :=
  ∀ entry, Keeps entry board → Keeps entry later

end Scoreboard

namespace Frame

theorem admits?_scoreFrame (objective : String) (range : Range) (scores : Scores) :
    (scoreFrame objective range).admits? scores =
      some (range.contains (scores objective)) := by
  simp [scoreFrame, admits?, Selector.withScore, Selector.self]

theorem admitAll?_scoreFrame (objective : String) (range : Range) (scores : Scores) :
    admitAll? scores [scoreFrame objective range] =
      some (range.contains (scores objective)) := by
  rw [admitAll?, admits?_scoreFrame]
  cases range.contains (scores objective) <;> rfl

theorem admitAll?_append (scores : Scores) (frames others : List Frame) :
    admitAll? scores (frames ++ others) =
      match admitAll? scores frames with
      | some true => admitAll? scores others
      | other => other := by
  induction frames with
  | nil => rfl
  | cons frame frames ih =>
    rw [cons_append, admitAll?, admitAll?]
    cases admitted : frame.admits? scores with
    | none => rfl
    | some isAdmitted =>
      cases isAdmitted with
      | true => exact ih
      | false => rfl

theorem areStable_scoreFrame {objective : String}
    (old : ¬IsScratch limit objective) (range : Range) :
    AreStable limit [scoreFrame objective range] := by
  intro scores later agrees
  rw [admitAll?_scoreFrame, admitAll?_scoreFrame, agrees objective old]

theorem AreStable.mono {next : Nat} (le : limit ≤ next) {frames : List Frame}
    (stable : AreStable limit frames) : AreStable next frames :=
  fun scores later agrees => stable scores later (agrees.mono le)

theorem AreStable.append {frames others : List Frame} (first : AreStable limit frames)
    (second : AreStable limit others) : AreStable limit (frames ++ others) := by
  intro scores later agrees
  rw [admitAll?_append, admitAll?_append, first scores later agrees, second scores later agrees]

end Frame

theorem Scores.AgreesBelow.agreesOff {scores later : Scores}
    (agrees : AgreesBelow limit scores later) : AgreesOff limit scores later := by
  intro objective old
  apply agrees
  rintro index bound rfl
  exact old (isScratch_temporaryObjective bound)

theorem Range.contains_exactly (value score : Int32) :
    (Range.exactly value).contains score = (score == value) := by
  have both : (decide (value ≤ score) && decide (score ≤ value)) = (score == value) := by
    rw [Bool.eq_iff_iff]
    simp only [Bool.and_eq_true, decide_eq_true_eq, beq_iff_eq, Int32.le_iff_toInt_le,
      ← Int32.toInt_inj]
    omega
  simp [Range.contains, Range.admits, Range.exactly, both]

namespace Counter

/-- A number, not a record, none of whose scores is one of a temporary from a number on. -/
structure IsOld (limit : Nat) (counter : Counter) : Prop where
  notRecord : ∀ name fields, counter.kind ≠ .record name fields
  old : ∀ objective ∈ counter.objectives, ¬IsScratch limit objective

section

variable {limit next : Nat} {counter : Counter}

theorem isOld_of_not_isReserved (notRecord : ∀ name fields, counter.kind ≠ .record name fields)
    (free : ∀ objective ∈ counter.objectives, ¬IsReserved objective) (limit : Nat) :
    counter.IsOld limit :=
  ⟨notRecord, fun objective member scratch => free objective member scratch.isReserved⟩

theorem isOld_of_isIntegerLike (simple : counter.kind.isIntegerLike = true)
    (old : ¬IsScratch limit counter.name) : counter.IsOld limit := by
  obtain ⟨name, kind⟩ := counter
  cases kind with
  | decimal own => contradiction
  | record fields => contradiction
  | int | time | bool => exact ⟨nofun, forall_mem_singleton.2 old⟩

namespace IsOld

variable (old : counter.IsOld limit)

include old

theorem mono (le : limit ≤ next) : counter.IsOld next :=
  ⟨old.notRecord, fun objective member scratch => old.old objective member (scratch.mono le)⟩

theorem isApart : counter.IsApart limit := by
  refine ⟨old.notRecord, ?_⟩
  rintro objective member index bound rfl
  exact old.old _ member (isScratch_temporaryObjective bound)

theorem congr {scores later : Scores} (agrees : AgreesOff limit scores later) :
    counter.SameForms scores later :=
  forms_congr old.notRecord fun objective member => agrees objective (old.old objective member)

theorem name (simple : counter.kind.isIntegerLike = true) : ¬IsScratch limit counter.name := by
  obtain ⟨name, kind⟩ := counter
  cases kind with
  | decimal own => contradiction
  | record fields => contradiction
  | int | time | bool => exact old.old name mem_cons_self

end IsOld

end

def commonPrecision (left right : Counter) : Nat :=
  max left.kind.precision right.kind.precision

/-- The score by which two counters are compared: what 32 bits hold of the difference of their
values, times a power of ten. -/
def gap (left right : Counter) (scores : Scores) : Int32 :=
  left.wrapped (left.commonPrecision right) scores - right.wrapped (left.commonPrecision right) scores

end Counter

def Value.comparedAs? : Value → Option Single
  | .bool value => some (.ofInt (if value then 1 else 0))
  | literal => literal.number?

def Counter.literalPrecision (counter : Counter) (literal : Value) : Nat :=
  max counter.kind.precision literal.precision

/-- The integer that a counter's score is compared with for a literal. -/
def Counter.constantFor (counter : Counter) (literal : Value) : Int32 :=
  let number := literal.comparedAs?.getD .nan
  if counter.kind.isIntegerLike && literal.precision == 0 then number.roundInt32
  else
    (number.mul (.ofInt32 (tenPower (counter.literalPrecision literal)))).roundInt32

theorem Scoreboard.Finds.counterOf_eq {board : Scoreboard}
    (finds : board.Finds accessor counter) : board.counterOf accessor = counter := by
  rw [counterOf, finds.found]
  rfl

namespace Comparison

/-- A flag, or a comparison of numbers, none of which a temporary that is still to come replaces. -/
def IsSettled (board : Scoreboard) (comparison : Comparison) : Prop :=
  match comparison.test with
  | .flag counter => ¬IsScratch board.nextTemporary counter.name
  | .value counter _ (.literal literal) =>
      counter.IsOld board.nextTemporary ∧ literal.comparedAs?.isSome = true
  | .value counter _ (.counter accessor) =>
      counter.IsOld board.nextTemporary ∧ board.Finds accessor (board.counterOf accessor) ∧
        (board.counterOf accessor).IsOld board.nextTemporary
  | _ => False

theorem isSettled_counter {board : Scoreboard}
    (old : left.IsOld board.nextTemporary) (finds : board.Finds accessor right)
    (rightOld : right.IsOld board.nextTemporary) (op : CompareOp) (negated : Bool) :
    IsSettled board ⟨.value left op (.counter accessor), negated⟩ := by
  have same := finds.counterOf_eq
  exact ⟨old, same ▸ finds, same ▸ rightOld⟩

def operator (comparison : Comparison) (op : CompareOp) : CompareOp :=
  if comparison.negated then op.inverted else op

def passes (board : Scoreboard) (scores : Scores) (comparison : Comparison) : Bool :=
  match comparison.test with
  | .flag counter => scores counter.name == if comparison.negated then 0 else 1
  | .value counter op (.literal literal) =>
      (rangeFor (comparison.operator op) (counter.constantFor literal)).contains
        (counter.wrapped (counter.literalPrecision literal) scores)
  | .value counter op (.counter accessor) =>
      (rangeFor (comparison.operator op) 0).contains
        (counter.gap (board.counterOf accessor) scores)
  | _ => false

def passAll (board : Scoreboard) (chain : List Comparison) (scores : Scores) : Bool :=
  chain.all (passes board scores)

def negate (comparison : Comparison) : Comparison :=
  { comparison with negated := !comparison.negated }

/-- What the frames of a negated chain let through: a single comparison is negated, of several it is
tested whether one fails. -/
def failAny (board : Scoreboard) (chain : List Comparison) (scores : Scores) : Bool :=
  match chain with
  | [comparison] => comparison.negate.passes board scores
  | chain => !passAll board chain scores

/-- The score that a comparison of two counters tests is the difference of their values, times a
power of ten. -/
def IsPrecise (board : Scoreboard) (comparison : Comparison) (scores : Scores) : Prop :=
  match comparison.test with
  | .value counter _ (.counter accessor) =>
      let other := board.counterOf accessor
      let precision := counter.commonPrecision other
      precision < 10 → (counter.gap other scores).toInt =
        counter.scaled precision scores - other.scaled precision scores
  | _ => True

end Comparison

/-- Commands that prepare what frames test: they change temporaries from `limit` on only, and the
frames then test what `test` says of the scores before, but no temporary from `next` on. Where the
commands do not overflow, the scores are such that `precise` holds. -/
structure Prepares (limit next : Nat) (commands : List Command) (frames : List Frame)
    (test : Scores → Bool) (precise : Scores → Prop) : Prop where
  stable : AreStable next frames
  reaches : ∀ scores, ∃ middle, Reaches limit commands scores middle ∧
    admitAll? middle frames = some (test scores)
  isPrecise : ∀ calls scores later, replayExact? calls commands scores = some later → precise scores

/-- A property of scores that no temporary from a number on changes. -/
def IgnoresScratch {α : Sort*} (limit : Nat) (property : Scores → α) : Prop :=
  ∀ scores later, AgreesOff limit scores later → property later = property scores

theorem IgnoresScratch.mono {α : Sort*} {next : Nat} {property : Scores → α}
    (ignores : IgnoresScratch limit property) (le : limit ≤ next) : IgnoresScratch next property :=
  fun scores later agrees => ignores scores later (agrees.mono le)

section Prepares

variable {limit middle next : Nat} {commands others : List Command}
  {frames otherFrames : List Frame} {test otherTest : Scores → Bool}
  {precise otherPrecise : Scores → Prop}

theorem prepares_nil (limit : Nat) : Prepares limit limit [] [] (fun _ => true) fun _ => True where
  stable := fun _ _ _ => rfl
  reaches := fun scores => ⟨scores, .refl limit scores, rfl⟩
  isPrecise := fun _ _ _ _ => trivial

theorem Prepares.append (le : limit ≤ middle) (le_next : middle ≤ next)
    (first : Prepares limit middle commands frames test precise)
    (second : Prepares middle next others otherFrames otherTest otherPrecise)
    (ignores : IgnoresScratch limit otherTest) (ignoresPrecise : IgnoresScratch limit otherPrecise) :
    Prepares limit next (commands ++ others) (frames ++ otherFrames)
      (fun scores => test scores && otherTest scores)
      fun scores => precise scores ∧ otherPrecise scores where
  stable := (first.stable.mono le_next).append second.stable
  reaches := fun scores => by
    obtain ⟨between, reached, admits⟩ := first.reaches scores
    obtain ⟨last, reachedLast, admitsLast⟩ := second.reaches between
    refine ⟨last, reached.trans le reachedLast, ?_⟩
    rw [admitAll?_append, first.stable between last reachedLast.agrees.agreesOff, admits,
      admitsLast, ignores scores between reached.agrees.agreesOff]
    cases test scores <;> rfl
  isPrecise := fun calls scores later replayed => by
    rw [replayExact?_append] at replayed
    obtain ⟨between, replayedFirst, replayedSecond⟩ := bind_eq_some_iff.1 replayed
    obtain ⟨reachable, reached, -⟩ := first.reaches scores
    have same := reached.replayed calls
    rw [replayAll?_of_exact replayedFirst, some.injEq] at same
    subst same
    refine ⟨first.isPrecise calls scores between replayedFirst, ?_⟩
    rw [← ignoresPrecise scores between reached.agrees.agreesOff]
    exact second.isPrecise calls between later replayedSecond

theorem prepares_score {objective : String} (old : ¬IsScratch limit objective) (range : Range) :
    Prepares limit limit [] [scoreFrame objective range]
      (fun scores => range.contains (scores objective)) fun _ => True where
  stable := areStable_scoreFrame old range
  reaches := fun scores => ⟨scores, .refl limit scores, admitAll?_scoreFrame objective range scores⟩
  isPrecise := fun _ _ _ _ => trivial

theorem prepares_temporary {index : Nat} (lt : index < next) {value : Scores → Int32}
    (reaches : ∀ scores, ∃ later, Reaches limit commands scores later ∧
      later (temporaryObjective index) = value scores)
    (range : Range) (isPrecise : ∀ calls scores later,
      replayExact? calls commands scores = some later →
      later (temporaryObjective index) = value scores → precise scores) :
    Prepares limit next commands [scoreFrame (temporaryObjective index) range]
      (fun scores => range.contains (value scores)) precise where
  stable := areStable_scoreFrame (not_isScratch_temporaryObjective lt) range
  reaches := fun scores => by
    obtain ⟨later, reached, stored⟩ := reaches scores
    exact ⟨later, reached, by rw [admitAll?_scoreFrame, stored]⟩
  isPrecise := fun calls scores later replayed => by
    obtain ⟨reached, reachable, stored⟩ := reaches scores
    cases (replayAll?_of_exact replayed).symm.trans (reachable.replayed calls)
    exact isPrecise calls scores later replayed stored

end Prepares

namespace Counter

section

variable (simple : counter.kind.isIntegerLike = true)

include simple

theorem wrapped_zero (scores : Scores) : counter.wrapped 0 scores = scores counter.name := by
  have one : tenPower 0 = 1 := by decide
  obtain ⟨name, kind⟩ := counter
  cases kind with
  | decimal own => contradiction
  | record fields => contradiction
  | int | time | bool => simp only [wrapped, one, Int32.mul_one]

theorem precision_of_isIntegerLike : counter.kind.precision = 0 := by
  obtain ⟨name, kind⟩ := counter
  cases kind with
  | decimal own => contradiction
  | _ => rfl

/-- Compared with an integer or a truth value, a counter of one score stands for itself. -/
theorem wrapped_literalPrecision (places : literal.precision = 0) (scores : Scores) :
    counter.wrapped (counter.literalPrecision literal) scores = scores counter.name := by
  rw [literalPrecision, precision_of_isIntegerLike simple, places]
  exact wrapped_zero simple scores

theorem constantFor_of_isIntegerLike (places : literal.precision = 0)
    {number : Single} (compared : literal.comparedAs? = some number) :
    counter.constantFor literal = number.roundInt32 := by
  simp [constantFor, simple, places, compared]

end

theorem commonPrecision_of_isIntegerLike (leftSimple : left.kind.isIntegerLike = true)
    (rightSimple : right.kind.isIntegerLike = true) : left.commonPrecision right = 0 := by
  rw [commonPrecision, precision_of_isIntegerLike leftSimple, precision_of_isIntegerLike rightSimple]
  rfl

theorem gap_of_isIntegerLike (leftSimple : left.kind.isIntegerLike = true)
    (rightSimple : right.kind.isIntegerLike = true) (scores : Scores) :
    left.gap right scores = scores left.name - scores right.name := by
  rw [gap, commonPrecision_of_isIntegerLike leftSimple rightSimple, wrapped_zero leftSimple,
    wrapped_zero rightSimple]

section

variable {limit : Nat} {left right : Counter}

def GapIsExact (left right : Counter) (scores : Scores) : Prop :=
  let precision := left.commonPrecision right
  precision < 10 → (left.gap right scores).toInt =
    left.scaled precision scores - right.scaled precision scores

theorem gapCommands_simple (leftSimple : left.kind.isIntegerLike = true)
    (rightSimple : right.kind.isIntegerLike = true) (rightOld : right.IsOld limit) (range : Range) :
    let held := temporaryObjective limit
    Prepares limit (limit + 1) [combine selfTarget held none left.name,
      combine selfTarget held (some .sub) right.name] [scoreFrame held range]
      (fun scores => range.contains (left.gap right scores)) (left.GapIsExact right) := by
  intro held
  have apart : right.name ≠ held := by
    rintro same
    exact rightOld.name rightSimple (same ▸ isScratch_temporaryObjective le_rfl)
  refine prepares_temporary (Nat.lt_succ_self limit) (fun scores => ?_) range ?_
  · rw [gap_of_isIntegerLike leftSimple rightSimple]
    exact reaches_load_combine le_rfl (fun calls => replay?_copy calls held left.name)
      apart (ArithOp.compute?_sub _ _)
  · intro calls scores later replayed stored _
    rw [replayExact?_copy] at replayed
    obtain ⟨value, computed, ended⟩ := replayExact?_combine replayed
    cases ended
    rw [put_same, put_other apart] at computed
    rw [put_same] at stored
    rw [← stored, ← some.inj computed, commonPrecision_of_isIntegerLike leftSimple rightSimple,
      scaled_of_isIntegerLike leftSimple, scaled_of_isIntegerLike rightSimple]
    simp

theorem gapCommands_fixed {middle next : Nat} (leftOld : left.IsOld limit)
    (rightOld : right.IsOld limit) (lt : limit + 1 < middle) (lt_next : middle + 1 < next)
    (range : Range) : let precision := left.commonPrecision right
    let held := temporaryObjective (limit + 1)
    Prepares limit next (left.fixedCommands precision limit ++ right.fixedCommands precision middle ++
      [combine selfTarget held (some .sub) (temporaryObjective (middle + 1))])
      [scoreFrame held range] (fun scores => range.contains (left.gap right scores))
      (left.GapIsExact right) := by
  intro precision held
  have heldOld : ∀ index, middle ≤ index → held ≠ temporaryObjective index :=
    fun index bound => temporaryObjective_ne (by omega)
  refine prepares_temporary (by omega) (fun scores => ?_) range ?_
  · obtain ⟨first, loads, value⟩ := @fixedCommands_reaches left precision limit scores
      leftOld.isApart (le_max_left _ _)
    obtain ⟨second, loadsOther, otherValue⟩ := @fixedCommands_reaches right precision middle first
      (rightOld.mono (by omega)).isApart (le_max_right _ _)
    have kept : second held = left.wrapped precision scores := by
      rw [loadsOther.agrees held heldOld, value]
    rw [(rightOld.congr loads.agrees.agreesOff).2] at otherValue
    have subtracts (calls : Calls) : (combine selfTarget held (some .sub)
        (temporaryObjective (middle + 1))).replay? calls second =
          some (second.put held (left.gap right scores)) := by
      rw [replay?_combine, kept, otherValue, ArithOp.compute?_sub]
      rfl
    exact ⟨_, (loads.trans (by omega) loadsOther).trans le_rfl
      (reaches_put (Nat.le_succ limit) subtracts), put_same _ _ _⟩
  · intro calls scores later replayed stored small
    have smallLeft : left.kind.precision < 10 := (le_max_left _ _).trans_lt small
    have smallRight : right.kind.precision < 10 := (le_max_right _ _).trans_lt small
    rw [replayExact?_append, bind_eq_some_iff] at replayed
    obtain ⟨second, replayed, subtracted⟩ := replayed
    rw [replayExact?_append, bind_eq_some_iff] at replayed
    obtain ⟨first, loaded, loadedOther⟩ := replayed
    obtain ⟨value, agrees⟩ := fixedCommands_exact leftOld.isApart smallLeft small loaded
    obtain ⟨otherValue, otherAgrees⟩ := fixedCommands_exact (rightOld.mono (by omega)).isApart
      smallRight small loadedOther
    obtain ⟨difference, computed, ended⟩ := replayExact?_combine subtracted
    cases ended
    rw [otherAgrees held heldOld, value, otherValue, (rightOld.congr agrees.agreesOff).1] at computed
    rw [put_same] at stored
    rw [← stored, ← some.inj computed]

end

end Counter

namespace BuildM

variable {entry : Scoreboard} {before : Build}

theorem refuseRecord_of_notRecord (notRecord : ∀ name fields, counter.kind ≠ .record name fields) :
    refuseRecord counter before = .ok () before := by
  obtain ⟨name, kind⟩ := counter
  cases kind with
  | record record fields => exact absurd rfl (notRecord record fields)
  | _ => rfl

theorem literalNumber_of_some {number : Single} (compared : literal.comparedAs? = some number) :
    literalNumber literal before = .ok number before := by
  cases literal with
  | bool value =>
    cases compared
    rfl
  | _ =>
    simp only [Value.comparedAs?] at compared
    simp only [literalNumber, compared]
    rfl

theorem difference_prepares (leftOld : left.IsOld before.scoreboard.nextTemporary)
    (rightOld : right.IsOld before.scoreboard.nextTemporary) (range : Range) :
    ∃ commands index later, difference left right before =
        .ok (commands, temporaryObjective index) (before.setBoard later) ∧
      commands.isEmpty = false ∧ before.scoreboard.Extends later ∧
      Prepares before.scoreboard.nextTemporary later.nextTemporary commands
        [scoreFrame (temporaryObjective index) range]
        (fun scores => range.contains (left.gap right scores)) (left.GapIsExact right) := by
  let board := before.scoreboard
  let precision := left.commonPrecision right
  by_cases simple : left.kind.isIntegerLike = true ∧ right.kind.isIntegerLike = true
  · have prepares := gapCommands_simple simple.1 simple.2 rightOld range
    rw [← board.nextTemporary_temporary .int] at prepares
    refine ⟨_, board.nextTemporary, (board.temporary .int).2, ?_, ?_,
      extends_temporary board .int, prepares⟩
    · unfold difference
      rw [simple.1, simple.2]
      rfl
    · rfl
  · have notBoth : (left.kind.isIntegerLike && right.kind.isIntegerLike) = false := by
      rw [Bool.and_eq_false_iff, ← Bool.not_eq_true, ← Bool.not_eq_true]
      exact Decidable.not_and_iff_not_or_not.1 simple
    obtain ⟨first, loads, extension, lt⟩ := left.fixedPoint_eq precision board
    obtain ⟨later, loadsOther, otherExtension, otherLt⟩ := right.fixedPoint_eq precision first
    have prepares := gapCommands_fixed leftOld rightOld lt otherLt range
    refine ⟨_, board.nextTemporary + 1, later, ?_, rfl, extension.trans otherExtension, prepares⟩
    unfold difference
    rw [notBoth]
    change (counters (left.fixedPoint selfTarget precision) >>= _) before = _
    have loadsNext : counters (right.fixedPoint selfTarget precision) (before.setBoard first) =
        .ok _ (before.setBoard later) := counters_of_ok loadsOther
    exact (bind_of_ok (counters_of_ok loads)).trans ((bind_of_ok loadsNext).trans rfl)

theorem compareLiteral_prepares (old : counter.IsOld before.scoreboard.nextTemporary)
    (comparable : literal.comparedAs?.isSome = true) (op : CompareOp) :
    ∃ commands objective later, compareLiteral counter literal before =
        .ok (commands, objective, counter.constantFor literal) (before.setBoard later) ∧
      (commands = [] ∧ later = before.scoreboard ∨
        commands.isEmpty = false ∧ before.scoreboard.Extends later) ∧
      Prepares before.scoreboard.nextTemporary later.nextTemporary commands
        [scoreFrame objective (rangeFor op (counter.constantFor literal))]
        (fun scores => (rangeFor op (counter.constantFor literal)).contains
          (counter.wrapped (counter.literalPrecision literal) scores)) fun _ => True := by
  obtain ⟨number, compared⟩ := isSome_iff_exists.1 comparable
  have reads : literalNumber literal before = .ok number before := literalNumber_of_some compared
  cases inPlace : (counter.kind.isIntegerLike && literal.precision == 0) with
  | true =>
    obtain ⟨simple, places⟩ := Bool.and_eq_true_iff.1 inPlace
    have constant := constantFor_of_isIntegerLike simple (beq_iff_eq.1 places) compared
    simp only [wrapped_literalPrecision simple (beq_iff_eq.1 places)]
    refine ⟨[], counter.name, before.scoreboard, ?_, .inl ⟨rfl, rfl⟩,
      prepares_score (old.name simple) _⟩
    unfold compareLiteral
    rw [bind_of_ok reads, constant]
    simp only [inPlace, if_true]
    rfl
  | false =>
    let precision := counter.literalPrecision literal
    have constant : counter.constantFor literal =
        (number.mul (.ofInt32 (tenPower precision))).roundInt32 := by
      simp only [constantFor, inPlace, compared, getD_some, Bool.false_eq_true, if_false, precision]
    obtain ⟨later, loads, extension, lt⟩ := counter.fixedPoint_eq precision before.scoreboard
    refine ⟨_, _, later, ?_, .inr ⟨rfl, extension⟩, prepares_temporary lt
      (fun scores => fixedCommands_reaches old.isApart (le_max_left _ _)) _
      fun _ _ _ _ _ => trivial⟩
    unfold compareLiteral
    rw [bind_of_ok reads, constant]
    simp only [inPlace]
    change (counters (counter.fixedPoint selfTarget precision) >>= _) before = _
    exact (bind_of_ok (counters_of_ok loads)).trans rfl

section

variable {counter : Counter} {commands : List Command} {objective : String} {later : Scoreboard}
  (notRecord : ∀ name fields, counter.kind ≠ .record name fields) (op : CompareOp)

include notRecord

theorem lowerValue_literal {value : Int32} (compares : compareLiteral counter literal before =
      .ok (commands, objective, value) (before.setBoard later)) :
    lowerValue counter op (.literal literal) before =
      .ok { setup := commands.map .plain, frame := scoreFrame objective (rangeFor op value) }
        (before.setBoard (if commands.isEmpty then later else later.keepTemporaries)) := by
  unfold lowerValue
  rw [bind_of_ok (refuseRecord_of_notRecord notRecord)]
  dsimp only
  rw [bind_of_ok compares]
  cases commands <;> rfl

theorem lowerValue_counter {other : Counter} (found : before.scoreboard.get? accessor = some other)
    (otherNotRecord : ∀ name fields, other.kind ≠ .record name fields)
    (subtracts : difference counter other before =
      .ok (commands, objective) (before.setBoard later)) :
    lowerValue counter op (.counter accessor) before =
      .ok { setup := commands.map .plain, frame := scoreFrame objective (rangeFor op 0) }
        (before.setBoard (if commands.isEmpty then later else later.keepTemporaries)) := by
  have gets : counters (CounterM.get accessor) before = .ok other before :=
    counters_of_ok (CounterM.get_of_some found)
  unfold lowerValue
  rw [bind_of_ok (refuseRecord_of_notRecord notRecord)]
  dsimp only
  rw [bind_of_ok gets, bind_of_ok (refuseRecord_of_notRecord otherNotRecord), bind_of_ok subtracts]
  cases commands <;> rfl

end

theorem lowerTest_prepares (grows : entry.Grows before.scoreboard) {comparison : Comparison}
    (settled : comparison.IsSettled entry) :
    ∃ commands frame later, lowerTest comparison before =
        .ok { setup := commands.map .plain, frame } (before.setBoard later) ∧
      before.scoreboard.Grows later ∧ before.scoreboard.KeepsOn later ∧
      Prepares before.scoreboard.nextTemporary later.nextTemporary commands [frame]
        (fun scores => comparison.passes entry scores) (comparison.IsPrecise entry) := by
  obtain ⟨test, negated⟩ := comparison
  cases test with
  | flag counter =>
    have old : ¬IsScratch before.scoreboard.nextTemporary counter.name :=
      fun scratch => settled (scratch.mono grows.next_le)
    refine ⟨[], _, before.scoreboard, rfl, .refl _, fun _ => id, ?_⟩
    simp only [passes, ← Range.contains_exactly]
    exact prepares_score old _
  | value counter op other =>
    let chosen := operator ⟨.value counter op other, negated⟩ op
    cases other with
    | literal literal =>
      obtain ⟨old, comparable⟩ := settled
      obtain ⟨commands, objective, later, compares, kept, prepares⟩ :=
        compareLiteral_prepares (old.mono grows.next_le) comparable chosen
      have lowers := lowerValue_literal old.notRecord chosen compares
      rcases kept with ⟨rfl, rfl⟩ | ⟨nonempty, extension⟩
      · exact ⟨[], _, before.scoreboard, lowers, .refl _, fun _ => id, prepares⟩
      · rw [nonempty] at lowers
        exact ⟨commands, _, _, lowers, extension.grows.trans later.grows_keepTemporaries,
          fun _ keeps => keeps.keepTemporaries extension,
          later.nextTemporary_keepTemporaries.symm ▸ prepares⟩
    | counter accessor =>
      obtain ⟨old, finds, otherOld⟩ := settled
      obtain ⟨commands, index, later, subtracts, nonempty, extension, prepares⟩ :=
        difference_prepares (old.mono grows.next_le) (otherOld.mono grows.next_le)
          (rangeFor chosen 0)
      have lowers := lowerValue_counter old.notRecord chosen (finds.grow grows).found
        otherOld.notRecord subtracts
      rw [nonempty] at lowers
      exact ⟨commands, _, _, lowers, extension.grows.trans later.grows_keepTemporaries,
        fun _ keeps => keeps.keepTemporaries extension,
        later.nextTemporary_keepTemporaries.symm ▸ prepares⟩
  | _ => exact settled.elim

end BuildM

namespace Comparison

section

variable {board : Scoreboard} {comparison : Comparison} (settled : comparison.IsSettled board)

include settled

theorem IsSettled.ignores {scores later : Scores}
    (agrees : AgreesOff board.nextTemporary scores later) :
    comparison.passes board later = comparison.passes board scores ∧
      (comparison.IsPrecise board later ↔ comparison.IsPrecise board scores) := by
  obtain ⟨test, negated⟩ := comparison
  cases test with
  | flag counter =>
    simp only [passes, agrees counter.name settled, true_and]
    exact Iff.rfl
  | value counter op other =>
    cases other with
    | literal literal =>
      simp only [passes, (settled.1.congr agrees).2, true_and]
      exact Iff.rfl
    | counter accessor =>
      obtain ⟨old, -, otherOld⟩ := settled
      simp only [passes, IsPrecise, gap, (old.congr agrees).1, (old.congr agrees).2,
        (otherOld.congr agrees).1, (otherOld.congr agrees).2, and_self]
  | _ => exact settled.elim

end

section

variable {board : Scoreboard} {chain : List Comparison}
  (settled : ∀ comparison ∈ chain, comparison.IsSettled board)

include settled

theorem ignores_passAll : IgnoresScratch board.nextTemporary (passAll board chain) := by
  intro scores later agrees
  rw [passAll, passAll, Bool.eq_iff_iff, List.all_eq_true, List.all_eq_true]
  refine forall₂_congr fun comparison member => ?_
  exact Bool.eq_iff_iff.1 ((settled comparison member).ignores agrees).1

theorem ignores_allPrecise : IgnoresScratch board.nextTemporary
    fun scores => ∀ comparison ∈ chain, comparison.IsPrecise board scores := by
  intro scores later agrees
  refine propext (forall₂_congr fun comparison member => ?_)
  exact ((settled comparison member).ignores agrees).2

end

end Comparison

namespace BuildM

variable {entry : Scoreboard} {before : Build}

theorem lowerOnto_prepares (grows : entry.Grows before.scoreboard) {chain : List Comparison}
    (settled : ∀ comparison ∈ chain, comparison.IsSettled entry) (lowered : LoweredChain) :
    ∃ commands frames later, lowerOnto lowered chain before =
        .ok { setup := lowered.setup ++ commands.map .plain, setupFrames := lowered.setupFrames,
              frames := lowered.frames ++ frames } (before.setBoard later) ∧
      before.scoreboard.Grows later ∧ before.scoreboard.KeepsOn later ∧
      Prepares before.scoreboard.nextTemporary later.nextTemporary commands frames
        (passAll entry chain)
        fun scores => ∀ comparison ∈ chain, comparison.IsPrecise entry scores := by
  induction chain generalizing before lowered with
  | nil =>
    have nothing := prepares_nil before.scoreboard.nextTemporary
    refine ⟨[], [], before.scoreboard, ?_, .refl _, fun _ => id, nothing.stable, nothing.reaches,
      fun _ _ _ _ => forall_mem_nil _⟩
    rw [map_nil, append_nil, append_nil]
    rfl
  | cons comparison chain ih =>
    obtain ⟨first, others⟩ := forall_mem_cons.1 settled
    obtain ⟨commands, frame, middle, lowers, growsMiddle, keepsMiddle, prepares⟩ :=
      lowerTest_prepares grows first
    let partly : LoweredChain :=
      { setup := lowered.setup ++ commands.map .plain, setupFrames := lowered.setupFrames ++ [],
        frames := lowered.frames ++ [frame] }
    -- neither a flag nor a comparison of numbers moves what comes after it
    have step : lowerOnto lowered (comparison :: chain) before =
        lowerOnto partly chain (before.setBoard middle) := by
      rw [lowerOnto, bind_of_ok lowers]
      obtain ⟨test, negated⟩ := comparison
      cases test with
      | flag counter => rfl
      | value counter op other => rfl
      | _ => exact first.elim
    obtain ⟨laterCommands, laterFrames, later, lowersLater, growsLater, keepsLater, preparesLater⟩ :=
      @ih (before.setBoard middle) (grows.trans growsMiddle) others partly
    have both := prepares.append growsMiddle.next_le growsLater.next_le preparesLater
      ((ignores_passAll others).mono grows.next_le)
      ((ignores_allPrecise others).mono grows.next_le)
    refine ⟨commands ++ laterCommands, [frame] ++ laterFrames, later, ?_,
      growsMiddle.trans growsLater, fun entry keeps => keepsLater entry (keepsMiddle entry keeps),
      both.stable, both.reaches, fun calls scores reached replayed =>
        forall_mem_cons.2 (both.isPrecise calls scores reached replayed)⟩
    rw [step, lowersLater]
    simp [partly, Build.setBoard]

theorem lowerChain_prepares (self : before.active = .self) (grows : entry.Grows before.scoreboard)
    {chain : List Comparison} (settled : ∀ comparison ∈ chain, comparison.IsSettled entry) :
    ∃ commands frames later, lowerChain chain before =
        .ok { setup := commands.map .plain, setupFrames := [], frames } (before.setBoard later) ∧
      before.scoreboard.Grows later ∧ before.scoreboard.KeepsOn later ∧
      Prepares before.scoreboard.nextTemporary later.nextTemporary commands frames
        (passAll entry chain)
        fun scores => ∀ comparison ∈ chain, comparison.IsPrecise entry scores := by
  have unaligned : Selector.self.alignment = [] := by decide
  obtain ⟨commands, frames, later, lowers, rest⟩ :=
    lowerOnto_prepares grows settled { setupFrames := [], frames := [] }
  refine ⟨commands, frames, later, ?_, rest⟩
  unfold lowerChain
  rw [bind_of_ok (get_apply before), self, unaligned]
  exact lowers

end BuildM

end ScriptPack
