import ScriptPack.Proofs.Folding
import ScriptPack.Proofs.Composition
import ScriptPack.Proofs.Temporaries

/-!
Expressions over counters are computed by commands. Each operator writes commands that leave its
result in a new temporary; replayed, they do to the scores what folding does to the numbers that
the tokens denote. Nothing but new temporaries is written, so what the other tokens denote stays.
-/

namespace ScriptPack

open Build Command CommandFile CounterM Option Scores

open Counter (assign combine)
open Scoreboard (temporaryObjective)
open List

variable {before after : Build} {scores : Scores} {board later : Scoreboard}
  {op : ArithOp} {tokens results rest seen outside : List Token} {symbol : Symbol} {token : Token}
  {left right : String} {first second : Counter} {replaced : Bool}
variable {quantity : Quantity} {symbols : List Symbol} {fold : List Symbol → Option (List Symbol)}
  {build : Build}

def Scores.AgreesBelow (limit : Nat) (scores later : Scores) : Prop :=
  ∀ objective, (∀ index, limit ≤ index → objective ≠ temporaryObjective index) →
    later objective = scores objective

theorem Scores.AgreesBelow.refl (limit : Nat) (scores : Scores) : AgreesBelow limit scores scores :=
  fun _ _ => rfl

theorem Scores.AgreesBelow.trans {limit middleLimit : Nat} {middle later : Scores}
    (le : limit ≤ middleLimit) (first : AgreesBelow limit scores middle)
    (second : AgreesBelow middleLimit middle later) : AgreesBelow limit scores later := by
  intro objective old
  rw [second objective fun index bound => old index (le.trans bound), first objective old]

theorem Scores.agreesBelow_put {limit index : Nat} (le : limit ≤ index) (scores : Scores)
    (value : Int32) : AgreesBelow limit scores (scores.put (temporaryObjective index) value) := by
  intro objective old
  exact put_other (old index le)

/-- Commands that can be replayed from some scores, and write new temporaries only. -/
structure Reaches (limit : Nat) (commands : List Command) (scores later : Scores) : Prop where
  replayed : ∀ calls, replayAll? calls commands scores = some later
  agrees : AgreesBelow limit scores later

theorem Reaches.refl (limit : Nat) (scores : Scores) : Reaches limit [] scores scores :=
  ⟨fun _ => rfl, .refl limit scores⟩

theorem Reaches.trans {limit middleLimit : Nat} {first second : List Command}
    {middle later : Scores} (le : limit ≤ middleLimit)
    (early : Reaches limit first scores middle) (late : Reaches middleLimit second middle later) :
    Reaches limit (first ++ second) scores later where
  replayed := fun calls => by
    rw [replayAll?_append, early.replayed, bind_some, late.replayed]
  agrees := early.agrees.trans le late.agrees

theorem CommandFile.append_append (file : CommandFile) (first second : List Line) :
    (file.append first).append second = file.append (first ++ second) := by
  simp [append]

namespace Build

/-- The line of a command that is written for the selected entities. -/
def framed (build : Build) (command : Command) : Line :=
  ⟨build.frames ++ build.active.alignment, command⟩

/-- The state when counters have changed and commands have been written for the selected
entities. -/
def lowered (build : Build) (board : Scoreboard) (commands : List Command) : Build :=
  { build with
    scoreboard := board
    file := build.file.append (commands.map build.framed) }

/-- Without frames, the executing entity's commands stand as they are. -/
theorem framed_self {build : Build} (self : build.active = .self) (noFrames : build.frames = []) :
    build.framed = Line.plain := by
  have unaligned : Selector.self.alignment = [] := by decide
  funext command
  rw [framed, self, noFrames, unaligned]
  rfl

theorem lowered_nil (build : Build) : build.lowered build.scoreboard [] = build := by
  simp [lowered, append]

theorem lowered_lowered (build : Build) (board next : Scoreboard) (commands others : List Command) :
    (build.lowered board commands).lowered next others =
      build.lowered next (commands ++ others) := by
  simp [lowered, append, framed]

theorem emitAligned_singleton (build : Build) (command : Command) (word : String) :
    build.emitAligned [command] word = build.lowered build.scoreboard [command] := rfl

/-- Commands have been written and temporaries asked for, and nothing else has happened. -/
structure Lowers (before after : Build) (commands : List Command) : Prop where
  state : after = before.lowered after.scoreboard commands
  board : before.scoreboard.Extends after.scoreboard

section

variable {before after : Build} {commands : List Command}

namespace Lowers

variable (lowers : Lowers before after commands)

include lowers

theorem file : after.file = before.file.append (commands.map before.framed) := by
  rw [lowers.state]
  rfl

theorem active : after.active = before.active := by
  rw [lowers.state]
  rfl

theorem frames : after.frames = before.frames := by
  rw [lowers.state]
  rfl

theorem pack : after.pack = before.pack := by
  rw [lowers.state]
  rfl

end Lowers

end

theorem Lowers.unique {commands others : List Command} (lowers : Lowers before after commands)
    (again : Lowers before after others) : commands = others := by
  have lines := append_cancel_left (congrArg CommandFile.lines (lowers.file.symm.trans again.file))
  exact map_injective_iff.2 (fun _ _ same => congrArg Line.command same) lines

theorem Lowers.refl (build : Build) : Lowers build build [] :=
  ⟨build.lowered_nil.symm, .refl _⟩

theorem Lowers.trans {middle : Build} {first second : List Command}
    (early : Lowers before middle first) (late : Lowers middle after second) :
    Lowers before after (first ++ second) where
  state := by
    have late := late.state
    rw [early.state, lowered_lowered] at late
    exact late
  board := early.board.trans late.board

end Build

theorem Build.emitBatchKeeping_of_noFrames (noFrames : build.frames = []) (lines : List Line)
    (word : String) : build.emitBatchKeeping lines word = build.write lines := by
  rcases lines with _ | ⟨first, _ | ⟨second, rest⟩⟩
  · simp [emitBatchKeeping, write, append]
  · simp [emitBatchKeeping, emitKeeping, noFrames, Line.within]
  · simp [emitBatchKeeping, noFrames]

theorem Build.emitBatch_of_noFrames (noFrames : build.frames = []) (lines : List Line)
    (word : String) (inPlace : Bool) : build.emitBatch lines word inPlace = build.write lines := by
  have within (line : Line) : line.within [] = line := rfl
  rw [emitBatch_eq, emitBatchKeeping_of_noFrames noFrames]
  simp [noFrames, within, write]

/-- Without frames, the executing entity's commands are written as they stand. -/
theorem BuildM.emitAllSelected_self {before : Build} (self : before.active = .self)
    (noFrames : before.frames = []) (commands : List Command) (word : String) :
    emitAllSelected commands word before = .ok () (before.write (commands.map .plain)) := by
  have aligns : before.align = before.pushSelector .self := by
    have unaligned : Selector.self.needsAlign = false := by decide
    rw [align, self, unaligned]
    rfl
  have noFramesPushed : (before.pushSelector .self).frames = [] := noFrames
  unfold emitAllSelected aligned emitAll
  rw [bind_of_ok (modify_apply _ before), bind_of_ok (modify_apply _ _), modify_apply, aligns,
    emitBatch_of_noFrames noFramesPushed]
  simp [write, pushSelector, popSelector, ← self]

def Operand.kind : Operand → TokenKind
  | literal value => .literal value
  | counter accessor => .counter accessor

variable {kind : TokenKind}

theorem View.operand_eq_some_iff {operand : Operand} :
    View.operand.view? kind = some operand ↔ kind = operand.kind := by
  cases kind <;> cases operand <;> simp [View.operand, Operand.kind]

namespace TokenKind

def isMark : TokenKind → Bool
  | literal _ | counter _ | arith _ | openParen | closeParen => false
  | _ => true

/-- What a token stands for under some scores. -/
inductive Denotes (board : Scoreboard) (scores : Scores) : TokenKind → Symbol → Prop where
  | literal (value : Int32) : Denotes board scores (.literal (.int value))
      (.quantity ⟨value, .constant⟩)
  | counter {accessor : String} {counter : Counter} (names : board.Names accessor counter) :
      Denotes board scores (.counter accessor)
        (.quantity ⟨scores counter.name, .counter accessor⟩)
  | computed {index : Nat} {kind : CounterKind}
      (names : board.Names (temporaryObjective index)
        ⟨temporaryObjective index, kind⟩) :
      Denotes board scores (.counter (temporaryObjective index))
        (.quantity ⟨scores (temporaryObjective index), .computed⟩)
  | arith (op : ArithOp) : Denotes board scores (.arith op) (.arith op)
  | openParen : Denotes board scores .openParen .openParen
  | closeParen : Denotes board scores .closeParen .closeParen
  | mark {kind : TokenKind} (isMark : kind.isMark = true) : Denotes board scores kind (.mark kind)

variable {next : Scores}

theorem Denotes.keep (denotes : kind.Denotes board scores symbol) (grows : board.Grows later)
    (same : ∀ accessor counter, kind = .counter accessor → board.Names accessor counter →
      next counter.name = scores counter.name) :
    kind.Denotes later next symbol := by
  cases denotes with
  | literal value => exact .literal value
  | counter names =>
    rw [← same _ _ rfl names]
    exact .counter (names.grow grows)
  | computed names =>
    rw [← same _ _ rfl names]
    exact .computed (names.grow grows)
  | arith op => exact .arith op
  | openParen => exact .openParen
  | closeParen => exact .closeParen
  | mark isMark => exact .mark isMark

theorem Denotes.grow (denotes : kind.Denotes board scores symbol) (grows : board.Grows later)
    (agrees : AgreesBelow board.nextTemporary scores next) : kind.Denotes later next symbol :=
  denotes.keep grows fun _ _ _ names => agrees _ names.name_old

theorem Denotes.extend (denotes : kind.Denotes board scores symbol)
    (extension : board.Extends later) (agrees : AgreesBelow board.nextTemporary scores next) :
    kind.Denotes later next symbol :=
  denotes.grow extension.grows agrees

end TokenKind

theorem TokenKind.Denotes.counter_value {accessor : String}
    (denotes : (TokenKind.counter accessor).Denotes board scores (.quantity quantity)) :
    ∃ counter, board.Names accessor counter ∧ quantity.value = scores counter.name ∧
      quantity.source ≠ .constant := by
  cases denotes with
  | counter names | computed names => exact ⟨_, names, rfl, nofun⟩

theorem TokenKind.Denotes.of_stored {index : Nat} {kind : CounterKind}
    (names : board.Names (temporaryObjective index) ⟨temporaryObjective index, kind⟩)
    (stored : scores (temporaryObjective index) = quantity.value)
    (source : quantity.source = .computed) :
    (TokenKind.counter (temporaryObjective index)).Denotes board scores
      (.quantity quantity) := by
  obtain ⟨value, origin⟩ := quantity
  cases source
  cases stored
  exact .computed names

theorem Quantity.combine?_of_ne {left right result : Quantity}
    (combined : left.combine? op right = some result)
    (scored : left.source ≠ .constant ∨ right.source ≠ .constant) :
    op.compute? left.value right.value = some result.value ∧ result.source = .computed := by
  obtain ⟨value, computed, rfl⟩ := map_eq_some_iff.1 combined
  refine ⟨computed, ?_⟩
  cases leftSource : left.source <;> cases rightSource : right.source <;>
    simp_all [Source.join]

theorem Counter.assign_of_isIntegerLike {left right : Counter} (target : String)
    (op : Option ArithOp) (leftSimple : left.kind.isIntegerLike = true)
    (rightSimple : right.kind.isIntegerLike = true) :
    assign target left op right = pure [combine target left.name op right.name] := by
  obtain ⟨leftName, leftKind⟩ := left
  obtain ⟨rightName, rightKind⟩ := right
  cases leftKind <;> cases rightKind <;>
    simp_all [assign, Counter.assignKinds, CounterKind.isIntegerLike]

section Commands

variable {scores : Scores}

theorem replay?_copy (calls : Calls) (left right : String) :
    (combine selfTarget left none right).replay? calls scores =
      some (scores.put left (scores right)) := by
  simp [combine, replay?, ScoreOp.compute?]

theorem replay?_combine (calls : Calls) (left : String) (op : ArithOp) (right : String) :
    (combine selfTarget left (some op) right).replay? calls scores =
      (op.compute? (scores left) (scores right)).map (scores.put left) := by
  simp [combine, replay?, ScoreOp.compute?]

theorem replay?_scoreSet (calls : Calls) (objective : String) (value : Int32) :
    (scoreSet selfTarget objective value).replay? calls scores =
      some (scores.put objective value) := by
  simp [replay?]

theorem reaches_load_combine {limit index : Nat} {load : Command} {op : ArithOp}
    {value result : Int32} {right : String} (le : limit ≤ index)
    (loads : ∀ calls, load.replay? calls scores =
      some (scores.put (temporaryObjective index) value))
    (rightOld : right ≠ temporaryObjective index)
    (computed : op.compute? value (scores right) = some result) :
    ∃ later, Reaches limit
        [load, combine selfTarget (temporaryObjective index) (some op) right]
        scores later ∧
      later (temporaryObjective index) = result := by
  let loaded := scores.put (temporaryObjective index) value
  refine ⟨loaded.put (temporaryObjective index) result, ⟨?_, ?_⟩, ?_⟩
  · intro calls
    rw [replayAll?_cons, loads, bind_some, replayAll?_singleton, replay?_combine,
      put_same, put_other rightOld, computed, map_some]
  · exact (agreesBelow_put le scores value).trans le_rfl (agreesBelow_put le _ result)
  · exact put_same _ _ _

end Commands

namespace BuildM

section

variable {before after : Build}

theorem counters_get {accessor : String} {counter : Counter}
    (names : before.scoreboard.Names accessor counter) :
    counters (get accessor) before = .ok counter before :=
  counters_of_ok (get_of_some names.found)

theorem counters_temporary (kind : CounterKind) :
    counters (temporary kind) before =
      .ok ⟨temporaryObjective before.scoreboard.nextTemporary, kind⟩
        (before.lowered (before.scoreboard.temporary kind).2 []) := by
  rw [counters_of_ok (temporary_apply kind before.scoreboard), Scoreboard.temporary_fst]
  simp [lowered, append]

theorem emitComputation_of_ok {computation : CounterM (List Command)} {command : Command}
    (done : computation before.scoreboard = .ok [command] before.scoreboard) (word : String) :
    emitComputation computation word before =
      .ok () (before.lowered before.scoreboard [command]) := by
  unfold emitComputation
  rw [bind_of_ok (counters_of_ok done), modify_apply, emitAligned_singleton]

theorem emitComputation_setLiteral (name : String) (value : Int32) (word : String) :
    emitComputation (pure ((⟨name, .int⟩ : Counter).setLiteral selfTarget (.int value))) word
        before =
      .ok () (before.lowered before.scoreboard [.scoreSet selfTarget name value]) :=
  emitComputation_of_ok rfl word

theorem emitComputation_assign (left : String) {kind : CounterKind} {right : Counter}
    (op : Option ArithOp) (leftSimple : kind.isIntegerLike = true)
    (rightSimple : right.kind.isIntegerLike = true) (word : String) :
    emitComputation (assign selfTarget ⟨left, kind⟩ op right) word before =
      .ok () (before.lowered before.scoreboard
        [combine selfTarget left op right.name]) := by
  rw [Counter.assign_of_isIntegerLike selfTarget op leftSimple rightSimple]
  exact emitComputation_of_ok rfl word

theorem lowerInto_of_isIntegerLike {left right : Counter} (result : String) (op : ArithOp)
    (leftSimple : left.kind.isIntegerLike = true) (rightSimple : right.kind.isIntegerLike = true) :
    lowerInto ⟨result, left.kind⟩ left op right before =
      .ok () (before.lowered before.scoreboard
        [combine selfTarget result none left.name,
          combine selfTarget result (some op) right.name]) := by
  unfold lowerInto
  rw [bind_of_ok (emitComputation_assign result none leftSimple leftSimple _),
    emitComputation_assign result (some op) leftSimple rightSimple, lowered_lowered]
  rfl

end

theorem evaluatePair_counters (op : ArithOp) (leftNames : before.scoreboard.Names left first)
    (rightNames : before.scoreboard.Names right second) :
    let result := temporaryObjective before.scoreboard.nextTemporary
    evaluatePair (.counter left) op (.counter right) before =
      .ok (.counter result)
        (before.lowered (before.scoreboard.temporary first.kind).2
          [combine selfTarget result none first.name,
            combine selfTarget result (some op) second.name]) := by
  intro result
  simp only [evaluatePair]
  rw [bind_of_ok (counters_get leftNames), bind_of_ok (counters_get rightNames),
    bind_of_ok (counters_temporary first.kind),
    bind_of_ok (lowerInto_of_isIntegerLike _ op leftNames.simple rightNames.simple), pure_apply,
    lowered_lowered]
  rfl

theorem evaluatePair_number_counter {left : Int32}
    (op : ArithOp) (rightNames : before.scoreboard.Names right second) :
    let result := temporaryObjective before.scoreboard.nextTemporary
    evaluatePair (.literal (.int left)) op (.counter right) before =
      .ok (.counter result)
        (before.lowered (before.scoreboard.temporary .int).2
          [.scoreSet selfTarget result left, combine selfTarget result (some op) second.name]) := by
  intro result
  simp only [evaluatePair]
  rw [bind_of_ok (counters_get rightNames)]
  change (counters (temporary .int) >>= _) before = _
  rw [bind_of_ok (counters_temporary .int), bind_of_ok (emitComputation_setLiteral _ left _),
    bind_of_ok (emitComputation_assign _ (some op) rfl rightNames.simple _), pure_apply,
    lowered_lowered, lowered_lowered]
  rfl

theorem evaluatePair_counter_number {right : Int32}
    (op : ArithOp) (leftNames : before.scoreboard.Names left first) :
    let held := temporaryObjective before.scoreboard.nextTemporary
    let result := temporaryObjective (before.scoreboard.nextTemporary + 1)
    evaluatePair (.counter left) op (.literal (.int right)) before =
      .ok (.counter result)
        (before.lowered ((before.scoreboard.temporary .int).2.temporary first.kind).2
          [.scoreSet selfTarget held right, combine selfTarget result none first.name,
            combine selfTarget result (some op) held]) := by
  intro held result
  simp only [evaluatePair]
  rw [bind_of_ok (counters_get leftNames)]
  change (counters (temporary .int) >>= _) before = _
  rw [bind_of_ok (counters_temporary .int), bind_of_ok (emitComputation_setLiteral _ right _),
    bind_of_ok (counters_temporary first.kind),
    bind_of_ok (lowerInto_of_isIntegerLike _ op leftNames.simple rfl), pure_apply,
    lowered_lowered, lowered_lowered, lowered_lowered]
  have next : (before.scoreboard.temporary .int).2.nextTemporary =
      before.scoreboard.nextTemporary + 1 := Scoreboard.nextTemporary_temporary _ _
  simp only [lowered, next]
  rfl

/-- Where there is an outcome, the step succeeds, and its commands bring the scores to ones under
which its result stands for that outcome. -/
def Evaluates {α τ : Type} (before : Build) (scores : Scores) (step : BuildM α) (outcome : Option τ)
    (denotes : Scoreboard → Scores → α → τ → Prop) : Prop :=
  ∀ folded, outcome = some folded →
    ∃ value after commands later, step before = .ok value after ∧ before.Lowers after commands ∧
      Reaches before.scoreboard.nextTemporary commands scores later ∧
      denotes after.scoreboard later value folded

section

variable {α β τ υ : Type} {denotes : Scoreboard → Scores → α → τ → Prop}

theorem evaluates_pure {value : α} {folded : τ} (holds : denotes before.scoreboard scores value folded) :
    Evaluates before scores (pure value) (some folded) denotes := by
  rintro _ ⟨⟩
  exact ⟨value, before, [], scores, rfl, .refl before, .refl _ _, holds⟩

theorem Evaluates.bind {step : BuildM α} {outcome : Option τ} {next : α → BuildM β}
    {second : τ → Option υ} {result : Scoreboard → Scores → β → υ → Prop}
    (early : Evaluates before scores step outcome denotes)
    (late : ∀ value middle later folded, before.scoreboard.Extends middle.scoreboard →
      AgreesBelow before.scoreboard.nextTemporary scores later →
      denotes middle.scoreboard later value folded →
      Evaluates middle later (next value) (second folded) result) :
    Evaluates before scores (step >>= next) (outcome.bind second) result := by
  intro folded folds
  obtain ⟨halfway, firstFolds, secondFolds⟩ := bind_eq_some_iff.1 folds
  obtain ⟨value, middle, commands, reached, run, lowers, reaches, holds⟩ := early halfway firstFolds
  obtain ⟨result, after, others, later, continued, lowersLater, reachesLater, holds⟩ :=
    late value middle reached halfway lowers.board reaches.agrees holds folded secondFolds
  exact ⟨result, after, commands ++ others, later, (bind_of_ok run).trans continued,
    lowers.trans lowersLater, reaches.trans lowers.board.next_le reachesLater, holds⟩

end

/-- One operator, whose result is worth this much. -/
def EvaluatesPair (before : Build) (scores : Scores) (left : Operand) (op : ArithOp) (right : Operand)
    (outcome : Option Quantity) : Prop :=
  Evaluates before scores (evaluatePair left op right) outcome
    fun board scores kind quantity => kind.Denotes board scores (.quantity quantity)

theorem evaluatesPair_numbers (left : Int32) (op : ArithOp) (right : Int32) :
    EvaluatesPair before scores (.literal (.int left)) op (.literal (.int right))
      ((⟨left, .constant⟩ : Quantity).combine? op ⟨right, .constant⟩) := by
  intro folded combines
  obtain ⟨number, isNumber, rfl⟩ := map_eq_some_iff.1 combines
  refine ⟨_, before, [], scores, ?_, .refl _, .refl _ _, .literal number⟩
  have applied : op.onInt32 left right = .ok number := ArithOp.onInt32_eq_ok_iff.2 isNumber
  change (ofExcept .value ((op.onInt32 left right).map Value.int) >>= _) before = _
  rw [applied]
  rfl

/-- The operand on the left is loaded into a new temporary, with which the counter on the right is
combined. -/
theorem evaluatesPair_of_load {left : Operand} {kind : CounterKind} {load : Command} {value : Int32}
    (rightNames : before.scoreboard.Names right second) (simple : kind.isIntegerLike = true)
    (run : let result := temporaryObjective before.scoreboard.nextTemporary
      evaluatePair left op (.counter right) before = .ok (.counter result)
        (before.lowered (before.scoreboard.temporary kind).2
          [load, combine selfTarget result (some op) second.name]))
    (loads : ∀ calls, load.replay? calls scores = some (scores.put
      (temporaryObjective before.scoreboard.nextTemporary) value))
    (computed : op.compute? value (scores second.name) = some quantity.value)
    (source : quantity.source = .computed) :
    EvaluatesPair before scores left op (.counter right) (some quantity) := by
  rintro _ ⟨⟩
  obtain ⟨later, reaches, stored⟩ := reaches_load_combine le_rfl loads
    (rightNames.name_old _ le_rfl) computed
  exact ⟨_, _, _, later, run, ⟨rfl, before.scoreboard.extends_temporary kind⟩, reaches,
    .of_stored (before.scoreboard.names_temporary simple) stored source⟩

theorem evaluatesPair_counter_number {right : Int32} (leftNames : before.scoreboard.Names left first)
    (computed : op.compute? (scores first.name) right = some quantity.value)
    (source : quantity.source = .computed) :
    EvaluatesPair before scores (.counter left) op (.literal (.int right)) (some quantity) := by
  rintro _ ⟨⟩
  have next := before.scoreboard.nextTemporary_temporary .int
  have names := (before.scoreboard.temporary .int).2.names_temporary leftNames.simple
  rw [next] at names
  -- the literal is held in the temporary before the one that takes the result
  let index := before.scoreboard.nextTemporary
  let held := scores.put (temporaryObjective index) right
  have holds : Reaches index [.scoreSet selfTarget (temporaryObjective index) right] scores held :=
    ⟨fun calls => by rw [replayAll?_singleton, replay?_scoreSet],
      Scores.agreesBelow_put le_rfl scores right⟩
  have different : temporaryObjective index ≠ temporaryObjective (index + 1) := by
    rw [Ne, Scoreboard.temporaryObjective_inj]
    omega
  have leftKept : held first.name = scores first.name :=
    Scores.put_other (leftNames.name_old _ le_rfl)
  have rightHeld : held (temporaryObjective index) = right := Scores.put_same _ _ _
  rw [← leftKept, ← rightHeld] at computed
  obtain ⟨later, reaches, stored⟩ := reaches_load_combine le_rfl
    (fun calls => replay?_copy calls _ first.name) different computed
  exact ⟨_, _, _, later, evaluatePair_counter_number op leftNames,
    ⟨rfl, (before.scoreboard.extends_temporary .int).trans (Scoreboard.extends_temporary _ first.kind)⟩,
    holds.trans (Nat.le_succ _) reaches, .of_stored names stored source⟩

/-- One operator on integers. Its commands leave the result in a temporary, unless both operands
are written numbers. -/
theorem evaluatesPair_of_denotes {left right : Operand} {first second : Quantity}
    (leftDenotes : left.kind.Denotes before.scoreboard scores (.quantity first))
    (rightDenotes : right.kind.Denotes before.scoreboard scores (.quantity second)) (op : ArithOp) :
    EvaluatesPair before scores left op right (first.combine? op second) := by
  intro folded combines
  have combined := Quantity.combine?_of_ne combines
  cases left with
  | literal leftValue =>
    cases leftDenotes with | literal leftNumber => ?_
    cases right with
    | literal rightValue =>
      cases rightDenotes with | literal rightNumber => ?_
      exact evaluatesPair_numbers leftNumber op rightNumber folded combines
    | counter accessor =>
      obtain ⟨counter, names, value, source⟩ := rightDenotes.counter_value
      obtain ⟨computed, isComputed⟩ := combined (.inr source)
      rw [value] at computed
      exact evaluatesPair_of_load names rfl (evaluatePair_number_counter op names)
        (fun calls => replay?_scoreSet calls _ leftNumber) computed isComputed folded rfl
  | counter leftAccessor =>
    obtain ⟨leftCounter, leftNames, leftValue, leftSource⟩ := leftDenotes.counter_value
    obtain ⟨computed, isComputed⟩ := combined (.inl leftSource)
    rw [leftValue] at computed
    cases right with
    | literal rightValue =>
      cases rightDenotes with | literal rightNumber => ?_
      exact evaluatesPair_counter_number leftNames computed isComputed folded rfl
    | counter rightAccessor =>
      obtain ⟨rightCounter, rightNames, rightValue, -⟩ := rightDenotes.counter_value
      rw [rightValue] at computed
      exact evaluatesPair_of_load rightNames leftNames.simple
        (evaluatePair_counters op leftNames rightNames) (fun calls => replay?_copy calls _ _)
        computed isComputed folded rfl

end BuildM

def DenoteAll (board : Scoreboard) (scores : Scores) (tokens : List Token)
    (symbols : List Symbol) : Prop :=
  Forall₂ (fun token symbol => token.kind.Denotes board scores symbol) tokens symbols

theorem DenoteAll.extend {next : Scores} (denote : DenoteAll board scores tokens symbols)
    (extension : board.Extends later) (agrees : AgreesBelow board.nextTemporary scores next) :
    DenoteAll later next tokens symbols :=
  denote.imp fun _ _ denotes => denotes.extend extension agrees

theorem TokenKind.Denotes.operand {operand : Operand}
    (denotes : operand.kind.Denotes board scores symbol) :
    ∃ quantity, symbol = .quantity quantity := by
  cases operand with
  | literal value =>
    cases denotes with
    | literal value => exact ⟨_, rfl⟩
    | mark isMark => contradiction
  | counter accessor =>
    cases denotes with
    | counter names => exact ⟨_, rfl⟩
    | computed names => exact ⟨_, rfl⟩
    | mark isMark => contradiction

theorem TokenKind.Denotes.eq_arith (denotes : (TokenKind.arith op).Denotes board scores symbol) :
    symbol = .arith op := by
  cases denotes with
  | arith op => rfl
  | mark isMark => contradiction

theorem TokenKind.Denotes.kind_of_arith
    (denotes : kind.Denotes board scores (.arith op)) : kind = .arith op := by
  cases denotes with
  | arith op => rfl

theorem TokenKind.Denotes.operand_of_quantity
    (denotes : kind.Denotes board scores (.quantity quantity)) :
    ∃ operand, View.operand.view? kind = some operand := by
  cases denotes with
  | literal value => exact ⟨_, rfl⟩
  | counter names => exact ⟨_, rfl⟩
  | computed names => exact ⟨_, rfl⟩

section Parentheses

variable {board : Scoreboard} {scores : Scores}

theorem TokenKind.Denotes.eq_paren_iff (denotes : kind.Denotes board scores symbol) :
    (kind = .openParen ↔ symbol = .openParen) ∧ (kind = .closeParen ↔ symbol = .closeParen) := by
  cases denotes with
  | mark isMark =>
    constructor
    all_goals
      refine ⟨?_, by simp⟩
      rintro rfl
      contradiction
  | _ => simp

theorem TokenKind.Denotes.takesArguments_eq (denotes : token.kind.Denotes board scores symbol) :
    BuildM.takesArguments token = symbol.takesArguments := by
  generalize kind : token.kind = tokenKind at denotes
  cases denotes <;> simp [BuildM.takesArguments, Symbol.takesArguments, kind]

theorem DenoteAll.takesArguments_eq (denote : DenoteAll board scores tokens symbols) :
    tokens.head?.any BuildM.takesArguments = symbols.head?.any Symbol.takesArguments := by
  cases denote with
  | nil => rfl
  | cons denotes _ => exact denotes.takesArguments_eq

end Parentheses

namespace BuildM

variable {operator : Token} {leftOperand rightOperand : Operand} {high : Bool}

theorem tierStart?_eq_some_iff {left right : Token} :
    tierStart? high left operator right = some (leftOperand, op, rightOperand) ↔
      operator.kind = .arith op ∧ op.isHighTier = high ∧ left.kind = leftOperand.kind ∧
        right.kind = rightOperand.kind := by
  rw [← View.operand_eq_some_iff, ← View.operand_eq_some_iff]
  unfold tierStart?
  cases operator.kind with
  | arith other =>
    by_cases tier : other.isHighTier = high <;> cases View.operand.view? left.kind <;>
      cases View.operand.view? right.kind <;> simp [tier] <;> grind
  | _ => simp

theorem symbols_of_operation {left right : Token} (isOperator : operator.kind = .arith op)
    (leftKind : left.kind = leftOperand.kind) (rightKind : right.kind = rightOperand.kind)
    (denote : DenoteAll board scores (left :: operator :: right :: rest) symbols) :
    ∃ first second tail, symbols = .quantity first :: .arith op :: .quantity second :: tail ∧
      leftOperand.kind.Denotes board scores (.quantity first) ∧
      rightOperand.kind.Denotes board scores (.quantity second) ∧
      DenoteAll board scores rest tail := by
  obtain ⟨_, _, leftDenotes, denoteOthers, rfl⟩ := forall₂_cons_left_iff.1 denote
  obtain ⟨_, _, operatorDenotes, denoteRight, rfl⟩ := forall₂_cons_left_iff.1 denoteOthers
  obtain ⟨_, tail, rightDenotes, denoteRest, rfl⟩ := forall₂_cons_left_iff.1 denoteRight
  rw [leftKind] at leftDenotes
  rw [isOperator] at operatorDenotes
  rw [rightKind] at rightDenotes
  obtain ⟨first, rfl⟩ := leftDenotes.operand
  obtain ⟨second, rfl⟩ := rightDenotes.operand
  cases operatorDenotes.eq_arith
  exact ⟨first, second, tail, rfl, leftDenotes, rightDenotes, denoteRest⟩

theorem evaluateTier_evaluates (denote : DenoteAll before.scoreboard scores tokens symbols) :
    Evaluates before scores (evaluateTier high tokens) (foldTier high symbols) DenoteAll := by
  fun_induction evaluateTier high tokens generalizing before scores symbols with
  | case1 left operator right rest leftOperand op rightOperand start ih =>
    obtain ⟨isOperator, tier, leftKind, rightKind⟩ := tierStart?_eq_some_iff.1 start
    obtain ⟨first, second, tail, rfl, leftDenotes, rightDenotes, denoteRest⟩ :=
      symbols_of_operation isOperator leftKind rightKind denote
    rw [foldTier, if_pos tier]
    exact (evaluatesPair_of_denotes leftDenotes rightDenotes op).bind
      fun result middle later folded extension agrees denotes =>
        ih result (.cons denotes (denoteRest.extend extension agrees))
  | case2 left operator right rest start ih =>
    obtain ⟨first, others, leftDenotes, denoteOthers, rfl⟩ := forall₂_cons_left_iff.1 denote
    rw [foldTier_pass, map_eq_bind]
    · exact (ih denoteOthers).bind fun results middle later folded extension agrees denoteResults =>
        evaluates_pure (.cons (leftDenotes.extend extension agrees) denoteResults)
    · rintro leftQuantity op rightQuantity tail rfl rfl tier
      -- tokens that stand for an operation of the tier would have started one
      obtain ⟨operatorDenotes, denoteRight⟩ := forall₂_cons.1 denoteOthers
      obtain ⟨rightDenotes, -⟩ := forall₂_cons.1 denoteRight
      obtain ⟨leftOperand, leftView⟩ := leftDenotes.operand_of_quantity
      obtain ⟨rightOperand, rightView⟩ := rightDenotes.operand_of_quantity
      have starts := tierStart?_eq_some_iff.2 ⟨operatorDenotes.kind_of_arith, tier,
        View.operand_eq_some_iff.1 leftView, View.operand_eq_some_iff.1 rightView⟩
      rw [start] at starts
      contradiction
  | case3 tokens short =>
    rw [foldTier_short]
    · exact evaluates_pure denote
    · rw [← denote.length_eq]
      rcases tokens with _ | ⟨first, _ | ⟨second, _ | ⟨third, rest⟩⟩⟩
      · exact Nat.zero_lt_succ 2
      · exact Nat.one_lt_succ_succ 1
      · exact Nat.lt_succ_self 2
      · exact (short first second third rest rfl).elim

theorem evaluateTiers_evaluates (denote : DenoteAll before.scoreboard scores tokens symbols) :
    Evaluates before scores (evaluateTiers tokens) (foldTiers symbols) DenoteAll :=
  (evaluateTier_evaluates denote).bind fun _ _ _ _ _ _ denoteResults =>
    evaluateTier_evaluates denoteResults

theorem replaceGroup_open (kind : token.kind = .openParen) (seen : List Token)
    (outside : Option (List Token)) (rest : List Token) :
    replaceGroup seen outside (token :: rest) =
      replaceGroup (token :: seen) (if seen.head?.any takesArguments then none else some seen)
        rest := by
  rw [replaceGroup.eq_def]
  simp only [kind]

theorem replaceGroup_other {outside : Option (List Token)} (notOpen : token.kind ≠ .openParen)
    (notClose : token.kind = .closeParen → outside = none) (seen rest : List Token) :
    replaceGroup seen outside (token :: rest) = replaceGroup (token :: seen) outside rest := by
  rw [replaceGroup.eq_def]
  dsimp only
  split
  · contradiction
  · rename_i kind
    exact absurd (notClose kind) nofun
  · rfl

def insideOf {α : Type} (seen outside : List α) : List α :=
  (seen.take (seen.length - outside.length - 1)).reverse

theorem replaceGroup_close (kind : token.kind = .closeParen) (seen outside rest : List Token) :
    replaceGroup seen (some outside) (token :: rest) =
      (evaluateTiers (insideOf seen outside) >>= fun values =>
        match values with
        | [value] => pure (outside.reverse ++ value :: rest, true)
        | _ => replaceGroup (token :: seen) none rest) := by
  rw [replaceGroup.eq_def]
  simp only [kind]
  rfl

theorem foldGroup_close (seen outside rest : List Symbol) :
    foldGroup seen (some outside) (.closeParen :: rest) =
      (foldTiers (insideOf seen outside)).bind fun values =>
        match values with
        | [value] => some (outside.reverse ++ value :: rest, true)
        | _ => foldGroup (.closeParen :: seen) none rest := by
  rw [foldGroup, ← insideOf]
  cases foldTiers (insideOf seen outside) with
  | none => rfl
  | some values => rcases values with _ | ⟨first, _ | ⟨second, more⟩⟩ <;> rfl

theorem foldGroups_succ (steps : Nat) (symbols : List Symbol) :
    foldGroups (steps + 1) symbols = (foldGroup [] none symbols).bind fun found =>
      if found.2 then foldGroups steps found.1 else some found.1 := by
  rw [foldGroups]
  cases foldGroup [] none symbols <;> rfl

theorem denoteAll_insideOf {seenSymbols outsideSymbols : List Symbol}
    (denoteSeen : DenoteAll board scores seen seenSymbols)
    (denoteOutside : DenoteAll board scores outside outsideSymbols) :
    DenoteAll board scores (insideOf seen outside) (insideOf seenSymbols outsideSymbols) := by
  unfold insideOf
  rw [denoteSeen.length_eq, denoteOutside.length_eq]
  exact forall₂_reverse_iff.2 (forall₂_take _ denoteSeen)

theorem replaceGroup_evaluates {outside : Option (List Token)} {seenSymbols : List Symbol}
    {outsideSymbols : Option (List Symbol)} (denoteSeen : DenoteAll before.scoreboard scores seen seenSymbols)
    (around : Rel (DenoteAll before.scoreboard scores) outside outsideSymbols)
    (denote : DenoteAll before.scoreboard scores tokens symbols) :
    Evaluates before scores (replaceGroup seen outside tokens)
      (foldGroup seenSymbols outsideSymbols symbols) fun board scores found folded =>
        DenoteAll board scores found.1 folded.1 ∧ found.2 = folded.2 := by
  induction tokens generalizing before scores seen outside seenSymbols outsideSymbols symbols with
  | nil =>
    cases denote
    exact evaluates_pure ⟨forall₂_reverse_iff.2 denoteSeen, rfl⟩
  | cons token rest ih =>
    obtain ⟨symbol, others, denotes, rests, rfl⟩ := forall₂_cons_left_iff.1 denote
    have denoteRest : DenoteAll before.scoreboard scores rest others := rests
    have passed : DenoteAll before.scoreboard scores (token :: seen) (symbol :: seenSymbols) :=
      .cons denotes denoteSeen
    by_cases isOpen : token.kind = .openParen
    · cases denotes.eq_paren_iff.1.1 isOpen
      rw [replaceGroup_open isOpen, foldGroup, denoteSeen.takesArguments_eq]
      refine ih passed ?_ denoteRest
      split
      · exact .none
      · exact .some denoteSeen
    by_cases isClose : token.kind = .closeParen
    · cases denotes.eq_paren_iff.2.1 isClose
      cases around with
      | none =>
        rw [replaceGroup_other isOpen fun _ => rfl, foldGroup]
        exact ih passed .none denoteRest
      | some denoteOutside =>
        -- a group that is a single value is replaced by it; otherwise the search goes on
        rw [replaceGroup_close isClose, foldGroup_close]
        refine (evaluateTiers_evaluates (denoteAll_insideOf denoteSeen denoteOutside)).bind ?_
        intro values middle later folded extension agrees denoteValues
        rcases denoteValues with _ | ⟨denotesValue, _ | ⟨_, _⟩⟩
        · exact ih (passed.extend extension agrees) .none (denoteRest.extend extension agrees)
        · exact evaluates_pure ⟨rel_append (forall₂_reverse_iff.2 (denoteOutside.extend extension agrees))
            (.cons denotesValue (denoteRest.extend extension agrees)), rfl⟩
        · exact ih (passed.extend extension agrees) .none (denoteRest.extend extension agrees)
    · rw [replaceGroup_other isOpen fun isClosed => absurd isClosed isClose,
        foldGroup_other (mt denotes.eq_paren_iff.1.2 isOpen) (mt denotes.eq_paren_iff.2.2 isClose)]
      exact ih passed around denoteRest

theorem evaluateGroups_evaluates {steps : Nat}
    (denote : DenoteAll before.scoreboard scores tokens symbols) :
    Evaluates before scores (evaluateGroups steps tokens) (foldGroups steps symbols) DenoteAll := by
  induction steps generalizing before scores tokens symbols with
  | zero => exact evaluates_pure denote
  | succ steps ih =>
    rw [foldGroups_succ]
    refine (replaceGroup_evaluates .nil .none denote).bind ?_
    rintro ⟨others, replaced⟩ middle later ⟨folded, _⟩ - - ⟨denoteOthers, ⟨⟩⟩
    cases replaced with
    | false => exact evaluates_pure denoteOthers
    | true => exact ih denoteOthers

/-- Evaluation writes commands that do to the scores what folding does to the numbers that the
tokens stand for. -/
theorem evaluateArithmetic_evaluates (denote : DenoteAll before.scoreboard scores tokens symbols) :
    Evaluates before scores (evaluateArithmetic tokens) (foldArithmetic symbols) DenoteAll := by
  rw [foldArithmetic, ← denote.length_eq]
  exact (evaluateGroups_evaluates denote).bind fun _ _ _ _ _ _ denoteResults =>
    evaluateTiers_evaluates denoteResults

end BuildM

end ScriptPack
