import ScriptPack.Proofs.Coverage

/-!
One statement under waiting frames. A statement that writes by itself is covered and uses the frames
up. A directive that runs statements in place writes under the frames until it enters its first list,
and they still wait there.
-/

namespace ScriptPack

open Build BuildM

variable {directive : Directive} {body : List Statement} {after before : Build}

namespace Statement

def runsLists (statement : Statement) : Bool :=
  match statement.kind with
  | .directive directive => directive.runsLists
  | _ => false

def isCondition (statement : Statement) : Bool :=
  match statement.kind with
  | .directive directive => directive.isCondition
  | _ => false

/-- Assignments, calls, and directives that neither run lists nor are conditions. -/
def isPlain (statement : Statement) : Bool :=
  match statement.kind with
  | .operation | .call => true
  | .directive directive => !directive.runsLists && !directive.isCondition
  | _ => false

theorem exists_of_runsLists {statement : Statement} (lists : statement.runsLists = true) :
    ∃ directive, statement.kind = .directive directive ∧ directive.runsLists = true := by
  cases kind : statement.kind with
  | directive directive =>
    rw [runsLists, kind] at lists
    exact ⟨directive, rfl, lists⟩
  | _ =>
    rw [runsLists, kind] at lists
    cases lists

end Statement

namespace Build

/-- The frames wait for the next statement, and pops of selectors are due after it. -/
structure IsGuarded (frames : List Frame) (build : Build) : Prop where
  waiting : frames <+: build.frames
  scheduled : build.pendingPops ≠ []
  due : ∀ count ∈ build.pendingPops, count = 1

/-- No frame waits, and no pop is scheduled. -/
structure IsFree (build : Build) : Prop where
  frames : build.frames = []
  pops : build.pendingPops = []

/-- The state in which a list of statements is run in place of those that were upcoming. -/
def inPlace (build : Build) (statements : List Statement) : Build :=
  { build with
    upcoming := statements
    scoreboard := build.scoreboard.pushScope }

theorem countDown_of_due {pops : List Nat} (due : ∀ count ∈ pops, count = 1) :
    countDown pops = (pops.length, []) := by
  induction pops with
  | nil => rfl
  | cons count pops ih =>
    obtain ⟨rfl, others⟩ := List.forall_mem_cons.1 due
    simp [countDown, ih others]

/-- What is covered inside a statement is covered when it has been left. -/
theorem CoveredBy.leave {statement : Statement} {frames : List Frame} {before middle : Build}
    (inside : (before.enter statement).CoveredBy frames middle) (unreachable : Option Nat) :
    before.CoveredBy frames (middle.leave unreachable).settlePops := by
  obtain ⟨_, _, _, _, _, settled⟩ := (middle.leave unreachable).settlePops_eq
  rw [settled]
  exact ⟨inside.lines, inside.files, inside.outer⟩

/-- Frames whose pops were due when a statement began are gone when it has been left. -/
theorem IsGuarded.isFree {frames : List Frame} {before middle : Build}
    (guarded : before.IsGuarded frames) (pops : middle.pendingPops = before.pendingPops)
    (unreachable : Option Nat) : (middle.leave unreachable).settlePops.IsFree := by
  have some : before.pendingPops.length ≠ 0 :=
    fun none => guarded.scheduled (List.length_eq_zero_iff.1 none)
  have same : (middle.leave unreachable).pendingPops = before.pendingPops := pops
  unfold settlePops
  rw [same, countDown_of_due guarded.due]
  simp only [beq_iff_eq, some, if_false]
  exact ⟨rfl, rfl⟩

end Build

namespace BuildM

variable {run : Runner} {statement : Statement} {frames : List Frame}
  {before after : Build}

theorem runStatement_directive_eq_ok (isDirective : statement.kind = .directive directive)
    (ran : runStatement run statement before = .ok () after) :
    ∃ tokens entered rest, before.GrowsTo entered ∧
      (ArgumentM.runDirective run directive).run tokens entered = .ok ((), rest) after := by
  simp only [runStatement, isDirective] at ran
  obtain ⟨ready, grows, continued⟩ : ∃ ready, before.GrowsTo ready ∧
      (prepare statement >>= runDirective run directive) ready = .ok () after := by
    cases found : directive.feature? with
    | some feature =>
      simp only [found] at ran
      obtain ⟨_, ready, required, continued⟩ := bind_eq_ok_iff.1 ran
      exact ⟨ready, growing.ofRequireFeature _ before _ ready required, continued⟩
    | none =>
      simp only [found] at ran
      exact ⟨before, .refl before, ran⟩
  obtain ⟨tokens, entered, prepared, directed⟩ := bind_eq_ok_iff.1 continued
  obtain ⟨rest, ranDirective⟩ := runDirective_eq_ok directed
  exact ⟨tokens, entered, rest,
    grows.trans (growing.ofPrepare statement ready tokens entered prepared), ranDirective⟩

theorem covers_runStatement (plain : statement.isPlain = true) :
    Covers (runStatement run statement) := by
  cases kind : statement.kind with
  | operation =>
    simp only [runStatement, kind]
    exact (covering.ofPrepare statement).bindCovers fun tokens => covering.ofRunOperation tokens
  | call =>
    simp only [runStatement, kind]
    exact (covering.ofPrepare statement).bindCovers fun tokens => covering.ofRunCall tokens
  | directive directive =>
    rw [Statement.isPlain, kind] at plain
    have both : directive.runsLists = false ∧ directive.isCondition = false := by
      simpa using plain
    intro before value after ran frames waiting
    obtain ⟨tokens, entered, rest, grows, directed⟩ := runStatement_directive_eq_ok kind ran
    obtain ⟨entering, stillWaiting⟩ := grows.writesUnder waiting
    exact entering.trans (ArgumentM.covers_runDirective both.1 both.2 tokens entered _ after
      directed frames stillWaiting)
  | _ =>
    rw [Statement.isPlain, kind] at plain
    contradiction

/-- A statement that writes by itself is covered, and uses the frames up. -/
theorem runScoped_plain (plain : statement.isPlain = true) (guarded : before.IsGuarded frames)
    (ran : runScoped run statement before = .ok () after) :
    before.CoveredBy frames after ∧ after.IsFree := by
  obtain ⟨middle, unreachable, ranInside, rfl⟩ := runScoped_eq_ok ran
  have inside := covers_runStatement plain (before.enter statement) () middle ranInside frames
    guarded.waiting
  exact ⟨inside.leave unreachable, guarded.isFree inside.pops unreachable⟩

theorem keeps_takeBody : Keeps takeBody := by
  intro before
  apply keepsAt_of_same
  intro _ after took
  obtain ⟨_, _, _, ⟨-, -, rfl⟩ | ⟨_, -, -, rfl⟩⟩ := takeBody_eq_ok_iff.1 took <;>
    exact ⟨rfl, rfl, rfl, rfl, rfl⟩

theorem findFile_eq_ok {file path : String} (found : findFile file before = .ok path after) :
    after = before := by
  unfold findFile at found
  rw [bind_of_ok (get_apply before)] at found
  exact (orFail_eq_ok_iff.1 found).2

section Lists

variable {α β : Type} {opened : List Statement → Prop} {step : BuildM α} {next : α → BuildM β}

/-- From this state, either the step runs no statement and keeps the frames, or they still wait
where it runs its first list of statements. -/
def EntersAt (run : List Statement → BuildM Unit) (opened : List Statement → Prop) (before : Build)
    (step : BuildM α) : Prop :=
  ∀ value after, step before = .ok value after → ∀ frames, frames <+: before.frames →
    (before.WritesUnder frames after ∧ frames <+: after.frames) ∨
      ∃ first others entered last, opened (first :: others) ∧
        (before.WritesUnder frames entered ∧ frames <+: entered.frames) ∧
        run (first :: others) entered = .ok () last

theorem KeepsAt.entersAt (keeps : KeepsAt before step) : EntersAt run opened before step :=
  fun value after ran frames waiting => .inl (keeps value after ran frames waiting)

theorem EntersAt.bind (first : EntersAt run opened before step)
    (second : ∀ value middle, step before = .ok value middle →
      EntersAt run opened middle (next value)) :
    EntersAt run opened before (step >>= next) := by
  intro result after ran frames waiting
  obtain ⟨value, middle, ranFirst, continued⟩ := bind_eq_ok_iff.1 ran
  rcases first value middle ranFirst frames waiting with ⟨written, stillWaiting⟩ | entered
  · rcases second value middle ranFirst result after continued frames stillWaiting with
      ⟨writtenLater, lastWaiting⟩ | ⟨statement, others, entered, last, isOpened, ⟨writes, waits⟩, runs⟩
    · exact .inl ⟨written.trans writtenLater, lastWaiting⟩
    · exact .inr ⟨statement, others, entered, last, isOpened, ⟨written.trans writes, waits⟩, runs⟩
  · exact .inr entered

theorem EntersAt.always {step : BuildM Unit} (enters : EntersAt run opened before step)
    {change : Build → Build} (same : ∀ build : Build, build.SameOutput (change build)) :
    EntersAt run opened before (always step change) := by
  intro _ after ran frames waiting
  obtain ⟨middle, ranInside, rfl⟩ := always_eq_ok_iff.1 ran
  rcases enters () middle ranInside frames waiting with ⟨written, stillWaiting⟩ | entered
  · refine .inl ⟨written.trans ((same middle).writesUnder frames), ?_⟩
    rw [(same middle).frames]
    exact stillWaiting
  · exact .inr entered

theorem entersAt_get {next : Build → BuildM α} (enters : EntersAt run opened before (next before)) :
    EntersAt run opened before (get >>= next) := by
  intro value after ran
  rw [bind_of_ok (get_apply before)] at ran
  exact enters value after ran

theorem entersAt_orFail {problem : Problem} {found : Option α}
    (enters : ∀ value, found = some value → EntersAt run opened before (next value)) :
    EntersAt run opened before (orFail problem found >>= next) := by
  intro result after ran
  obtain ⟨value, isFound, continued⟩ := bind_orFail_eq_ok_iff.1 ran
  exact enters value isFound result after continued

variable (none : Keeps (run []))

include none

theorem entersAt_run {statements : List Statement} (isOpened : opened statements) :
    EntersAt run opened before (run statements) := by
  cases statements with
  | nil => exact (none before).entersAt
  | cons first others =>
    intro _ after ran frames waiting
    have same := (SameOutput.refl before).writesUnder frames
    exact .inr ⟨first, others, before, after, isOpened, ⟨same, waiting⟩, ran⟩

theorem entersAt_repeatBody (tracker : Option String) (count index : Nat) (isOpened : opened body) :
    EntersAt run opened before (repeatBody run tracker body count index) := by
  induction count generalizing before index with
  | zero => exact (keeps_pure _ before).entersAt
  | succ count ih =>
    have rest (middle : Build) : EntersAt run opened middle
        (run body >>= fun _ => repeatBody run tracker body count (index + 1)) :=
      (entersAt_run none isOpened).bind fun _ _ _ => ih (index + 1)
    cases tracker with
    | none => exact rest before
    | some name => exact (covering.ofModifyVariables _ before).entersAt.bind fun _ middle _ => rest middle

theorem entersAt_iterateBody (name : String) (values : List Value) (isOpened : opened body) :
    EntersAt run opened before (iterateBody run name body values) := by
  induction values generalizing before with
  | nil => exact (keeps_pure _ before).entersAt
  | cons value rest ih =>
    apply (covering.ofModifyVariables _ before).entersAt.bind
    intro _ middle _
    exact (entersAt_run none isOpened).bind fun _ _ _ => ih

theorem entersAt_callTemplate (name : String) (tokens : List Token)
    (isOpened : ∀ template, before.environment.templates.get? name = some template →
      opened template.body) :
    EntersAt run opened before (callTemplate run name tokens) := by
  apply entersAt_get
  apply entersAt_orFail
  intro template found
  apply (covering.ofTemplateArguments _ _ before).entersAt.bind
  intro bindings bound _
  apply entersAt_get
  apply (covering.ofModifyVariables _ bound).entersAt.bind
  intro _ _ _
  exact (entersAt_run none (isOpened template found)).always fun _ => ⟨rfl, rfl, rfl, rfl, rfl⟩

theorem entersAt_includeScript (file : String) (isOpened : ∀ path statements later,
      scriptStatements (scriptName file) path before = .ok statements later → opened statements) :
    EntersAt run opened before (includeScript run file) := by
  apply (covering.ofFindFile _ before).entersAt.bind
  intro path _ found
  cases findFile_eq_ok found
  apply entersAt_get
  dsimp only
  split
  · intro value after ran
    cases ran
  · apply (covering.ofScriptStatements _ _ before).entersAt.bind
    intro statements middle read
    refine EntersAt.bind (KeepsAt.entersAt ?_) ?_
    · apply keeps_modify
      exact fun _ => ⟨rfl, rfl, rfl, rfl, rfl⟩
    · intro _ entered _
      exact (entersAt_run none (isOpened path statements middle read)).always
        fun _ => ⟨rfl, rfl, rfl, rfl, rfl⟩

end Lists

end BuildM

def Build.nextBody (build : Build) : List Statement :=
  match build.upcoming with
  | [] => []
  | statement :: rest =>
      match statement.size? with
      | none => [statement]
      | some size => rest.take size

/-- A directive may run the statements in place: a body that follows, the body of a template, or
the statements of a script. -/
def Directive.Opens (directive : Directive) (build : Build) (statements : List Statement) : Prop :=
  match directive with
  | .repeatBody | .iterate => statements = build.nextBody
  | .template => ∃ name template, build.environment.templates.get? name = some template ∧
      statements = template.body
  | .includeFile => ∃ file path later, scriptStatements file path build = .ok statements later
  | _ => False

theorem BuildM.takeBody_eq_ok (took : takeBody before = .ok body after) :
    body = before.nextBody := by
  obtain ⟨_, _, upcoming, ⟨size, rfl, -⟩ | ⟨_, size, rfl, -⟩⟩ := takeBody_eq_ok_iff.1 took <;>
    simp only [nextBody, upcoming, size]

theorem BuildM.environment_eq_ok {α : Type} {computation : VariableM α} {value : α}
    (ran : environment computation before = .ok value after) :
    ∃ bound, after = { before with environment := bound } := by
  rw [environment_eq] at ran
  split at ran
  · cases ran
    exact ⟨_, rfl⟩
  · cases ran

namespace ArgumentM

variable {α β : Type} {run : Runner} {opened : List Statement → Prop}
  {before : Build} {tokens : List Token} {view : View α} {next : α → ArgumentM β} {step : BuildM α}

theorem entersAt_next (enters : ∀ value rest, EntersAt run opened before ((next value).run rest)) :
    BuildM.EntersAt run opened before ((ArgumentM.next view >>= next).run tokens) := by
  intro result after ran
  obtain ⟨⟨value, rest⟩, middle, read, continued⟩ := BuildM.bind_eq_ok_iff.1 ran
  obtain ⟨-, rfl⟩ := read_eq_ok read
  exact enters value rest result after continued

theorem entersAt_next? {next : Option α → ArgumentM β}
    (enters : ∀ value rest, EntersAt run opened before ((next value).run rest)) :
    EntersAt run opened before ((ArgumentM.next? view >>= next).run tokens) :=
  enters _ _

theorem entersAt_lift (enters : EntersAt run opened before step) :
    EntersAt run opened before ((liftM step : ArgumentM α).run tokens) :=
  enters.bind fun _ middle _ => (keeps_pure _ middle).entersAt

theorem keepsAt_bindEnters (first : KeepsAt before step)
    (second : ∀ value middle, step before = .ok value middle →
      EntersAt run opened middle ((next value).run tokens)) :
    EntersAt run opened before (((liftM step : ArgumentM α) >>= next).run tokens) := by
  intro result after ran
  obtain ⟨⟨value, rest⟩, middle, lifted, continued⟩ := BuildM.bind_eq_ok_iff.1 ran
  obtain ⟨_, _, ranStep, ⟨⟩⟩ := BuildM.bind_eq_ok_iff.1 lifted
  exact first.entersAt.bind second result after (BuildM.bind_eq_ok_iff.2 ⟨value, middle, ranStep, continued⟩)

theorem entersAt_runDirective (none : Keeps (run [])) (lists : directive.runsLists = true) :
    EntersAt run (directive.Opens before) before ((runDirective run directive).run tokens) := by
  cases directive with
  | repeatBody =>
    apply entersAt_next
    intro amount _
    apply entersAt_next?
    intro tracker _
    apply keepsAt_bindEnters (keeps_takeBody before)
    intro body middle took
    exact entersAt_lift (entersAt_repeatBody none _ _ _ (takeBody_eq_ok took))
  | iterate =>
    apply entersAt_next
    intro input _
    apply entersAt_next
    intro current _
    apply keepsAt_bindEnters (covering.ofEnvironment _ before)
    intro values bound got
    obtain ⟨bindings, rfl⟩ := environment_eq_ok got
    apply keepsAt_bindEnters (keeps_takeBody _)
    intro body middle took
    have isNext := takeBody_eq_ok took
    exact entersAt_lift (entersAt_iterateBody none _ _ isNext)
  | template =>
    apply entersAt_next
    intro name rest
    change EntersAt run _ before ((if before.nextIsBlock then
      liftM (defineTemplate name (leadingWords rest)) else
      liftM (callTemplate run name rest) : ArgumentM Unit).run rest)
    split
    · exact ((covering.lift (covering.ofDefineTemplate keeps_takeBody _ _)) _ before).entersAt
    · apply entersAt_lift
      apply entersAt_callTemplate none
      exact fun template found => ⟨name, template, found, rfl⟩
  | includeFile =>
    apply entersAt_next
    intro file _
    apply entersAt_lift
    apply entersAt_includeScript none
    exact fun path statements later read => ⟨_, path, later, read⟩
  | _ => cases lists

end ArgumentM

namespace BuildM

variable {statement : Statement} {frames : List Frame} {before after : Build}

theorem keeps_runSection_nil (depth : Nat) : Keeps (runSection depth []) := by
  intro before
  apply keepsAt_of_same
  intro _ after ran
  cases depth with
  | zero => cases ran
  | succ depth =>
    cases ran
    exact ⟨rfl, rfl, rfl, rfl, rfl⟩

/-- The first statement of a list is run where the list is entered. -/
theorem runSection_cons {depth : Nat} {first : Statement} {others : List Statement}
    (ran : runSection (depth + 1) (first :: others) before = .ok () after) :
    ∃ reached last, runScoped (runSection depth) first (before.inPlace others) = .ok () reached ∧
      runUpcoming (runSection depth) others.length reached = .ok () last := by
  unfold runSection at ran
  rw [bind_of_ok (get_apply before), bind_of_ok (set_apply _ before)] at ran
  obtain ⟨last, upcoming, -⟩ := always_eq_ok_iff.1 ran
  obtain ⟨reached, ranFirst, continued⟩ := runUpcoming_cons rfl upcoming
  exact ⟨reached, last, ranFirst, continued⟩

/-- Frames that wait for a directive wait where it first runs statements in place. -/
theorem runScoped_lists {run : Runner} (none : Keeps (run []))
    (isDirective : statement.kind = .directive directive) (lists : directive.runsLists = true)
    (guarded : before.IsGuarded frames) (ran : runScoped run statement before = .ok () after) :
    (before.CoveredBy frames after ∧ after.IsFree) ∨
      ∃ prepared first others entered last, (before.enter statement).GrowsTo prepared ∧
        directive.Opens prepared (first :: others) ∧ before.CoveredBy frames entered ∧
        entered.IsGuarded frames ∧ run (first :: others) entered = .ok () last := by
  obtain ⟨middle, unreachable, ranInside, rfl⟩ := runScoped_eq_ok ran
  obtain ⟨tokens, prepared, rest, grows, directed⟩ :=
    runStatement_directive_eq_ok isDirective ranInside
  obtain ⟨preparing, stillWaiting⟩ := @GrowsTo.writesUnder frames _ _ grows guarded.waiting
  rcases ArgumentM.entersAt_runDirective none lists _ middle directed frames stillWaiting with
    ⟨written, -⟩ | found
  · have inside := preparing.trans written
    exact .inl ⟨inside.leave unreachable, guarded.isFree inside.pops unreachable⟩
  · obtain ⟨first, others, entered, last, opens, ⟨written, waiting⟩, runs⟩ := found
    have inside := preparing.trans written
    have pops : entered.pendingPops = before.pendingPops := inside.pops
    refine .inr ⟨prepared, first, others, entered, last, grows, opens,
      ⟨inside.lines, inside.files, inside.outer⟩, ⟨waiting, ?_, ?_⟩, runs⟩
    · exact pops ▸ guarded.scheduled
    · exact pops ▸ guarded.due

end BuildM

end ScriptPack
