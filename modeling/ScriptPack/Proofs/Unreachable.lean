import ScriptPack.Proofs.Balance

/-!
Code after a halt. A halt arms a count, by which the next statement is refused unless a brace or a pop
that comes due takes it back. Main result: a statement is refused exactly where the count has run out
when its inside is done. The count runs out after a halt that no scheduled pop waits for, so that of the
statements that run no lists, those right after such a halt are refused, but for braces and halts.
-/

namespace ScriptPack

open Build BuildM Statement

namespace Statement

variable {statement : Statement}

theorem plain_of_brace (isBrace : statement.isBrace = true) :
    statement.ending ≠ .halt ∧ statement.runsLists = false := by
  obtain ⟨size, opens⟩ | closes := brace_cases isBrace
  · simp [ending, runsLists, opens]
  · simp [ending, runsLists, closes]

theorem runsLists_of_halt (halts : statement.ending = .halt) : statement.runsLists = false := by
  unfold ending at halts
  unfold runsLists
  cases kind : statement.kind with
  | directive directive => cases directive <;> first | rfl | simp [kind, Directive.ending] at halts
  | _ => rfl

end Statement

namespace Build

def IsDead (build : Build) : Prop :=
  build.unreachable = some 0

/-- What holds between statements: the count is not armed or has run out, the latter where no pops are
scheduled, and those that are wait for one statement. -/
structure IsCounted (build : Build) : Prop where
  reach : build.unreachable = none ∨ build.IsDead ∧ build.pendingPops = []
  pops : ∀ pop ∈ build.pendingPops, pop = 1

variable {mayLeak : Prop} {ending : Ending} {before middle after build : Build} {statement : Statement}

theorem IsCounted.congr (counted : before.IsCounted) (reach : after.unreachable = before.unreachable)
    (pops : after.pendingPops = before.pendingPops) : after.IsCounted := by
  obtain ⟨reaches, ones⟩ := counted
  constructor
  · rwa [IsDead, reach, pops]
  · rwa [pops]

theorem IsCounted.enter (counted : before.IsCounted) (statement : Statement) :
    (before.enter statement).IsCounted :=
  counted.congr rfl rfl

/-! Counts inside a statement. -/

/-- What the inside of a statement leaves to be counted. -/
structure Leaves (statement : Statement) (before middle : Build) : Prop where
  halt : statement.ending = .halt →
    middle.unreachable = some 1 ∧ middle.pendingPops = before.pendingPops
  reach : statement.ending ≠ .halt → middle.unreachable = none ∨ middle.IsDead
  pops : statement.ending ≠ .halt → ∃ rest, (∀ pop ∈ rest, pop = 1) ∧
    (middle.pendingPops = rest ∨ middle.pendingPops = 2 :: rest)
  still : statement.runsLists = false →
    (middle.IsDead ↔ before.IsDead ∧ statement.isBrace = false ∧ statement.ending ≠ .halt)

/-! Counts at its end. -/

theorem settlePops_ones (ones : ∀ pop ∈ build.pendingPops, pop = 1) :
    build.settlePops.pendingPops = [] ∧
      build.settlePops.unreachable = if build.pendingPops = [] then build.unreachable else none := by
  unfold settlePops
  rw [countDown_of_due ones]
  by_cases noPops : build.pendingPops = [] <;> simp [noPops]

theorem Leaves.settle {reached : Build} (leaves : Leaves statement before middle)
    (counted : before.IsCounted) (alive : ¬middle.IsDead)
    (pops : reached.pendingPops = middle.pendingPops)
    (reach : reached.unreachable = middle.unreachable.map (· - 1)) : reached.settlePops.IsCounted ∧
      (reached.settlePops.IsDead ↔ statement.ending = .halt ∧ before.pendingPops = []) := by
  by_cases halts : statement.ending = .halt
  · obtain ⟨marked, same⟩ := leaves.halt halts
    rw [same] at pops
    rw [marked] at reach
    obtain ⟨noPops, settled⟩ := settlePops_ones (pops ▸ counted.pops)
    rw [pops, reach] at settled
    by_cases unguarded : before.pendingPops = []
    · rw [if_pos unguarded] at settled
      exact ⟨⟨.inr ⟨settled, noPops⟩, by simp [noPops]⟩, fun _ => ⟨halts, unguarded⟩, fun _ => settled⟩
    · rw [if_neg unguarded] at settled
      exact ⟨⟨.inl settled, by simp [noPops]⟩, by simp [IsDead, settled, unguarded]⟩
  · rw [(leaves.reach halts).resolve_right alive] at reach
    have settled : reached.settlePops.unreachable = none ∧
        ∀ pop ∈ reached.settlePops.pendingPops, pop = 1 := by
      obtain ⟨rest, ones, rfl | two⟩ := leaves.pops halts
      · obtain ⟨noPops, settled⟩ := settlePops_ones (pops ▸ ones)
        rw [settled, reach, noPops]
        exact ⟨ite_self _, List.forall_mem_nil _⟩
      · rw [settlePops_of_waiting (pops.trans two)]
        exact ⟨reach, List.forall_mem_cons.2 ⟨rfl, ones⟩⟩
    exact ⟨⟨.inl settled.1, settled.2⟩, by simp [IsDead, settled.1, halts]⟩

/-- A statement that is run from one state to another. Where the count has run out before, it runs
lists, is a brace or is a halt; it has run out after a halt that no scheduled pop waits for. -/
structure Counts (statement : Statement) (before after : Build) : Prop where
  counted : before.IsCounted
  countedAfter : after.IsCounted
  spared : before.IsDead → statement.runsLists = false →
    statement.isBrace = true ∨ statement.ending = .halt
  dead : after.IsDead ↔ statement.ending = .halt ∧ before.pendingPops = []

end Build

namespace BuildM

open Build (Leaves Counts)

variable {run follow : Runner} {statement : Statement}
  {before middle after : Build}

def KeepsCount (run : List Statement → BuildM Unit) : Prop :=
  ∀ statements before after, before.IsCounted → run statements before = .ok () after → after.IsCounted

theorem KeepsCount.trace {mirror : Mirror} (keeps : KeepsCount mirror.run) (counted : before.IsCounted)
    (trace : mirror.Trace before after) : after.IsCounted := by
  induction trace with
  | refl => exact counted
  | tail _ step ih =>
    obtain effect | ⟨statements, ran⟩ := step
    · exact ih.congr effect.leaves.2.2 effect.leaves.1.pops
    · exact keeps statements _ _ ih ran

theorem leaves_of_brace (counted : before.IsCounted) (isBrace : statement.isBrace = true)
    (ran : runStatement run statement (before.enter statement) = .ok () middle) :
    Leaves statement before middle := by
  have reset : middle.unreachable = none ∧ middle.pendingPops = before.pendingPops := by
    obtain ⟨size, opens⟩ | closes := brace_cases isBrace
    · obtain ⟨_, _, _, _, _, _, opened⟩ := (before.enter statement).openBlock_eq size
      rw [runStatement_open opens, opened] at ran
      cases ran
      exact ⟨rfl, rfl⟩
    · obtain ⟨_, _, _, _, _, _, rfl⟩ := closeBlock?_eq ((runStatement_close_eq_ok_iff closes).1 ran)
      exact ⟨rfl, rfl⟩
  exact ⟨fun halts => absurd halts (plain_of_brace isBrace).1, fun _ => .inl reset.1,
    fun _ => ⟨_, counted.pops, .inl reset.2⟩, fun _ => by simp [IsDead, reset.1, isBrace]⟩

/-- The inside of a statement, by what the lists that it runs preserve. -/
theorem KeepsCount.leaves (keeps : KeepsCount run) (counted : before.IsCounted)
    (ran : runStatement run statement (before.enter statement) = .ok () middle) :
    Leaves statement before middle := by
  cases isBrace : statement.isBrace with
  | true => exact leaves_of_brace counted isBrace ran
  | false =>
    let mirror : Mirror := ⟨run, run, .none, True⟩
    obtain ⟨last, trace, finish, -⟩ :=
      @endsAt_runStatement mirror _ statement isBrace (fun _ => trivial) () middle ran
    have countedLast : last.IsCounted := @KeepsCount.trace _ _ mirror keeps (counted.enter _) trace
    obtain ⟨-, -, reach, pops⟩ := finish.leaves
    -- a statement that runs no lists leaves the count to its finish
    have still (runsNone : statement.runsLists = false) :
        middle.unreachable = (if statement.ending = .halt then some 1 else before.unreachable) ∧
          (middle.pendingPops = before.pendingPops ∨
            statement.ending ≠ .halt ∧ middle.pendingPops = 2 :: before.pendingPops) := by
      obtain ⟨last, effects, finish⟩ := effects_of_runStatement isBrace runsNone ran
      have counts := finish.leaves.2.2
      rwa [effects.leaves.2, effects.leaves.1.pops] at counts
    refine ⟨fun halts => ?_, fun other => ?_, fun other => ?_, fun runsNone => ?_⟩
    · obtain ⟨reach, pops⟩ := still (runsLists_of_halt halts)
      rw [if_pos halts] at reach
      exact ⟨reach, pops.resolve_right fun two => two.1 halts⟩
    · rw [IsDead, reach, if_neg other]
      exact countedLast.reach.imp_right And.left
    · exact ⟨_, countedLast.pops, pops.imp_right And.right⟩
    · rw [IsDead, (still runsNone).1]
      by_cases halts : statement.ending = .halt <;> simp [halts, isBrace, IsDead]

theorem checkReachable_of_dead (isDead : before.IsDead) (scoreboard : Scoreboard) :
    checkReachable { before with scoreboard } =
      .error (before.failure .unreachable) { before with scoreboard } := by
  unfold checkReachable
  rw [bind_of_ok (get_apply _)]
  dsimp only
  rw [show before.unreachable = some 0 from isDead]
  rfl

theorem checkReachable_of_alive (alive : ¬before.IsDead) (scoreboard : Scoreboard) :
    checkReachable { before with scoreboard } =
      .ok () { before with scoreboard, unreachable := before.unreachable.map (· - 1) } := by
  unfold checkReachable
  rw [bind_of_ok (get_apply _)]
  rcases waits : before.unreachable with _ | _ | left
  · rfl
  · exact absurd waits alive
  · rfl

theorem runScoped_of_dead (ran : runStatement run statement (before.enter statement) = .ok () middle)
    (isDead : middle.IsDead) : runScoped run statement before =
      .error (.statement middle.line middle.source .unreachable)
        { middle with scoreboard := middle.scoreboard.popScope } := by
  unfold runScoped
  rw [bind_of_ok (modify_apply _ before)]
  refine (bind_of_ok (always_eq_ok_iff.2 ⟨middle, ran, rfl⟩)).trans ?_
  change EStateM.bind checkReachable _ _ = _
  rw [EStateM.bind, checkReachable_of_dead isDead]
  rfl

theorem KeepsCount.counts (keeps : KeepsCount run) (counted : before.IsCounted)
    (ran : runScoped run statement before = .ok () after) : Counts statement before after := by
  obtain ⟨middle, reached, inside, reaches, rfl⟩ := runScoped_eq_ok_iff.1 ran
  have leaves := keeps.leaves counted inside
  have alive : ¬middle.IsDead := fun isDead =>
    nomatch (checkReachable_of_dead isDead _).symm.trans reaches
  cases (checkReachable_of_alive alive _).symm.trans reaches
  have settles := @Leaves.settle _ _ _ { middle with
    scoreboard := middle.scoreboard.popScope, unreachable := middle.unreachable.map (· - 1) }
    leaves counted alive rfl rfl
  refine ⟨counted, settles.1, fun isDead runsNone => ?_, settles.2⟩
  have refused := mt (leaves.still runsNone).2 alive
  simpa [isDead, imp_iff_not_or] using refused

open Classical in
/-- What the run of upcoming statements preserves, by which they can be watched. -/
theorem KeepsCount.upcoming (keeps : KeepsCount run)
    (follows : ∀ statements first last, first.IsCounted → run statements first = .ok () last →
      follow statements first = .ok () last) (counted : before.IsCounted) {alarm : Error} {steps : Nat}
    (ran : runUpcoming run steps before = .ok () after) :
    after.IsCounted ∧ watchUpcoming alarm Counts follow steps before = .ok () after := by
  rw [← watchUpcoming_true alarm] at ran
  induction steps generalizing before with
  | zero =>
    cases ran
    exact ⟨counted, rfl⟩
  | succ steps ih =>
    cases upcoming : before.upcoming with
    | nil =>
      rw [watchUpcoming_nil_eq_ok_iff upcoming] at ran ⊢
      exact ⟨ran ▸ counted, ran⟩
    | cons statement rest =>
      rw [watchUpcoming_cons_eq_ok_iff upcoming] at ran ⊢
      obtain ⟨middle, inside, -, continued⟩ := ran
      have taken : ({ before with upcoming := rest } : Build).IsCounted := counted.congr rfl rfl
      have counts := keeps.counts taken inside
      obtain ⟨countedAfter, watched⟩ := ih counts.countedAfter continued
      refine ⟨countedAfter, middle, runScoped_mono ?_ inside, counts, watched⟩
      intro statements first last trace
      exact follows statements first last (KeepsCount.trace keeps (taken.enter _) trace)

open Classical in
/-- What the run of a list of statements preserves, at every depth. -/
theorem runSection_counts (alarm : Error) (depth : Nat) (statements : List Statement)
    (before after : Build) (counted : before.IsCounted)
    (ran : runSection depth statements before = .ok () after) : after.IsCounted ∧
      watchSection alarm Counts depth statements before = .ok () after := by
  induction depth generalizing statements before after with
  | zero => cases ran
  | succ depth ih =>
    rw [← watchSection_true alarm, watchSection_eq_ok_iff, watchSection_true, watchUpcoming_true] at ran
    obtain ⟨ended, inside, rfl⟩ := ran
    have started : IsCounted { before with
        upcoming := statements, scoreboard := before.scoreboard.pushScope } := counted.congr rfl rfl
    have keeps : KeepsCount (runSection depth) := fun _ _ _ counted ran => (ih _ _ _ counted ran).1
    obtain ⟨countedEnded, watched⟩ :=
      keeps.upcoming (fun _ _ _ counted ran => (ih _ _ _ counted ran).2) started inside
    exact ⟨countedEnded.congr rfl rfl, watchSection_eq_ok_iff.2 ⟨ended, watched, rfl⟩⟩

end BuildM

open Classical in
/-- In a script that compiles, whatever is run where the count has run out is a brace, a halt or a
statement that runs a list, and the count runs out after halts outside conditions only. A statement
whose inside has been run in a counted state is refused if and only if the count has run out by then;
without lists that is where it had run out before, unless the statement is a brace or a halt. -/
theorem statements_refused_after_halts (storage : FileTree) (options : Options) (file : String)
    (statements : List Statement) :
    Problem.message .unreachable = "Unreachable code detected." ∧
    (∀ last alarm, runScript options statements (.forScript storage options file) = .ok () last →
      watchScript alarm Build.Counts options statements (.forScript storage options file) =
        .ok () last) ∧
    ∀ (depth : Nat) (statement : Statement) (before middle : Build), before.IsCounted →
      runStatement (runSection depth) statement (before.enter statement) = .ok () middle →
      (¬middle.IsDead → ∃ after, runScoped (runSection depth) statement before = .ok () after ∧
        Build.Counts statement before after) ∧
      (middle.IsDead → ∃ after, runScoped (runSection depth) statement before =
        .error (.statement middle.line middle.source .unreachable) after) ∧
      (statement.runsLists = false →
        (middle.IsDead ↔ before.IsDead ∧ statement.isBrace = false ∧ statement.ending ≠ .halt)) := by
  refine ⟨rfl, ?_, ?_⟩
  · intro last alarm ran
    obtain ⟨⟨⟩, given, applies, continued⟩ := bind_eq_ok_iff.1 ran
    have effects : Build.Effects False _ given :=
      LeadsAt.effects (following.ofApplyOptions options _) applies
    have counted := Build.IsCounted.congr ⟨.inl rfl, List.forall_mem_nil _⟩ effects.leaves.2
      effects.leaves.1.pops
    have started : Build.IsCounted { given with upcoming := statements } := counted.congr rfl rfl
    refine bind_eq_ok_iff.2 ⟨(), given, applies, ?_⟩
    unfold runAll at continued
    rw [bind_of_ok (modify_apply _ given)] at continued ⊢
    have sections := runSection_counts alarm greatestDepth
    have keeps : KeepsCount (runSection greatestDepth) := fun _ _ _ counted ran =>
      (sections _ _ _ counted ran).1
    exact (keeps.upcoming (fun _ _ _ counted ran => (sections _ _ _ counted ran).2) started continued).2
  · intro depth statement before middle counted ran
    have keeps : KeepsCount (runSection depth) := fun _ _ _ counted ran =>
      (runSection_counts (.io "") depth _ _ _ counted ran).1
    have leaves := keeps.leaves counted ran
    refine ⟨fun alive => ?_, fun isDead => ⟨_, runScoped_of_dead ran isDead⟩, leaves.still⟩
    have passes := runScoped_eq_ok_iff.2 ⟨middle, _, ran, checkReachable_of_alive alive _, rfl⟩
    exact ⟨_, passes, keeps.counts counted passes⟩

/-! A halt after a halt, and a limit after one. -/

namespace Halted

def halt : Statement :=
  Nested.statement (.directive .halt) []

def limit : Statement :=
  Nested.statement (.directive .limit) []

def state : Build :=
  { Nested.start with unreachable := some 0 }

theorem halts_succeed : succeeds (runScript {} [halt, halt] Nested.start) = true := by
  decide +kernel

theorem limit_succeeds :
    succeeds (runStatement (runSection 0) limit (state.enter limit)) = true := by
  decide +kernel

end Halted

open Halted

open Classical in
/-- The second halt is let through; the limit is refused although its inside succeeds. -/
theorem statements_refused_after_halts_twice :
    (∃ last, runScript {} [Halted.halt, Halted.halt] Nested.start = .ok () last ∧
      ∀ alarm, watchScript alarm Build.Counts {} [Halted.halt, Halted.halt] Nested.start =
        .ok () last) ∧
    Halted.state.IsCounted ∧ Halted.state.IsDead ∧
    ∃ middle after,
      runStatement (runSection 0) Halted.limit (Halted.state.enter Halted.limit) = .ok () middle ∧
      runScoped (runSection 0) Halted.limit Halted.state =
        .error (.statement middle.line middle.source .unreachable) after := by
  obtain ⟨_, last, ran⟩ := exists_ok_of_succeeds halts_succeed
  obtain ⟨_, middle, inside⟩ := exists_ok_of_succeeds limit_succeeds
  have counted : state.IsCounted := ⟨.inr ⟨rfl, rfl⟩, List.forall_mem_nil _⟩
  obtain ⟨-, watched, statements⟩ :=
    statements_refused_after_halts {} {} "main.mcc" [halt, halt]
  obtain ⟨-, refused, dead⟩ := statements 0 limit _ middle counted inside
  obtain ⟨after, fails⟩ := refused ((dead rfl).2 ⟨rfl, rfl, nofun⟩)
  exact ⟨⟨last, ran, fun alarm => watched last alarm ran⟩, counted, rfl, middle, after, inside, fails⟩

end ScriptPack
