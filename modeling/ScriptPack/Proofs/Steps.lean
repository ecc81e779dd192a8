import Mathlib.Algebra.Order.Ring.Int
import ScriptPack.Build.Run

/-!
Steps of a compilation, taken apart. For each way to build a step out of others there is one lemma
that tells when it succeeds, with which result and in which state; proofs about steps go through
these and do not open the monad.
-/

namespace ScriptPack

open CounterM

variable {board : Scoreboard} {statement : Statement} {accessor : String} {counter : Counter}

section

variable {ε σ α β : Type} {step : EStateM ε σ α} {next : α → EStateM ε σ β} {before after : σ}

theorem bind_apply_of_ok {value : α} {middle : σ} (done : step before = .ok value middle) :
    (step >>= next) before = next value middle := by
  change EStateM.bind step next before = _
  rw [EStateM.bind, done]

theorem bind_apply_of_error {error : ε} (failed : step before = .error error after) :
    (step >>= next) before = .error error after := by
  change EStateM.bind step next before = _
  rw [EStateM.bind, failed]

theorem bind_apply_eq_ok_iff {result : β} :
    (step >>= next) before = .ok result after ↔
      ∃ value middle, step before = .ok value middle ∧ next value middle = .ok result after := by
  constructor
  · intro run
    change EStateM.bind step next before = _ at run
    rw [EStateM.bind] at run
    cases first : step before with
    | ok value middle =>
      rw [first] at run
      exact ⟨value, middle, rfl, run⟩
    | error error middle =>
      rw [first] at run
      contradiction
  · rintro ⟨value, middle, first, second⟩
    rw [bind_apply_of_ok first, second]

end

/-- A batch is written as it would be where the frames stay, or in place, and uses them up. -/
theorem Build.emitBatch_eq (build : Build) (lines : List Line) (word : String) (inPlace : Bool) :
    build.emitBatch lines word inPlace =
      { (if inPlace then build.write (lines.map (·.within build.frames))
          else build.emitBatchKeeping lines word) with
        frames := if lines.isEmpty then build.frames else [] } := by
  rcases lines with _ | ⟨first, _ | ⟨second, rest⟩⟩
  · cases inPlace <;> simp [emitBatch, emitBatchKeeping, write, CommandFile.append]
  · cases inPlace <;> rfl
  · cases inPlace with
    | true => rfl
    | false =>
      by_cases noFrames : build.frames = []
      · simp [emitBatch, emitBatchKeeping, noFrames, Line.within]
      · simp [emitBatch, emitBatchKeeping, noFrames, emitLine]

/-- The state in which a statement is run: in a scope of its own, and named in errors. -/
def Build.enter (build : Build) (statement : Statement) : Build :=
  { build with
    line := statement.line
    source := statement.source
    scoreboard := build.scoreboard.pushScope }

/-- The state when a statement has been run, before what is due after it. -/
def Build.leave (build : Build) (unreachable : Option Nat) : Build :=
  { build with
    scoreboard := build.scoreboard.popScope
    unreachable }

/-- How the statements of a body are run. -/
abbrev Runner : Type := List Statement → BuildM Unit

namespace BuildM

variable {α β ε : Type} {before after : Build} {step : BuildM α} {next : α → BuildM β} {value : α}
  {result : β} {problem : Problem} {found : Option α} {outcome : Except ε α}
  {computation : CounterM α} {run : Runner}

@[simp]
theorem pure_apply (value : α) (build : Build) : (pure value : BuildM α) build = .ok value build :=
  rfl

@[simp]
theorem get_apply (build : Build) : (get : BuildM Build) build = .ok build build := rfl

@[simp]
theorem set_apply (next build : Build) : (set next : BuildM PUnit) build = .ok ⟨⟩ next := rfl

@[simp]
theorem modify_apply (change : Build → Build) (build : Build) :
    (modify change : BuildM PUnit) build = .ok ⟨⟩ (change build) := rfl

theorem modifyGet_apply (change : Build → α × Build) (build : Build) :
    (modifyGet change : BuildM α) build = .ok (change build).1 (change build).2 := rfl

@[simp]
theorem fail_apply (problem : Problem) (build : Build) :
    (fail problem : BuildM α) build = .error (build.failure problem) build := rfl

def succeeds (outcome : EStateM.Result Error Build α) : Bool :=
  match outcome with
  | .ok _ _ => true
  | .error _ _ => false

theorem exists_ok_of_succeeds {outcome : EStateM.Result Error Build α}
    (success : succeeds outcome = true) : ∃ value after, outcome = .ok value after := by
  cases outcome with
  | ok value after => exact ⟨value, after, rfl⟩
  | error error after => contradiction

theorem bind_of_ok {middle : Build} (done : step before = .ok value middle) :
    (step >>= next) before = next value middle :=
  bind_apply_of_ok done

theorem bind_eq_ok_iff :
    (step >>= next) before = .ok result after ↔
      ∃ value middle, step before = .ok value middle ∧ next value middle = .ok result after :=
  bind_apply_eq_ok_iff

theorem orFail_eq_ok_iff :
    orFail problem found before = .ok value after ↔ found = some value ∧ after = before := by
  cases found with
  | none => simp [orFail]
  | some other => simp [orFail, eq_comm]

theorem ofExcept_eq_ok_iff {problem : ε → Problem} :
    ofExcept problem outcome before = .ok value after ↔ outcome = .ok value ∧ after = before := by
  cases outcome with
  | error error => simp [ofExcept]
  | ok other => simp [ofExcept, eq_comm]

theorem counters_eq (computation : CounterM α) (build : Build) : counters computation build =
    match computation build.scoreboard with
    | .ok value scoreboard => .ok value { build with scoreboard }
    | .error error scoreboard =>
        .error (({ build with scoreboard } : Build).failure (.counter error))
          { build with scoreboard } := by
  unfold counters
  rw [bind_of_ok (get_apply build), EStateM.run]
  cases computation build.scoreboard <;> rfl

theorem counters_of_ok (done : computation before.scoreboard = .ok value board) :
    counters computation before = .ok value { before with scoreboard := board } := by
  rw [counters_eq, done]

theorem counters_eq_ok_iff :
    counters computation before = .ok value after ↔
      ∃ board, computation before.scoreboard = .ok value board ∧
        after = { before with scoreboard := board } := by
  rw [counters_eq]
  cases computation before.scoreboard with
  | ok other board =>
    constructor
    · rintro ⟨⟩
      exact ⟨board, rfl, rfl⟩
    · rintro ⟨_, ⟨⟩, rfl⟩
      rfl
  | error error board => simp

theorem bind_ofExcept_eq_ok_iff {problem : ε → Problem} :
    (ofExcept problem outcome >>= next) before = .ok result after ↔
      ∃ value, outcome = .ok value ∧ next value before = .ok result after := by
  rw [bind_eq_ok_iff]
  constructor
  · rintro ⟨value, middle, first, second⟩
    obtain ⟨found, rfl⟩ := ofExcept_eq_ok_iff.1 first
    exact ⟨value, found, second⟩
  · rintro ⟨value, found, second⟩
    exact ⟨value, before, ofExcept_eq_ok_iff.2 ⟨found, rfl⟩, second⟩

theorem bind_orFail_eq_ok_iff :
    (orFail problem found >>= next) before = .ok result after ↔
      ∃ value, found = some value ∧ next value before = .ok result after := by
  rw [bind_eq_ok_iff]
  constructor
  · rintro ⟨value, middle, first, second⟩
    obtain ⟨same, rfl⟩ := orFail_eq_ok_iff.1 first
    exact ⟨value, same, second⟩
  · rintro ⟨value, same, second⟩
    exact ⟨value, before, orFail_eq_ok_iff.2 ⟨same, rfl⟩, second⟩

theorem bind_counters_eq_ok_iff :
    (counters computation >>= next) before = .ok result after ↔
      ∃ value board, computation before.scoreboard = .ok value board ∧
        next value { before with scoreboard := board } = .ok result after := by
  rw [bind_eq_ok_iff]
  constructor
  · rintro ⟨value, middle, first, second⟩
    obtain ⟨board, done, rfl⟩ := counters_eq_ok_iff.1 first
    exact ⟨value, board, done, second⟩
  · rintro ⟨value, board, done, second⟩
    exact ⟨value, _, counters_of_ok done, second⟩

theorem always_eq_ok_iff {step : BuildM Unit} {last : Build → Build} :
    always step last before = .ok () after ↔
      ∃ middle, step before = .ok () middle ∧ after = last middle := by
  unfold always
  cases step before with
  | ok result middle => simp [eq_comm]
  | error error middle => simp

/-- A step whose failure is mended before it is passed on. -/
theorem recover_apply (step : BuildM α) (change : Build → Build) (before : Build) :
    (tryCatch step fun error => do
      modify change
      throw error) before =
    match step before with
    | .ok value after => .ok value after
    | .error error after => .error error (change after) := by
  change EStateM.tryCatch step _ before = _
  unfold EStateM.tryCatch
  cases step before <;> rfl

theorem recover_eq_ok_iff {change : Build → Build} :
    (tryCatch step fun error => do
      modify change
      throw error) before = .ok value after ↔ step before = .ok value after := by
  rw [recover_apply]
  cases step before <;> simp

theorem takeBody_eq_ok_iff {body : List Statement} :
    takeBody before = .ok body after ↔ ∃ first rest, before.upcoming = first :: rest ∧
      (first.size? = none ∧ body = [first] ∧ after = { before with upcoming := rest } ∨
        ∃ size, first.size? = some (size + 1) ∧ body = rest.take (size + 1) ∧
          after = { before with upcoming := rest.drop (size + 1 + 1) }) := by
  rw [takeBody, bind_of_ok (get_apply before)]
  constructor
  · intro took
    cases upcoming : before.upcoming with
    | nil =>
      rw [upcoming] at took
      cases took
    | cons first rest =>
      refine ⟨first, rest, rfl, ?_⟩
      rcases isSize : first.size? with _ | _ | size <;> simp only [upcoming, isSize] at took <;>
        cases took
      · exact .inl ⟨rfl, rfl, rfl⟩
      · exact .inr ⟨size, rfl, rfl, rfl⟩
  · rintro ⟨first, rest, upcoming, ⟨isSize, rfl, rfl⟩ | ⟨size, isSize, rfl, rfl⟩⟩ <;>
      simp only [upcoming, isSize] <;> rfl

theorem skipEmptyBody_of_empty (isEmpty : before.nextBlockSize? = some 0) :
    skipEmptyBody before = .ok true ((before.pushSelector .self).setHooks
      { closing := [.popSelector], skip := true }) := by
  rw [skipEmptyBody, bind_of_ok (get_apply before), if_pos isEmpty]
  rfl

theorem skipEmptyBody_of_body (notEmpty : before.nextBlockSize? ≠ some 0) :
    skipEmptyBody before = .ok false before := by
  rw [skipEmptyBody, bind_of_ok (get_apply before), if_neg notEmpty]
  rfl

theorem checkReachable_eq_ok (run : checkReachable before = .ok () after) :
    ∃ unreachable, after = { before with unreachable } := by
  unfold checkReachable at run
  rw [bind_of_ok (get_apply before)] at run
  cases waiting : before.unreachable with
  | none =>
    simp only [waiting] at run
    cases run
    exact ⟨before.unreachable, rfl⟩
  | some left =>
    cases left with
    | zero =>
      simp only [waiting] at run
      contradiction
    | succ left =>
      simp only [waiting] at run
      cases run
      exact ⟨_, rfl⟩

/-- A statement is run in a scope of its own; then what is due after it is done. -/
theorem runScoped_eq_ok (done : runScoped run statement before = .ok () after) :
    ∃ middle unreachable, runStatement run statement (before.enter statement) = .ok () middle ∧
      after = (middle.leave unreachable).settlePops := by
  unfold runScoped at done
  rw [bind_of_ok (modify_apply _ before)] at done
  obtain ⟨_, closed, ranClosed, continued⟩ := bind_eq_ok_iff.1 done
  obtain ⟨middle, ran, rfl⟩ := always_eq_ok_iff.1 ranClosed
  obtain ⟨_, reached, checked, settled⟩ := bind_eq_ok_iff.1 continued
  obtain ⟨unreachable, rfl⟩ := checkReachable_eq_ok checked
  cases settled
  exact ⟨middle, unreachable, ran, rfl⟩

theorem takeStatement?_nil (ended : before.upcoming = []) :
    takeStatement? before = .ok none before := by
  rw [takeStatement?, modifyGet_apply, ended]

theorem takeStatement?_cons {rest : List Statement} (upcoming : before.upcoming = statement :: rest) :
    takeStatement? before = .ok (some statement) { before with upcoming := rest } := by
  rw [takeStatement?, modifyGet_apply, upcoming]

theorem runUpcoming_cons {rest : List Statement} {steps : Nat}
    (upcoming : before.upcoming = statement :: rest)
    (done : runUpcoming run (steps + 1) before = .ok () after) :
    ∃ middle, runScoped run statement { before with upcoming := rest } = .ok () middle ∧
      runUpcoming run steps middle = .ok () after := by
  rw [runUpcoming, bind_of_ok (takeStatement?_cons upcoming)] at done
  obtain ⟨_, middle, ran, continued⟩ := bind_eq_ok_iff.1 done
  exact ⟨middle, ran, continued⟩

end BuildM

namespace Build

theorem popSelector_eq (build : Build) :
    ∃ active outerSelectors, build.popSelector = { build with active, outerSelectors } := by
  unfold popSelector
  split
  · exact ⟨_, _, rfl⟩
  · exact ⟨_, _, rfl⟩

theorem repeat_popSelector_eq (build : Build) (count : Nat) : ∃ active outerSelectors,
    Nat.repeat popSelector count build = { build with active, outerSelectors } := by
  induction count with
  | zero => exact ⟨_, _, rfl⟩
  | succ count ih =>
    obtain ⟨_, _, popped⟩ := ih
    rw [Nat.repeat, popped]
    exact popSelector_eq _

theorem foldl_apply_eq (actions : List BlockAction) (build : Build) :
    ∃ active outerSelectors file outerFiles pack unreachable, actions.foldl apply build =
      { build with active, outerSelectors, file, outerFiles, pack, unreachable } := by
  induction actions generalizing build with
  | nil => exact ⟨_, _, _, _, _, _, rfl⟩
  | cons action actions ih =>
    obtain ⟨_, _, _, _, _, _, applied⟩ := ih (build.apply action)
    rw [List.foldl_cons, applied]
    cases action with
    | pushSelector selector => exact ⟨_, _, _, _, _, _, rfl⟩
    | pushFile file => exact ⟨_, _, _, _, _, _, rfl⟩
    | popSelector =>
      obtain ⟨_, _, popped⟩ := build.popSelector_eq
      rw [apply, popped]
      exact ⟨_, _, _, _, _, _, rfl⟩
    | popFile =>
      rw [apply, popFile]
      split <;> exact ⟨_, _, _, _, _, _, rfl⟩

theorem openBlock_eq (build : Build) (size : Nat) :
    ∃ active outerSelectors file outerFiles pack openBlocks, build.openBlock size = { build with
      active, outerSelectors, file, outerFiles, pack, openBlocks, pendingBlock := none
      unreachable := none
      upcoming := if (build.pendingBlock.getD {}).skip then build.upcoming.drop size
        else build.upcoming } := by
  unfold openBlock
  dsimp only
  split
  · exact ⟨_, _, _, _, _, _, rfl⟩
  · obtain ⟨_, _, _, _, _, _, applied⟩ := foldl_apply_eq (build.pendingBlock.getD {}).opening
      { build with pendingBlock := none }
    rw [applied]
    exact ⟨_, _, _, _, _, _, rfl⟩

theorem closeBlock?_eq {build closed : Build} (closes : build.closeBlock? = some closed) :
    ∃ active outerSelectors file outerFiles pack openBlocks, closed = { build with
      active, outerSelectors, file, outerFiles, pack, openBlocks, unreachable := none } := by
  unfold closeBlock? at closes
  split at closes
  · cases closes
  · next actions rest _ =>
    obtain ⟨_, _, _, _, _, _, applied⟩ := foldl_apply_eq actions { build with openBlocks := rest }
    cases closes
    rw [applied]
    exact ⟨_, _, _, _, _, _, rfl⟩

/-- What is due after a statement changes the selectors, the frames and what is due next only. -/
theorem settlePops_eq (build : Build) :
    ∃ active outerSelectors frames unreachable pendingPops, build.settlePops = { build with
      active, outerSelectors, frames, unreachable, pendingPops } := by
  unfold settlePops
  dsimp only
  split
  · exact ⟨_, _, _, _, _, rfl⟩
  · obtain ⟨active, outerSelectors, popped⟩ :=
      build.repeat_popSelector_eq (countDown build.pendingPops).1
    rw [popped]
    exact ⟨_, _, _, _, _, rfl⟩

theorem settlePops_file (build : Build) : build.settlePops.file = build.file := by
  obtain ⟨_, _, _, _, _, settled⟩ := build.settlePops_eq
  rw [settled]

theorem settlePops_pack (build : Build) : build.settlePops.pack = build.pack := by
  obtain ⟨_, _, _, _, _, settled⟩ := build.settlePops_eq
  rw [settled]

theorem settlePops_of_waiting {build : Build} {rest : List Nat}
    (waits : build.pendingPops = 2 :: rest) :
    build.settlePops = { build with pendingPops := 1 :: rest } := by
  simp [settlePops, waits, countDown]

end Build

/-- A statement, alone or as the only one of a block, as the body of a condition. The opening brace
is not run. -/
inductive Statement.IsBody (statement : Statement) : Nat → List Statement → Prop where
  | inline (isSingle : statement.size? = none) : statement.IsBody 1 [statement]
  | block {opening closing : Statement} (opens : opening.size? = some 1)
      (closes : closing.kind = .closeBlock) : statement.IsBody 2 [opening, statement, closing]

theorem Statement.IsBody.nextBlockSize? {steps : Nat} {body rest : List Statement} {build : Build}
    (isBody : statement.IsBody steps body) (upcoming : build.upcoming = body ++ rest) :
    build.nextBlockSize? = none ∨ build.nextBlockSize? = some 1 := by
  cases isBody with
  | inline isSingle =>
    left
    simp [Build.nextBlockSize?, upcoming, isSingle]
  | block opens closes =>
    right
    simp [Build.nextBlockSize?, upcoming, opens]

namespace ArgumentM

variable {α β : Type} {tokens rest : List Token} {before after : Build} {value : α}

theorem bind_eq_ok_iff {step : ArgumentM α} {next : α → ArgumentM β} {result : β × List Token} :
    (step >>= next) tokens before = .ok result after ↔
      ∃ value rest middle, step tokens before = .ok (value, rest) middle ∧
        next value rest middle = .ok result after := by
  change (step tokens >>= fun (value, rest) => next value rest : BuildM _) before = _ ↔ _
  rw [BuildM.bind_eq_ok_iff, Prod.exists]

theorem lift_eq_ok_iff {step : BuildM α} :
    (liftM step : ArgumentM α) tokens before = .ok (value, rest) after ↔
      step before = .ok value after ∧ rest = tokens := by
  change (step >>= fun value => pure (value, tokens) : BuildM _) before = _ ↔ _
  rw [BuildM.bind_eq_ok_iff]
  constructor
  · rintro ⟨value, middle, ran, returned⟩
    cases returned
    exact ⟨ran, rfl⟩
  · rintro ⟨ran, rfl⟩
    exact ⟨value, after, ran, rfl⟩

theorem read_eq_ok {reader : List Token → Except Problem (α × List Token)}
    (run : read reader tokens before = .ok (value, rest) after) :
    reader tokens = .ok (value, rest) ∧ after = before := by
  obtain ⟨found, kept, middle, ran, continued⟩ := bind_eq_ok_iff.1 run
  cases ran
  cases isRead : reader tokens with
  | error problem =>
    rw [isRead] at continued
    cases continued
  | ok result =>
    rw [isRead] at continued
    cases continued
    exact ⟨rfl, rfl⟩

theorem next_eq_ok {view : View α} (run : next view tokens before = .ok (value, rest) after) :
    ∃ token, tokens = token :: rest ∧ view.view? token.kind = some value ∧ after = before := by
  obtain ⟨taken, rfl⟩ := read_eq_ok run
  cases tokens with
  | nil => cases taken
  | cons token others =>
    cases viewed : view.view? token.kind with
    | none => simp [View.take, viewed] at taken
    | some other =>
      simp only [View.take, viewed] at taken
      cases taken
      exact ⟨token, rfl, viewed, rfl⟩

end ArgumentM

namespace BuildM

variable {run : Runner} {directive : Directive} {before after : Build}

theorem runDirective_eq_ok {tokens : List Token}
    (directed : runDirective run directive tokens before = .ok () after) :
    ∃ rest, ArgumentM.runDirective run directive tokens before = .ok ((), rest) after := by
  unfold runDirective at directed
  split at directed
  · cases directed
  · change (ArgumentM.runDirective run directive tokens >>= fun result => pure result.1 : BuildM _)
      before = _ at directed
    obtain ⟨⟨_, rest⟩, middle, ran, returned⟩ := bind_eq_ok_iff.1 directed
    cases returned
    exact ⟨rest, ran⟩

/-- A directive that needs no feature is run on its prepared tokens. -/
theorem runStatement_of_noFeature (isDirective : statement.kind = .directive directive)
    (noFeature : directive.feature? = none) (ran : runStatement run statement before = .ok () after) :
    ∃ tokens prepared rest, prepare statement before = .ok tokens prepared ∧
      ArgumentM.runDirective run directive tokens prepared = .ok ((), rest) after := by
  simp only [runStatement, isDirective, noFeature] at ran
  change (prepare statement >>= _) before = _ at ran
  obtain ⟨tokens, prepared, prepares, directed⟩ := bind_eq_ok_iff.1 ran
  obtain ⟨rest, ranDirective⟩ := runDirective_eq_ok directed
  exact ⟨tokens, prepared, rest, prepares, ranDirective⟩

end BuildM

theorem Scoreboard.get_eq_ok_iff :
    board.get accessor = .ok counter ↔ board.get? accessor = some counter := by
  unfold Scoreboard.get
  cases board.get? accessor with
  | some other => simp
  | none =>
    dsimp only
    split
    · split <;> simp
    · simp

namespace CounterM

variable {later : Scoreboard} {α β : Type} {step : CounterM α} {next : α → CounterM β}

theorem bind_of_ok {value : α} {middle : Scoreboard} (done : step board = .ok value middle) :
    (step >>= next) board = next value middle :=
  bind_apply_of_ok done

theorem bind_eq_ok_iff {result : β} :
    (step >>= next) board = .ok result later ↔
      ∃ value middle, step board = .ok value middle ∧ next value middle = .ok result later :=
  bind_apply_eq_ok_iff

theorem getThe_apply (board : Scoreboard) :
    (getThe Scoreboard : CounterM Scoreboard) board = .ok board board := rfl

theorem get_eq_ok_iff :
    CounterM.get accessor board = .ok counter later ↔
      board.get? accessor = some counter ∧ later = board := by
  rw [← Scoreboard.get_eq_ok_iff, CounterM.get, bind_of_ok (getThe_apply board)]
  cases board.get accessor with
  | ok other =>
    constructor
    · rintro ⟨⟩
      exact ⟨rfl, rfl⟩
    · rintro ⟨⟨⟩, rfl⟩
      rfl
  | error error =>
    constructor
    · rintro ⟨⟩
    · rintro ⟨⟨⟩, -⟩

theorem get_of_some (found : board.get? accessor = some counter) :
    get accessor board = .ok counter board :=
  get_eq_ok_iff.2 ⟨found, rfl⟩

theorem define_eq_ok (run : define counter board = .ok () later) :
    later = board.addCounter counter := by
  rw [define, bind_of_ok (getThe_apply board)] at run
  by_cases long : counter.kind.maxNameLength < counter.name.length
  · rw [Scoreboard.define, if_pos long] at run
    cases run
  · rw [Scoreboard.define, if_neg long] at run
    cases run
    rfl

theorem temporary_apply (kind : CounterKind) (board : Scoreboard) :
    temporary kind board = .ok (board.temporary kind).1 (board.temporary kind).2 := rfl

end CounterM

end ScriptPack
