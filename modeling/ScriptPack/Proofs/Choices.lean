import ScriptPack.Proofs.Balance
import ScriptPack.Proofs.StatementChanges

/-!
Choices between values. A choice remembers how it went under the number of blocks that are open, and
takes or passes over what comes next: a block, or a single statement and nothing that belongs to it.
Main result: a body that is not chosen leaves no trace, and the body of the other branch is chosen
exactly if the first one was not, as long as no other choice is made under the same number of blocks.
-/

namespace ScriptPack

open ArgumentM Build BuildM List Statement

/-- What a choice is about: a block with its braces, or a single statement. -/
inductive Statement.IsChoiceBody : List Statement → Prop where
  | block {opening closing : Statement} {inside : List Statement}
      (opens : opening.kind = .openBlock inside.length) (closes : closing.kind = .closeBlock) :
      IsChoiceBody (opening :: (inside ++ [closing]))
  | single {statement : Statement} (noBlock : statement.isOpenBlock = false) :
      IsChoiceBody [statement]

def ArgumentM.comparison : ArgumentM Bool := do
  let name ← next View.identifier
  let op ← next View.comparison
  let others ← values
  if others.isEmpty then fail .noComparedValue
  let values ← environment (VariableM.get name)
  ofExcept id (compareAll op others 0 values)

/-- The result of the comparison, for a choice that is run from this state. -/
def Statement.comparison? (statement : Statement) (before : Build) : Option Bool :=
  match prepare statement (before.enter statement) with
  | .error _ _ => none
  | .ok tokens prepared =>
      match comparison tokens prepared with
      | .error _ _ => none
      | .ok (chosen, _) _ => some chosen

/-- A choice remembers the result of its comparison, and then takes or passes over what comes next. -/
def ArgumentM.decide (chosen : Bool) : ArgumentM Unit := do
  if !(← getThe Build).hasNext then fail .noValuesBody
  modifyThe Build (·.rememberChoice chosen)
  runChosen chosen

theorem ArgumentM.runWhenValues_eq : runWhenValues = comparison >>= decide := by
  unfold runWhenValues comparison
  simp only [bind_assoc]
  refine bind_congr fun name => bind_congr fun op => bind_congr fun others => ?_
  split <;> simp only [bind_assoc] <;> rfl

namespace Build

/-- The same state but for the statements to come, the block that waits, and what is counted and popped
after statements: no command, message, variable or definition is new. -/
def PassesTo (build : Build) (rest : List Statement) (last : Build) : Prop :=
  ∃ active outerSelectors frames unreachable pendingPops pendingBlock line source, last = { build with
    active, outerSelectors, frames, unreachable, pendingPops, pendingBlock, line, source
    upcoming := rest }

/-- A body that is chosen comes next, and is not skipped. A body that is not chosen is passed over. -/
def Offers (run : List Statement → BuildM Unit) (build : Build) (chosen : Bool)
    (body rest : List Statement) : Prop :=
  if chosen then
    build.upcoming = body ++ rest ∧
      (build.nextIsBlock = true → (build.pendingBlock.getD {}).skip = false)
  else ∃ steps last, runUpcoming run steps build = .ok () last ∧ build.PassesTo rest last

end Build

namespace BuildM

def NoChoiceAt (blocks : Nat) (statement : Statement) (before _ : Build) : Prop :=
  statement.kind = .directive .whenValues → before.depth ≠ blocks

instance (blocks : Nat) (statement : Statement) (before after : Build) :
    Decidable (NoChoiceAt blocks statement before after) :=
  inferInstanceAs (Decidable (_ → _))

/-- The statement is a brace, or runs while more than this number of blocks are open. -/
def Within (blocks : Nat) (statement : Statement) (before _ : Build) : Prop :=
  statement.isBrace = true ∨ blocks < before.depth

instance (blocks : Nat) (statement : Statement) (before after : Build) :
    Decidable (Within blocks statement before after) :=
  inferInstanceAs (Decidable (_ ∨ _))

theorem Within.noChoiceAt {blocks : Nat} {statement : Statement} {before after : Build}
    (within : Within blocks statement before after) : NoChoiceAt blocks statement before after := by
  intro isChoice
  rcases within with isBrace | deeper
  · simp [Statement.isBrace, Statement.isOpenBlock, Statement.isCloseBlock, Statement.size?,
      isChoice] at isBrace
  · exact Nat.ne_of_gt deeper

end BuildM

open BuildM

/-- Some of the upcoming statements lead from a state to another, and every statement on the way, at any
depth of lists, passes the check. -/
def Build.Reaches (check : Statement → Build → Build → Prop)
    [∀ statement before after, Decidable (check statement before after)] (depth : Nat)
    (before after : Build) : Prop :=
  ∃ steps alarm, watchUpcoming alarm check (watchSection alarm check depth) steps before = .ok () after

/-! Around a statement. -/

namespace BuildM

variable {run : Runner} {statement : Statement} {before after : Build}

/-- Around a statement, neither choices nor blocks nor the statements to come change. -/
theorem runScoped_settles (ran : runScoped run statement before = .ok () after) :
    ∃ middle, runStatement run statement (before.enter statement) = .ok () middle ∧
      after.lastChoices = middle.lastChoices ∧ after.openBlocks = middle.openBlocks ∧
      after.upcoming = middle.upcoming ∧ after.pendingBlock = middle.pendingBlock := by
  obtain ⟨middle, unreachable, inside, rfl⟩ := runScoped_eq_ok ran
  obtain ⟨_, _, _, _, _, settled⟩ := (middle.leave unreachable).settlePops_eq
  rw [settled]
  exact ⟨middle, inside, rfl, rfl, rfl, rfl⟩

theorem runUpcoming_one_eq_ok {rest : List Statement}
    (upcoming : before.upcoming = statement :: rest) (ran : runUpcoming run 1 before = .ok () after) :
    runScoped run statement { before with upcoming := rest } = .ok () after := by
  obtain ⟨middle, first, ended⟩ := runUpcoming_cons upcoming ran
  cases ended
  exact first

end BuildM

namespace Build

variable {run : Runner} {before after : Build}

theorem Changes.same (changes : Changes run False False before after) :
    after.lastChoices = before.lastChoices ∧ after.openBlocks = before.openBlocks ∧
      after.upcoming = before.upcoming := by
  induction changes with
  | refl => exact ⟨rfl, rfl, rfl⟩
  | tail _ change ih =>
    obtain ⟨choices, blocks, upcoming⟩ := ih
    cases change with
    | quiet same =>
      exact ⟨same.choices.trans choices, same.blocks.trans blocks, same.upcoming.trans upcoming⟩
    | board change => exact ⟨choices, blocks, upcoming⟩
    | advance isGoverning _ => exact isGoverning.elim
    | enter isGoverning => exact isGoverning.elim
    | remember isDeciding _ => exact isDeciding.elim
    | list isGoverning _ => exact isGoverning.elim

end Build

namespace BuildM

variable {run : Runner} {statement : Statement} {before after : Build}
  {α : Type}

theorem Makes.same {step : BuildM α} {value : α} (makes : Makes run False False step)
    (ran : step before = .ok value after) :
    after.lastChoices = before.lastChoices ∧ after.openBlocks = before.openBlocks ∧
      after.upcoming = before.upcoming := by
  have changes := makes before
  unfold MakesAt at changes
  rw [final_of_ok ran] at changes
  exact changes.same

end BuildM

/-! The choice itself. -/

theorem ArgumentM.makes_comparison (run : Runner) {governs decides : Prop} :
    Over (Makes run governs decides) comparison := by
  apply making.seq (making.ofNext _); intro name
  apply making.seq (making.ofNext _); intro op
  apply making.seq making.ofValues; intro others
  apply making.require
  exact making.seq (making.liftEnvironment _) fun _ => making.lift (making.ofOfExcept _ _)

theorem ArgumentM.decide_eq_ok {chosen : Bool} {tokens rest : List Token} {before after : Build}
    (decided : decide chosen tokens before = .ok ((), rest) after) :
    runChosen chosen (before.rememberChoice chosen) = .ok () after := by
  unfold decide at decided
  obtain ⟨build, _, middle, isBuild, decided⟩ := bind_eq_ok_iff.1 decided
  cases isBuild
  split at decided
  · cases decided
  · obtain ⟨_, _, _, remembered, chose⟩ := bind_eq_ok_iff.1 decided
    cases remembered
    exact (lift_eq_ok_iff.1 chose).1

namespace BuildM

variable {run : Runner} {statement : Statement} {before after : Build}

/-- A choice: the values are compared, and with the result remembered, what comes next is taken or
passed over. -/
theorem runStatement_whenValues (isChoice : statement.kind = .directive .whenValues)
    (ran : runStatement run statement (before.enter statement) = .ok () after) :
    ∃ (chosen : Bool) (compared : Build), statement.comparison? before = some chosen ∧
      runChosen chosen (compared.rememberChoice chosen) = .ok () after ∧
      compared.lastChoices = before.lastChoices ∧ compared.openBlocks = before.openBlocks ∧
      compared.upcoming = before.upcoming := by
  obtain ⟨tokens, prepared, rest, prepares, directed⟩ :=
    runStatement_of_noFeature isChoice rfl ran
  change runWhenValues tokens prepared = _ at directed
  rw [runWhenValues_eq] at directed
  obtain ⟨chosen, left, compared, compares, decided⟩ := ArgumentM.bind_eq_ok_iff.1 directed
  obtain ⟨choices, blocks, upcoming⟩ :=
    Makes.same ((@making run False False).ofPrepare statement) prepares
  obtain ⟨choices', blocks', upcoming'⟩ := Makes.same (makes_comparison run tokens) compares
  refine ⟨chosen, compared, ?_, decide_eq_ok decided, choices'.trans choices,
    blocks'.trans blocks, upcoming'.trans upcoming⟩
  simp only [comparison?, prepares, compares]

theorem runChosen_of_block (chosen : Bool) (next : before.nextIsBlock = true) :
    runChosen chosen before = .ok () (before.setHooks
      (if chosen then { opening := [.pushSelector before.active], closing := [.popSelector] }
        else { skip := true })) := by
  unfold runChosen
  rw [modify_apply, if_pos next]
  cases chosen <;> rfl

theorem runChosen_of_single (chosen : Bool) (next : before.nextIsBlock = false) :
    runChosen chosen before =
      .ok () (if chosen then before else { before with upcoming := before.upcoming.drop 1 }) := by
  unfold runChosen
  rw [modify_apply, if_neg (by rw [next]; exact Bool.false_ne_true)]

theorem runChosen_eq_ok {chosen : Bool} (ran : runChosen chosen before = .ok () after) :
    after.lastChoices = before.lastChoices ∧ after.openBlocks = before.openBlocks := by
  cases next : before.nextIsBlock with
  | true =>
    cases (runChosen_of_block chosen next).symm.trans ran
    exact ⟨rfl, rfl⟩
  | false =>
    cases (runChosen_of_single chosen next).symm.trans ran
    cases chosen <;> exact ⟨rfl, rfl⟩

end BuildM

/-! A block that is skipped. -/

namespace Build

variable {build middle last : Build} {rest later : List Statement}

theorem PassesTo.trans (first : build.PassesTo rest middle) (second : middle.PassesTo later last) :
    build.PassesTo later last := by
  obtain ⟨_, _, _, _, _, _, _, _, rfl⟩ := first
  obtain ⟨_, _, _, _, _, _, _, _, rfl⟩ := second
  exact ⟨_, _, _, _, _, _, _, _, rfl⟩

theorem PassesTo.advance (passes : build.PassesTo rest last) (later : List Statement) :
    build.PassesTo later { last with upcoming := later } := by
  obtain ⟨_, _, _, _, _, _, _, _, rfl⟩ := passes
  exact ⟨_, _, _, _, _, _, _, _, rfl⟩

end Build

namespace BuildM

variable {statement : Statement} {before after : Build}

/-- An opening brace that skips its block goes to the brace that closes it. -/
theorem runScoped_skip {size : Nat} (opens : statement.kind = .openBlock size)
    (waits : before.pendingBlock = some { skip := true }) :
    ∃ opened, (∀ run, runScoped run statement before = .ok () opened) ∧
      opened.openBlocks = [] :: before.openBlocks ∧
      opened.upcoming = before.upcoming.drop size ∧
      before.PassesTo (before.upcoming.drop size) { opened with openBlocks := before.openBlocks } := by
  have opened : (before.enter statement).openBlock size =
      { before.enter statement with
        pendingBlock := none, upcoming := before.upcoming.drop size
        openBlocks := [] :: before.openBlocks, unreachable := none } := by
    have waits : (before.enter statement).pendingBlock = some { skip := true } := waits
    simp only [openBlock, waits, Option.getD_some, if_true]
    rfl
  obtain ⟨_, _, _, _, _, settled⟩ := settlePops_eq
    { before with
      pendingBlock := none, upcoming := before.upcoming.drop size
      openBlocks := [] :: before.openBlocks, unreachable := none, line := statement.line
      source := statement.source }
  refine ⟨_, fun run => runScoped_eq_ok_iff.2
    ⟨_, _, runStatement_open opens, by rw [opened]; rfl, settled.symm⟩, rfl, rfl, ?_⟩
  exact ⟨_, _, _, _, _, _, _, _, rfl⟩

theorem runScoped_close {blocks : List (List BlockAction)} (closes : statement.kind = .closeBlock)
    (isOpen : before.openBlocks = [] :: blocks) :
    ∃ closed, (∀ run, runScoped run statement before = .ok () closed) ∧
      { before with openBlocks := blocks }.PassesTo before.upcoming closed := by
  have closed : (before.enter statement).closeBlock? =
      some { before.enter statement with openBlocks := blocks, unreachable := none } := by
    have isOpen : (before.enter statement).openBlocks = [] :: blocks := isOpen
    rw [closeBlock?, isOpen]
    rfl
  obtain ⟨_, _, _, _, _, settled⟩ := settlePops_eq
    { before with
      openBlocks := blocks, unreachable := none, line := statement.line, source := statement.source }
  refine ⟨_, fun run => runScoped_eq_ok_iff.2
    ⟨_, _, (runStatement_close_eq_ok_iff closes).2 closed, rfl, settled.symm⟩, ?_⟩
  exact ⟨_, _, _, _, _, _, _, _, rfl⟩

/-- A block that waits to be skipped is passed over, whatever stands inside: only its braces are run. -/
theorem watchUpcoming_skip {opening closing : Statement} {inside rest : List Statement}
    (opens : opening.kind = .openBlock inside.length) (closes : closing.kind = .closeBlock)
    (upcoming : before.upcoming = opening :: (inside ++ [closing]) ++ rest)
    (waits : before.pendingBlock = some { skip := true }) :
    ∃ last, before.PassesTo rest last ∧
      ∀ (alarm : Error) (check : Statement → Build → Build → Prop)
        [∀ statement, DecidableRel (check statement)]
        (run : Runner), (∀ before after, check opening before after) →
        (∀ before after, check closing before after) →
        watchUpcoming alarm check run 2 before = .ok () last := by
  have upcoming : before.upcoming = opening :: (inside ++ closing :: rest) := by
    rw [upcoming]
    simp
  obtain ⟨opened, ranOpening, isOpen, behind, skipped⟩ :=
    @runScoped_skip opening { before with upcoming := inside ++ closing :: rest } _ opens waits
  have behind : opened.upcoming = closing :: rest := behind.trans (drop_left' rfl)
  obtain ⟨closed, ranClosing, passed⟩ :=
    @runScoped_close closing { opened with upcoming := rest } _ closes isOpen
  refine ⟨closed, ?_, fun alarm check _ run checksOpening checksClosing => ?_⟩
  · have taken : before.PassesTo (inside ++ closing :: rest)
        { before with upcoming := inside ++ closing :: rest } := ⟨_, _, _, _, _, _, _, _, rfl⟩
    exact ((taken.trans skipped).advance rest).trans passed
  · refine (watchUpcoming_cons_eq_ok_iff upcoming).2 ⟨opened, ranOpening run, checksOpening _ _, ?_⟩
    exact (watchUpcoming_cons_eq_ok_iff behind).2 ⟨closed, ranClosing run, checksClosing _ _, rfl⟩

end BuildM

variable {after before : Build} {run : Runner}

/-- What is offered after a choice. A body that is not chosen is passed over undisturbed. -/
theorem Build.offers_of_runChosen {build middle : Build} {chosen : Bool}
    {body rest : List Statement} (isBody : IsChoiceBody body)
    (upcoming : build.upcoming = body ++ rest) (ran : runChosen chosen build = .ok () middle)
    (sameUpcoming : after.upcoming = middle.upcoming)
    (sameHooks : after.pendingBlock = middle.pendingBlock) (depth blocks : Nat) :
    after.Offers (runSection depth) chosen body rest ∧
      (chosen = false →
        ∃ last, after.Reaches (NoChoiceAt blocks) depth last ∧ after.PassesTo rest last) := by
  have passed (last : Build) (reaches : after.Reaches (NoChoiceAt blocks) depth last)
      (passes : after.PassesTo rest last) (isPassed : chosen = false) :
      after.Offers (runSection depth) chosen body rest ∧
        (chosen = false →
          ∃ last, after.Reaches (NoChoiceAt blocks) depth last ∧ after.PassesTo rest last) := by
    obtain ⟨steps, marks, watched⟩ := reaches
    refine ⟨?_, fun _ => ⟨last, ⟨steps, marks, watched⟩, passes⟩⟩
    rw [Offers, isPassed]
    exact ⟨steps, last, runUpcoming_of_watchUpcoming watched, passes⟩
  cases isBody with
  | @block opening closing inside opens closes =>
    have next : build.nextIsBlock = true := by
      rw [nextIsBlock, upcoming]
      simp [isOpenBlock, size?, opens]
    cases (runChosen_of_block chosen next).symm.trans ran
    have upcoming : after.upcoming = opening :: (inside ++ [closing]) ++ rest :=
      sameUpcoming.trans upcoming
    cases chosen with
    | true =>
      refine ⟨⟨upcoming, fun _ => ?_⟩, by simp⟩
      rw [sameHooks]
      rfl
    | false =>
      obtain ⟨last, passes, watched⟩ := watchUpcoming_skip opens closes upcoming sameHooks
      refine passed last ⟨2, .io "", watched _ _ _ (fun _ _ isChoice => ?_) fun _ _ isChoice => ?_⟩
        passes rfl
      · rw [opens] at isChoice
        cases isChoice
      · rw [closes] at isChoice
        cases isChoice
  | @single statement noBlock =>
    have next : build.nextIsBlock = false := by
      rw [nextIsBlock, upcoming]
      simpa using noBlock
    cases (runChosen_of_single chosen next).symm.trans ran
    cases chosen with
    | true =>
      refine ⟨⟨sameUpcoming.trans upcoming, fun isBlock => ?_⟩, by simp⟩
      rw [nextIsBlock, sameUpcoming, if_pos rfl] at isBlock
      rw [nextIsBlock] at next
      rw [next] at isBlock
      cases isBlock
    | false =>
      have behind : after.upcoming = rest := by
        rw [sameUpcoming, if_neg Bool.false_ne_true, upcoming]
        rfl
      refine passed after ⟨0, .io "", rfl⟩ ?_ rfl
      rw [← behind]
      exact ⟨_, _, _, _, _, _, _, _, rfl⟩

/-! What is remembered. -/

section Remembered

variable {run : Runner} {statement : Statement} {before after : Build}
  {blocks : Nat}

def Build.SameChoice (blocks : Nat) (before after : Build) : Prop :=
  after.lastChoices.get? blocks = before.lastChoices.get? blocks

def KeepChoice (blocks : Nat) (run : List Statement → BuildM Unit) : Prop :=
  ∀ statements before after, run statements before = .ok () after → before.SameChoice blocks after

/-- Runs lists as before, and takes back the choices of those that fail. -/
def forgetting (run : List Statement → BuildM Unit) (statements : List Statement) : BuildM Unit :=
  fun before =>
    match run statements before with
    | .ok value after => .ok value after
    | .error error after => .error error { after with lastChoices := before.lastChoices }

theorem KeepChoice.final_forgetting (keep : KeepChoice blocks run) (statements : List Statement)
    (before : Build) : before.SameChoice blocks (final (forgetting run statements) before) := by
  unfold final forgetting
  cases outcome : run statements before with
  | ok value after => exact keep statements before after outcome
  | error error after => rfl

theorem Build.Changes.sameChoice {governs : Prop}
    (lists : ∀ statements (before : Build), before.SameChoice blocks (final (run statements) before))
    (changes : Changes run governs False before after) : before.SameChoice blocks after := by
  induction changes with
  | refl => rfl
  | @tail middle last _ change ih =>
    refine Eq.trans ?_ ih
    cases change with
    | quiet same => rw [same.choices]
    | board change => rfl
    | advance _ suffix => rfl
    | enter _ =>
      obtain ⟨_, _, entered, -⟩ := middle.enterBlock_eq
      rw [entered]
    | remember isDeciding _ => exact isDeciding.elim
    | list _ _ statements => exact lists statements middle

/-- A statement that is no choice under this number of blocks leaves the choice alone, where the lists
that it runs do. -/
theorem KeepChoice.runScoped (keep : KeepChoice blocks run)
    (ran : runScoped run statement before = .ok () after)
    (noChoice : NoChoiceAt blocks statement before after) : before.SameChoice blocks after := by
  obtain ⟨middle, inside, choices, -⟩ := runScoped_settles ran
  have same : before.SameChoice blocks middle := by
    cases isBrace : statement.isBrace with
    | true =>
      have kept := (final_runStatement_brace run isBrace (before.enter statement)).2
      rw [final_of_ok inside] at kept
      unfold SameChoice
      rw [kept]
      rfl
    | false =>
      by_cases isChoice : statement.kind = .directive .whenValues
      · obtain ⟨chosen, compared, -, chose, sameChoices, sameBlocks, -⟩ :=
          runStatement_whenValues isChoice inside
        have elsewhere : blocks ≠ compared.depth := by
          rw [depth, sameBlocks]
          exact (noChoice isChoice).symm
        unfold SameChoice
        rw [(runChosen_eq_ok chose).1, rememberChoice, Table.get?_insert, if_neg elsewhere,
          sameChoices]
      · -- lists that fail are taken back, since the statement would fail with them
        have forgets : runStatement (forgetting run) statement (before.enter statement) =
            .ok () middle := by
          refine runStatement_mono (fun statements first last _ ran => ?_) inside
          rw [forgetting, ran]
        have changes := makes_runStatement (forgetting run) isBrace (before.enter statement)
        unfold MakesAt at changes
        rw [final_of_ok forgets, eq_false isChoice] at changes
        have kept := Changes.sameChoice keep.final_forgetting changes
        exact kept
  unfold SameChoice
  rw [choices]
  exact same

theorem KeepChoice.watchUpcoming {alarm : Error} {steps : Nat} (keep : KeepChoice blocks run)
    (watched : watchUpcoming alarm (NoChoiceAt blocks) run steps before = .ok () after) :
    before.SameChoice blocks after := by
  induction steps generalizing before with
  | zero =>
    cases watched
    rfl
  | succ steps ih =>
    cases upcoming : before.upcoming with
    | nil =>
      obtain rfl := (watchUpcoming_nil_eq_ok_iff upcoming).1 watched
      rfl
    | cons statement rest =>
      obtain ⟨middle, ran, noChoice, continued⟩ := (watchUpcoming_cons_eq_ok_iff upcoming).1 watched
      have kept := keep.runScoped ran noChoice
      exact (ih continued).trans kept

theorem keepChoice_watchSection (alarm : Error) (blocks depth : Nat) :
    KeepChoice blocks (watchSection alarm (NoChoiceAt blocks) depth) := by
  induction depth with
  | zero =>
    intro statements before after watched
    cases watched
  | succ depth ih =>
    intro statements before after watched
    obtain ⟨ended, inside, rfl⟩ := watchSection_eq_ok_iff.1 watched
    have kept := ih.watchUpcoming inside
    exact kept

end Remembered

/-- The other branch: its body is chosen if the choice that is remembered went against the first. -/
theorem BuildM.runStatement_otherwiseValues {statement : Statement}
    (isOther : statement.kind = .directive .otherwiseValues)
    (ran : runStatement run statement (before.enter statement) = .ok () after) :
    ∃ chosen prepared, before.lastChoice? = some chosen ∧
      runChosen (!chosen) prepared = .ok () after ∧ prepared.upcoming = before.upcoming := by
  obtain ⟨tokens, prepared, rest, prepares, directed⟩ := runStatement_of_noFeature isOther rfl ran
  obtain ⟨choices, blocks, upcoming⟩ :=
    Makes.same ((@making run False False).ofPrepare statement) prepares
  have other := (lift_eq_ok_iff.1 directed).1
  unfold runOtherwiseValues at other
  rw [bind_of_ok (get_apply prepared)] at other
  obtain ⟨chosen, remembered, other⟩ := bind_orFail_eq_ok_iff.1 other
  rw [lastChoice?, depth, choices, blocks] at remembered
  split at other
  · cases other
  · exact ⟨chosen, prepared, remembered, other, upcoming⟩

/-! Statements without a body. -/

theorem Statement.runsLists_of_noBody {statement : Statement} (noBody : statement.governs = false) :
    statement.runsLists = false := by
  unfold governs at noBody
  unfold runsLists
  cases kind : statement.kind with
  | directive directive =>
    rw [kind] at noBody
    cases directive with
    | repeatBody | iterate | template | includeFile => cases noBody
    | _ => rfl
  | _ => rfl

theorem BuildM.runScoped_congr {statement : Statement} (runsNone : statement.runsLists = false)
    {other : Runner} : runScoped run statement = runScoped other statement := by
  unfold runScoped
  rw [runStatement_congr runsNone run other]

theorem BuildM.runScoped_of_noBody {statement : Statement} (noBrace : statement.isBrace = false)
    (noBody : statement.governs = false) (ran : runScoped run statement before = .ok () after) :
    after.openBlocks = before.openBlocks ∧ after.upcoming = before.upcoming := by
  obtain ⟨middle, inside, -, blocks, upcoming, -⟩ := runScoped_settles ran
  have makes := makes_runStatement run noBrace
  have noChoice : ¬statement.kind = .directive .whenValues := by
    intro isChoice
    rw [governs, isChoice] at noBody
    cases noBody
  rw [noBody, eq_false Bool.false_ne_true, eq_false noChoice] at makes
  obtain ⟨-, sameBlocks, sameUpcoming⟩ := makes.same inside
  exact ⟨blocks.trans sameBlocks, upcoming.trans sameUpcoming⟩

/-- A choice from any state: a statement `choice` whose comparison is `chosen`, with a body behind it.
If the body is chosen it comes next; if not, the run goes on behind it, and nothing of it has been
done. A body is a block, or one statement: of a statement with a body of its own, only the statement
itself is passed over. Where no choice is made on the way under the same number of blocks, the body of
the other branch is passed over if the first one was chosen and comes next if not. No such choice is
made on the way past a body that is not chosen, nor by a chosen statement that neither has a body nor
runs others, nor inside of a block, whatever is run in place there, while the block is open. -/
theorem choice_takes_one_body {depth : Nat} {choice : Statement} {body rest : List Statement}
    {before decided : Build} (isChoice : choice.kind = .directive .whenValues)
    (isBody : Statement.IsChoiceBody body) (upcoming : before.upcoming = choice :: (body ++ rest))
    (ran : runUpcoming (runSection depth) 1 before = .ok () decided) :
    ∃ chosen, choice.comparison? { before with upcoming := body ++ rest } = some chosen ∧
      decided.Offers (runSection depth) chosen body rest ∧
      (∀ {other : Statement} {otherBody later : List Statement} {reached after : Build},
        other.kind = .directive .otherwiseValues → Statement.IsChoiceBody otherBody →
        decided.Reaches (NoChoiceAt before.depth) depth reached → reached.depth = before.depth →
        reached.upcoming = other :: (otherBody ++ later) →
        runUpcoming (runSection depth) 1 reached = .ok () after →
        after.Offers (runSection depth) (!chosen) otherBody later) ∧
      (chosen = false → ∃ reached, decided.Reaches (NoChoiceAt before.depth) depth reached ∧
        reached.depth = before.depth ∧ decided.PassesTo rest reached) ∧
      (∀ {statement : Statement} {reached : Build}, chosen = true → body = [statement] →
        statement.isBrace = false → statement.governs = false →
        runUpcoming (runSection depth) 1 decided = .ok () reached →
        decided.Reaches (NoChoiceAt before.depth) depth reached ∧ reached.depth = before.depth ∧
          reached.upcoming = rest) ∧
      ∀ {reached : Build}, decided.Reaches (Within before.depth) depth reached →
        decided.Reaches (NoChoiceAt before.depth) depth reached := by
  obtain ⟨middle, inside, choices, blocks, sameUpcoming, hooks⟩ :=
    runScoped_settles (runUpcoming_one_eq_ok upcoming ran)
  obtain ⟨chosen, compared, compares, chose, comparedChoices, comparedBlocks, comparedUpcoming⟩ :=
    runStatement_whenValues isChoice inside
  obtain ⟨choseChoices, choseBlocks⟩ := runChosen_eq_ok chose
  have sameDepth : decided.depth = before.depth := by
    rw [Build.depth, blocks, choseBlocks]
    exact congrArg length comparedBlocks
  have remembered : decided.lastChoices.get? before.depth = some chosen := by
    have here : before.depth = compared.depth := congrArg length comparedBlocks.symm
    rw [choices, choseChoices, Build.rememberChoice, Table.get?_insert, if_pos here]
  have stillUpcoming : (compared.rememberChoice chosen).upcoming = body ++ rest := comparedUpcoming
  obtain ⟨offers, passes⟩ := Build.offers_of_runChosen isBody stillUpcoming chose sameUpcoming hooks
    depth before.depth
  refine ⟨chosen, compares, offers, ?_, fun notChosen => ?_, ?_, ?_⟩
  · rintro other otherBody later reached after isOther isOtherBody ⟨steps, alarm, watched⟩
      reachedDepth reachedUpcoming ranOther
    have kept := (keepChoice_watchSection alarm before.depth depth).watchUpcoming watched
    obtain ⟨inner, inside, -, -, sameUpcoming, hooks⟩ :=
      runScoped_settles (runUpcoming_one_eq_ok reachedUpcoming ranOther)
    obtain ⟨last, prepared, isLast, chose, preparedUpcoming⟩ :=
      runStatement_otherwiseValues isOther inside
    have isChosen : last = chosen := by
      have found : reached.lastChoices.get? before.depth = some last := by
        rw [← reachedDepth]
        exact isLast
      rw [kept, remembered] at found
      exact (Option.some.inj found).symm
    rw [← isChosen]
    exact (Build.offers_of_runChosen isOtherBody preparedUpcoming chose sameUpcoming hooks depth 0).1
  · obtain ⟨last, reaches, passed⟩ := passes notChosen
    refine ⟨last, reaches, ?_, passed⟩
    obtain ⟨_, _, _, _, _, _, _, _, rfl⟩ := passed
    exact sameDepth
  · rintro statement reached rfl rfl noBrace noBody ranBody
    obtain ⟨decidedUpcoming, -⟩ := offers
    have ranStatement := runUpcoming_one_eq_ok decidedUpcoming ranBody
    obtain ⟨blocks, upcoming⟩ := runScoped_of_noBody noBrace noBody ranStatement
    refine ⟨⟨1, .io "", ?_⟩, ?_, upcoming⟩
    · refine (watchUpcoming_cons_eq_ok_iff decidedUpcoming).2 ⟨reached, ?_, fun isChoice => ?_, rfl⟩
      · rwa [runScoped_congr (runsLists_of_noBody noBody)]
      · rw [governs, isChoice] at noBody
        cases noBody
    · rw [Build.depth, blocks]
      exact sameDepth
  · rintro reached ⟨steps, alarm, watched⟩
    have weakens (statement : Statement) (first last : Build) :
        Within before.depth statement first last → NoChoiceAt before.depth statement first last :=
      Within.noChoiceAt
    exact ⟨steps, alarm,
      watchUpcoming_mono weakens (fun _ _ _ => watchSection_mono weakens) watched⟩

/-! A chosen block that calls a template with a choice of its own, and the other branch behind it. -/

namespace Chosen

open Nested (statement)

def log (text : String) : Statement :=
  statement (.directive .log) [.literal (.text text)]

def choice (number : Int32) : Statement :=
  statement (.directive .whenValues) [.word "a", .compare .eq, .literal (.int number)]

def body : List Statement :=
  [statement (.openBlock 1) [], statement (.directive .template) [.template "m"],
    statement .closeBlock []]

def other : Statement :=
  statement (.directive .otherwiseValues) []

def start : Build :=
  let environment := (Nested.start.environment.set "a" [.int 1]).defineTemplate
    { name := "m", parameters := [], body := [choice 2, log "x"] }
  { Nested.start with environment, upcoming := choice 1 :: (body ++ [other, log "y"]) }

/-- What is seen behind the choice and behind its body, watched for staying within the block. -/
def observe : Bool :=
  match runUpcoming (runSection 2) 1 start with
  | .error _ _ => false
  | .ok _ decided =>
      match watchUpcoming (.io "") (Within 0) (watchSection (.io "") (Within 0) 2) 3 decided with
      | .error _ _ => false
      | .ok _ reached =>
          reached.depth == 0 &&
          reached.upcoming.map (·.kind) == [.directive .otherwiseValues, .directive .log] &&
          succeeds (runUpcoming (runSection 2) 1 reached)

theorem observe_eq : observe = true := by
  decide +kernel

theorem exists_of_observe : ∃ decided reached after first second,
    runUpcoming (runSection 2) 1 start = .ok () decided ∧
    decided.Reaches (Within 0) 2 reached ∧ reached.depth = 0 ∧ reached.upcoming = [first, second] ∧
    first.kind = .directive .otherwiseValues ∧ second.kind = .directive .log ∧
    runUpcoming (runSection 2) 1 reached = .ok () after := by
  have seen := observe_eq
  unfold observe at seen
  split at seen
  · cases seen
  · next decided ranChoice =>
    split at seen
    · cases seen
    · next reached watched =>
      simp only [Bool.and_eq_true, beq_iff_eq, map_eq_cons_iff, map_eq_nil_iff] at seen
      obtain ⟨⟨depth, first, _, upcoming, isOther, second, _, rfl, isLog, rfl⟩, succeeds⟩ := seen
      obtain ⟨⟨⟩, after, ran⟩ := exists_ok_of_succeeds succeeds
      exact ⟨decided, reached, after, first, second, ranChoice, ⟨3, _, watched⟩, depth, upcoming,
        isOther, isLog, ran⟩

end Chosen

/-- The choice of the template is made under one block more and does not count: the other branch is
passed over. -/
theorem choice_takes_one_body_template :
    ∃ decided reached after other line,
      runUpcoming (runSection 2) 1 Chosen.start = .ok () decided ∧
      decided.Offers (runSection 2) true Chosen.body [Chosen.other, Chosen.log "y"] ∧
      decided.Reaches (Within 0) 2 reached ∧ reached.upcoming = [other, line] ∧
      runUpcoming (runSection 2) 1 reached = .ok () after ∧
      after.Offers (runSection 2) false [line] [] := by
  obtain ⟨decided, reached, after, other, line, ran, within, depth, upcoming, isOther, isLog, ranOther⟩ :=
    Chosen.exists_of_observe
  have isBody : Statement.IsChoiceBody Chosen.body := @Statement.IsChoiceBody.block _ _ [_] rfl rfl
  have isOtherBody : Statement.IsChoiceBody [line] :=
    .single (by simp [isOpenBlock, size?, isLog])
  obtain ⟨chosen, compares, offers, others, -, -, inside⟩ :=
    @choice_takes_one_body 2 _ _ [Chosen.other, Chosen.log "y"] _ _ rfl isBody rfl ran
  have isChosen : (Chosen.choice 1).comparison?
      { Chosen.start with upcoming := Chosen.body ++ [Chosen.other, Chosen.log "y"] } = some true := by
    decide +kernel
  obtain rfl : chosen = true := Option.some.inj (compares.symm.trans isChosen)
  exact ⟨decided, reached, after, other, line, ran, offers, within, upcoming, ranOther,
    others isOther isOtherBody (inside within) depth upcoming ranOther⟩

end ScriptPack
