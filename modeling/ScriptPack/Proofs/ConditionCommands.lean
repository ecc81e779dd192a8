import ScriptPack.Proofs.Declarations

/-!
Conditions and the commands that they give. A comparison becomes commands that prepare scores and a frame
that tests one or selects entities. Which scores and selectors these name is proved here once, whatever is
known of the counters that are met.
-/

namespace ScriptPack

open BuildM Counter List

open CounterM (Sources Draws)

namespace BuildM

/-- Steps that compute with counters and keep temporaries, with results of a kind. -/
inductive Tallies (sources : Sources) : {α : Type} → BuildM α → (α → Prop) → Prop where
  | pure {α : Type} {value : α} {holds : α → Prop} (isValue : holds value) :
      Tallies sources (Pure.pure value) holds
  | fail {α : Type} {holds : α → Prop} (problem : Problem) :
      Tallies sources (fail problem : BuildM α) holds
  | counters {α : Type} {computation : CounterM α} {holds : α → Prop}
      (draws : Draws sources computation holds) : Tallies sources (counters computation) holds
  | keep : Tallies sources (modifyScoreboard (·.keepTemporaries)) fun _ => True
  | bind {α β : Type} {step : BuildM α} {next : α → BuildM β} {holds : α → Prop}
      {result : β → Prop} (first : Tallies sources step holds)
      (second : ∀ value, Tallies sources (next value) fun last => holds value → result last) :
      Tallies sources (step >>= next) result
  | mono {α : Type} {step : BuildM α} {holds wider : α → Prop}
      (tallies : Tallies sources step holds) (le : ∀ value, holds value → wider value) :
      Tallies sources step wider

variable {sources : Sources}

/-- Nothing but the scoreboard changes, and it does so as computations on counters change it. -/
theorem Tallies.of_ok {α : Type} {step : BuildM α} {result : α → Prop} {holds : Scoreboard → Prop}
    {leads : Scoreboard → Scoreboard → Prop} {last : Scoreboard}
    (tallies : Tallies sources step result) (sound : sources.Sound holds leads last)
    (keeps : ∀ board, holds board → holds board.keepTemporaries ∧ leads board board.keepTemporaries)
    {before after : Build} {value : α} (start : holds before.scoreboard)
    (ran : step before = .ok value after) :
    holds after.scoreboard ∧ leads before.scoreboard after.scoreboard ∧
      (leads after.scoreboard last → result value) ∧
      after = { before with scoreboard := after.scoreboard } := by
  induction tallies generalizing before after with
  | pure isValue =>
    cases ran
    exact ⟨start, sound.refl _, fun _ => isValue, rfl⟩
  | fail problem => cases ran
  | counters draws =>
    obtain ⟨board, computed, rfl⟩ := counters_eq_ok_iff.1 ran
    obtain ⟨held, grown, isValue⟩ := draws.of_ok sound start computed
    exact ⟨held, grown, isValue, rfl⟩
  | keep =>
    cases ran
    obtain ⟨held, grown⟩ := keeps _ start
    exact ⟨held, grown, fun _ => trivial, rfl⟩
  | bind _ _ first second =>
    obtain ⟨between, middle, ranFirst, ranSecond⟩ := bind_eq_ok_iff.1 ran
    obtain ⟨held, grown, isBetween, same⟩ := first start ranFirst
    obtain ⟨heldLast, grownLast, isResult, sameLast⟩ := second between held ranSecond
    refine ⟨heldLast, sound.trans grown grownLast,
      fun ends => isResult ends (isBetween (sound.trans grownLast ends)), ?_⟩
    rw [same] at sameLast
    exact sameLast
  | mono _ le ih =>
    obtain ⟨held, grown, isValue, same⟩ := ih start ran
    exact ⟨held, grown, fun ends => le _ (isValue ends), same⟩

end BuildM

/-! ## Lines and frames -/

/-- The lines by which comparisons are prepared. -/
inductive Line.Prepares (access : Access) (selects : Selector → Prop) : Line → Prop where
  | plain {command : Command} (isOn : command.OnScores selfTarget access) :
      Prepares access selects (.plain command)
  | tagAdd : Prepares access selects (.plain (.tagAdd selfTarget countingTag))
  | tagRemove : Prepares access selects (.plain (.tagRemove selfTarget countingTag))
  | count {selector : Selector} {score : String} (selected : selects selector)
      (writes : access.writes score) : Prepares access selects
        ⟨[.under selector], .scoreAdd ("@e[tag=" ++ countingTag ++ "]") score 1⟩
  | mark {selector : Selector} {score : String} (selected : selects selector)
      (writes : access.writes score) :
      Prepares access selects ⟨[.under selector], .scoreSet selfTarget score 1⟩

theorem Line.Prepares.called?_eq_none {access : Access} {selects : Selector → Prop} {line : Line}
    (prepares : line.Prepares access selects) : line.command.called? = none := by
  cases prepares with
  | plain isOn => exact AllOnScores.areLocal (forall_mem_singleton.2 isOn) _ mem_cons_self
  | _ => rfl

/-- The frames that test comparisons. -/
inductive Frame.Asks (access : Access) (selects : Selector → Prop) : Frame → Prop where
  | score {score : String} (range : Range) (reads : access.reads score) :
      Asks access selects (scoreFrame score range)
  | under {selector : Selector} (selected : selects selector) : Asks access selects (.under selector)

structure LoweredTest.Uses (access : Access) (selects : Selector → Prop) (lowered : LoweredTest) :
    Prop where
  setup : ∀ line ∈ lowered.setup, line.Prepares access selects
  frame : lowered.frame.Asks access selects

structure LoweredChain.Consists (line : Line → Prop) (frame : Frame → Prop) (lowered : LoweredChain) :
    Prop where
  setup : ∀ part ∈ lowered.setup, line part
  setupFrames : ∀ part ∈ lowered.setupFrames, frame part
  frames : ∀ part ∈ lowered.frames, frame part

/-- The scores that the test reads and the selectors that it names are allowed. -/
def Test.IsAllowed (access : Access) (selects : Selector → Prop) : Test → Prop
  | .flag counter => access.reads counter.name
  | .value counter _ _ => access.Reads counter.objectives
  | .self selector => selects { selector with base := .self }
  | .count selector _ _ | .some selector => selects selector
  | .block clause => selects { Selector.self with blockClause := .some clause }
  | .positioned position => selects { Selector.self with offset := .some position }

theorem Test.isAllowed_any (test : Test) : test.IsAllowed .any fun _ => True := by
  cases test <;> first | trivial | exact fun _ _ => trivial

/-! ## Lowering -/

namespace BuildM

variable {sources : Sources} {access : Access} {selects : Selector → Prop}

def Compares (access : Access) (commands : List Command) (score : String) : Prop :=
  AllOnScores selfTarget access commands ∧ access.reads score

theorem tallies_refuseRecord (counter : Counter) :
    Tallies sources (refuseRecord counter) fun _ => counter.kind.isSimple = true := by
  unfold refuseRecord
  cases kind : counter.kind with
  | record name fields => exact .fail _
  | int | time | decimal | bool => exact .pure rfl

theorem tallies_literalNumber (literal : Value) :
    Tallies sources (literalNumber literal) fun _ => True := by
  unfold literalNumber
  split
  · exact .pure trivial
  · cases literal.number? with
    | none => exact .fail _
    | some number => exact .pure trivial

section

variable (asks : ∀ kind : CounterKind, kind.isSimple = true → sources.asked kind)
  (owns : ∀ counter, sources.fresh counter → access.Owns counter.objectives)

include asks owns

theorem tallies_temporary {kind : CounterKind} (whole : kind.isIntegerLike = true) :
    Tallies sources (counters (CounterM.temporary kind)) fun counter =>
      access.Uses counter.name := by
  refine .counters ((Draws.temporary (asks kind ?_)).mono ?_)
  · cases kind <;> first | rfl | cases whole
  · rintro ⟨name, kind⟩ ⟨fresh, rfl⟩
    exact owns _ fresh name (name_mem_objectives whole)

theorem tallies_fixedPoint (counter : Counter) (precision : Nat) :
    Tallies sources (counters (counter.fixedPoint selfTarget precision)) fun filled =>
      access.Reads counter.objectives → counter.kind.isSimple = true →
        Fills selfTarget access filled :=
  .counters ((draws_fixedPoint (asks .int rfl) owns counter precision).mono
    fun _ fills reads simple => fills (ownScores_eq simple ▸ reads))

theorem tallies_compareLiteral (counter : Counter) (literal : Value) :
    Tallies sources (compareLiteral counter literal) fun compared =>
      access.Reads counter.objectives → counter.kind.isSimple = true →
        Compares access compared.1 compared.2.1 := by
  refine (tallies_literalNumber literal).bind fun number => ?_
  dsimp only
  split
  · rename_i isInteger
    exact .pure fun _ reads _ => ⟨allOnScores_nil,
      reads _ (name_mem_objectives (Bool.and_eq_true_iff.1 isInteger).1)⟩
  · refine (tallies_fixedPoint asks owns counter _).bind fun (fixed, commands) => ?_
    exact .pure fun fills _ reads simple => ⟨(fills reads simple).2, (fills reads simple).1.2⟩

theorem tallies_difference (left right : Counter) :
    Tallies sources (difference left right) fun compared =>
      access.Reads left.objectives → left.kind.isSimple = true →
      access.Reads right.objectives → right.kind.isSimple = true →
        Compares access compared.1 compared.2 := by
  unfold difference
  split
  · rename_i areIntegers
    obtain ⟨leftInteger, rightInteger⟩ := Bool.and_eq_true_iff.1 areIntegers
    refine (tallies_temporary asks owns rfl).bind fun result => ?_
    refine .pure fun uses isLeft _ isRight _ => ⟨allOnScores_cons.2 ⟨?_, ?_⟩, uses.2⟩
    · exact .combine none uses.1 (isLeft _ (name_mem_objectives leftInteger))
    · exact forall_mem_singleton.2
        (.combine _ uses.1 (isRight _ (name_mem_objectives rightInteger)))
  · refine (tallies_fixedPoint asks owns left _).bind fun (fixedLeft, leftCommands) => ?_
    refine (tallies_fixedPoint asks owns right _).bind fun (fixedRight, rightCommands) => ?_
    refine .pure fun fillsRight fillsLeft isLeft leftSimple isRight rightSimple => ?_
    obtain ⟨usesLeft, leftOn⟩ := fillsLeft isLeft leftSimple
    obtain ⟨usesRight, rightOn⟩ := fillsRight isRight rightSimple
    exact ⟨allOnScores_append.2 ⟨allOnScores_append.2 ⟨leftOn, rightOn⟩,
      forall_mem_singleton.2 (.combine _ usesLeft.1 usesRight.2)⟩, usesLeft.2⟩

theorem tallies_lowerFilter (selector : Selector) (negated : Bool) :
    Tallies sources (lowerFilter selector negated) fun lowered =>
      selects selector → lowered.Uses access selects := by
  cases negated with
  | true =>
    refine (tallies_temporary asks owns rfl).bind fun mark => Tallies.keep.bind fun _ => ?_
    refine .pure fun _ uses selected => ⟨?_, .score _ uses.2⟩
    exact forall_mem_cons.2 ⟨.plain (.set 0 uses.1), forall_mem_singleton.2 (.mark selected uses.1)⟩
  | false => exact .pure fun selected => ⟨forall_mem_nil _, .under selected⟩

variable (knows : ∀ counter, sources.found counter → access.Owns counter.objectives)

include knows

theorem tallies_lowerValue (counter : Counter) (op : CompareOp) (other : Operand) :
    Tallies sources (lowerValue counter op other) fun lowered =>
      access.Reads counter.objectives → lowered.Uses access selects := by
  have kept (commands : List Command) (objective : String) (value : Int32) : Tallies sources (do
      if !commands.isEmpty then modifyScoreboard (·.keepTemporaries)
      return { setup := commands.map .plain, frame := scoreFrame objective (rangeFor op value) :
        LoweredTest })
      fun lowered => Compares access commands objective → lowered.Uses access selects := by
    have finished (compares : Compares access commands objective) : LoweredTest.Uses access selects
        { setup := commands.map .plain, frame := scoreFrame objective (rangeFor op value) } :=
      ⟨forall_mem_map.2 fun command member => .plain (compares.1 command member),
        .score _ compares.2⟩
    split
    · exact Tallies.keep.bind fun _ => .pure fun _ => finished
    · exact .pure finished
  refine (tallies_refuseRecord counter).bind fun _ => ?_
  cases other with
  | literal literal =>
    refine (tallies_compareLiteral asks owns counter literal).bind ?_
    rintro ⟨commands, objective, value⟩
    exact (kept commands objective value).mono fun _ uses compares simple reads =>
      uses (compares reads simple)
  | counter accessor =>
    refine (Tallies.counters (.get accessor)).bind fun other => ?_
    refine (tallies_refuseRecord other).bind fun _ => ?_
    refine (tallies_difference asks owns counter other).bind ?_
    rintro ⟨commands, objective⟩
    exact (kept commands objective 0).mono fun _ uses compares otherSimple found simple reads =>
      uses (compares reads simple (knows other found).reads otherSimple)

theorem tallies_lowerCount (selector : Selector) (op : CompareOp) (other : Operand) :
    Tallies sources (lowerCount selector op other) fun lowered =>
      selects selector → lowered.Uses access selects := by
  refine (tallies_temporary asks owns rfl).bind fun total => Tallies.keep.bind fun _ => ?_
  have counted (uses : access.Uses total.name) (selected : selects selector) : ∀ line ∈ [
      .plain (.scoreSet selfTarget total.name 0),
      .plain (.tagAdd selfTarget countingTag),
      ⟨[.under selector], .scoreAdd ("@e[tag=" ++ countingTag ++ "]") total.name 1⟩,
      .plain (.tagRemove selfTarget countingTag)], Line.Prepares access selects line := by
    simp only [forall_mem_cons]
    exact ⟨.plain (.set 0 uses.1), .tagAdd, .count selected uses.1, .tagRemove, forall_mem_nil _⟩
  cases other with
  | literal literal =>
    exact (tallies_literalNumber literal).bind fun _ => .pure fun _ _ uses selected =>
      ⟨counted uses selected, .score _ uses.2⟩
  | counter accessor =>
    refine (Tallies.counters (.get accessor)).bind fun other => ?_
    split
    · exact (Tallies.fail _).bind fun _ => .pure fun (impossible : False) => impossible.elim
    · rename_i whole
      refine .pure fun found _ uses selected => ⟨forall_mem_append.2 ⟨counted uses selected,
        forall_mem_singleton.2 (.plain (.combine _ uses.1 ?_))⟩, .score _ uses.2⟩
      exact (knows other found _ (name_mem_objectives (by simpa using whole))).2

theorem tallies_lowerTest (selects : Selector → Prop) (comparison : Comparison) :
    Tallies sources (lowerTest comparison) fun lowered =>
      comparison.test.IsAllowed access selects → lowered.Uses access selects := by
  obtain ⟨test, negated⟩ := comparison
  cases test with
  | flag counter => exact .pure fun reads => ⟨forall_mem_nil _, .score _ reads⟩
  | value counter op other => exact tallies_lowerValue asks owns knows _ _ _
  | self selector => exact tallies_lowerFilter asks owns _ _
  | count selector op other => exact tallies_lowerCount asks owns knows _ _ _
  | some selector =>
    exact tallies_lowerCount asks owns knows selector (if negated then .lt else .ge) (.literal (.int 1))
  | block clause => exact tallies_lowerFilter asks owns _ _
  | positioned position =>
    cases negated with
    | true => exact .fail _
    | false => exact .pure fun selected => ⟨forall_mem_nil _, .under selected⟩

theorem tallies_lowerOnto {line : Line → Prop} {frame : Frame → Prop}
    (lines : ∀ part, Line.Prepares access selects part → line part)
    (frames : ∀ part, Frame.Asks access selects part → frame part) (lowered : LoweredChain)
    (chain : List Comparison) :
    Tallies sources (lowerOnto lowered chain) fun result =>
      (∀ comparison ∈ chain, comparison.test.IsAllowed access selects) →
      lowered.Consists line frame → result.Consists line frame := by
  induction chain generalizing lowered with
  | nil => exact .pure fun _ consists => consists
  | cons comparison rest ih =>
    refine (tallies_lowerTest asks owns knows selects comparison).bind fun part => (ih _).mono ?_
    intro result continues uses allowed consists
    obtain ⟨first, others⟩ := forall_mem_cons.1 allowed
    have isFrame := forall_mem_singleton.2 (frames _ (uses first).frame)
    refine continues others ⟨forall_mem_append.2 ⟨consists.setup, fun part member =>
      lines part ((uses first).setup part member)⟩, forall_mem_append.2 ⟨consists.setupFrames, ?_⟩,
      forall_mem_append.2 ⟨consists.frames, isFrame⟩⟩
    split
    · exact isFrame
    · exact forall_mem_nil _

end

/-- Preparing a chain calls no files. -/
theorem tallies_lowerOnto_any (lowered : LoweredChain) (chain : List Comparison) :
    Tallies .any (lowerOnto lowered chain) fun result =>
      AreLocalLines lowered.setup → AreLocalLines result.setup := by
  have tallies := @tallies_lowerOnto .any .any (fun _ => True) (fun _ _ => trivial)
    (fun _ _ => Access.owns_any) (fun _ _ => Access.owns_any) (·.command.called? = none)
    (fun _ => True) (fun _ => Line.Prepares.called?_eq_none) (fun _ _ => trivial) lowered chain
  exact tallies.mono fun _ consists locals => (consists (fun comparison _ =>
    comparison.test.isAllowed_any) ⟨locals, fun _ _ => trivial, fun _ _ => trivial⟩).setup

end BuildM

end ScriptPack
