import ScriptPack.Proofs.ConditionCommands
import ScriptPack.Proofs.ConditionGrammar
import ScriptPack.Proofs.DeclaredSteps

/-!
Conditions name only scores that are declared. The comparisons that are read from ordinary tokens
are on covered counters and on selectors without reserved names; what they are lowered to, commands
and frames, is covered. Main results: `if` and `else` lead from covered states to covered states.
-/

namespace ScriptPack

open Counter List Scoreboard Selector Text View ScriptPack.Frame

variable {declared later : List String} {chain : List Comparison} {lowered : LoweredChain}

/-! ## Reading -/

section Reading

variable {α : Type} {tokens rest : List Token}

theorem AreOrdinary.of_suffix (ordinary : AreOrdinary tokens) (suffix : rest <:+ tokens) :
    AreOrdinary rest :=
  fun token member => ordinary token (suffix.subset member)

theorem AreOrdinary.tail {token : Token} (ordinary : AreOrdinary (token :: rest)) : AreOrdinary rest :=
  ordinary.of_suffix (suffix_cons token rest)

theorem AreOrdinary.head {token : Token} (ordinary : AreOrdinary (token :: rest)) :
    token.kind.IsOrdinary :=
  ordinary token mem_cons_self

namespace View

/-- A view whose things are of a kind when they are taken from ordinary tokens. -/
def Sees (view : View α) (holds : α → Prop) : Prop :=
  ∀ kind value, kind.IsOrdinary → view.view? kind = some value → holds value

theorem sees_any (view : View α) : view.Sees fun _ => True :=
  fun _ _ _ _ => trivial

theorem sees_string : string.Sees fun text => IsUnmarked text.toList := by
  intro kind text ordinary seen
  unfold string at seen
  dsimp only at seen
  split at seen
  · cases seen
    exact ordinary
  · cases seen

theorem sees_selector : selector.Sees IsUnmarked := by
  intro kind selector ordinary seen
  unfold View.selector at seen
  dsimp only at seen
  split at seen
  · cases seen
    exact ordinary
  · exact isUnmarked_ofText? ordinary seen
  · cases seen

theorem sees_identifier : identifier.Sees fun name => IsName name.toList := by
  intro kind name ordinary seen
  unfold identifier at seen
  dsimp only at seen
  split at seen <;> cases seen <;> exact ordinary

variable {view : View α} {holds : α → Prop} {value : α}

theorem Sees.take (sees : view.Sees holds) (ordinary : AreOrdinary tokens)
    (taken : view.take tokens = .ok (value, rest)) : holds value ∧ AreOrdinary rest := by
  cases tokens with
  | nil => cases taken
  | cons token tail =>
    rw [take] at taken
    split at taken
    · cases taken
      exact ⟨sees _ _ ordinary.head ‹_›, ordinary.tail⟩
    · cases taken

theorem Sees.takeIf (sees : view.Sees holds) (ordinary : AreOrdinary tokens) :
    (∀ value ∈ (view.takeIf tokens).1, holds value) ∧ AreOrdinary (view.takeIf tokens).2 := by
  cases tokens with
  | nil => exact ⟨by simp [takeIf], ordinary⟩
  | cons token tail =>
    rw [takeIf]
    split
    · refine ⟨?_, ordinary.tail⟩
      rintro value ⟨⟩
      exact sees _ _ ordinary.head ‹_›
    · exact ⟨by simp, ordinary⟩

end View

end Reading

/-- The counter of a test is covered, and its selector has no reserved names. -/
def Test.IsCovered (declared : List String) : Test → Prop
  | flag counter => counter.IsCovered declared ∧ counter.kind.isIntegerLike = true
  | value counter _ _ => counter.IsCovered declared
  | self selector | count selector _ _ | some selector => selector.IsUnmarked
  | block _ | positioned _ => True

theorem Test.IsCovered.mono {test : Test}
    (covered : test.IsCovered declared) (grows : declared ⊆ later) : test.IsCovered later := by
  cases test with
  | flag counter => exact ⟨covered.1.mono grows, covered.2⟩
  | value counter op other => exact Counter.IsCovered.mono covered grows
  | self | count | some => exact covered
  | block | positioned => trivial

namespace Comparison

variable {board : Scoreboard} {tokens rest : List Token}

theorem readTest_isCovered (covered : board.IsCovered) (ordinary : AreOrdinary tokens) {test : Test}
    (read : readTest board tokens = .ok (test, rest)) :
    test.IsCovered board.declared ∧ AreOrdinary rest := by
  have restOrdinary : AreOrdinary rest := by
    obtain ⟨token, taken, rfl⟩ := exists_of_readTest read
    exact ordinary.of_suffix (suffix_append (token :: taken) rest)
  refine ⟨?_, restOrdinary⟩
  unfold readTest at read
  split at read
  · cases read
  · split at read
    · split at read
      · cases read
      · rename_i counter found
        have isCovered := covered.get? (get_eq_ok_iff.1 found)
        split at read
        · rename_i isFlag
          cases read
          exact ⟨isCovered, by rw [isFlag.1]; rfl⟩
        · obtain ⟨_, -, read⟩ := exists_ok_of_bind read
          obtain ⟨_, -, read⟩ := exists_ok_of_bind read
          cases read
          exact isCovered
    · rename_i selector isSelector
      cases read
      have head := ordinary.head
      rw [isSelector] at head
      exact head
    · split at read
      · obtain ⟨selected, selectorTaken, read⟩ := exists_ok_of_bind read
        obtain ⟨_, -, read⟩ := exists_ok_of_bind read
        obtain ⟨_, -, read⟩ := exists_ok_of_bind read
        cases read
        exact (sees_selector.take ordinary.tail selectorTaken).1
      · obtain ⟨selected, selectorTaken, read⟩ := exists_ok_of_bind read
        cases read
        exact (sees_selector.take ordinary.tail selectorTaken).1
      · obtain ⟨_, -, read⟩ := exists_ok_of_bind read
        obtain ⟨_, -, read⟩ := exists_ok_of_bind read
        cases read
        trivial
      · obtain ⟨_, -, read⟩ := exists_ok_of_bind read
        cases read
        trivial
      · cases read
    · cases read

theorem readChain_isCovered (covered : board.IsCovered) {negated : Bool} (ordinary : AreOrdinary tokens)
    (read : readChain board negated tokens = .ok chain) :
    ∀ comparison ∈ chain, comparison.test.IsCovered board.declared := by
  by_cases nonempty : chain = []
  · rw [nonempty]
    exact forall_mem_nil _
  · have spelled := spells_of_readChain read nonempty
    clear read nonempty
    induction spelled with
    | negation _ _ ih => exact ih ordinary.tail
    | last found _ => exact forall_mem_singleton.2 (readTest_isCovered covered ordinary found).1
    | joint found _ _ ih =>
      obtain ⟨isTest, after⟩ := readTest_isCovered covered ordinary found
      exact forall_mem_cons.2 ⟨isTest, ih after.tail⟩

end Comparison

/-! ## Lowering -/

/-- What a comparison becomes is covered. -/
theorem Test.IsCovered.isAllowed {test : Test} (covered : test.IsCovered declared) :
    test.IsAllowed (settling declared) IsUnmarked := by
  cases test with
  | flag counter => exact covered.1.name covered.2
  | value counter op other => exact (IsCovered.owns covered).reads
  | self | count | some => exact covered
  | block | positioned => exact Build.isUnmarked_self

theorem Line.Prepares.isCovered {line : Line}
    (prepares : line.Prepares (settling declared) IsUnmarked) : line.IsCovered declared := by
  cases prepares with
  | plain isOn =>
    exact Line.isCovered_plain (coversAll_of_onScores (by decide)
      (forall_mem_singleton.2 isOn) _ mem_cons_self)
  | tagAdd | tagRemove => exact Line.isCovered_plain ⟨coversNames_of_apart (by decide), by simp [Command.creates]⟩
  | count selected settled =>
    -- the tag begins like reserved names do, but it is none
    exact ⟨forall_mem_singleton.2 (isCovered_under selected),
      coversNames_cons.2 ⟨settled.mem, coversNames_of_apart (by decide)⟩, by simp [Command.creates]⟩
  | mark selected settled =>
    exact ⟨forall_mem_singleton.2 (isCovered_under selected),
      isCovered_scoreSet (by decide) settled 1⟩

theorem Frame.Asks.isCovered {frame : Frame}
    (asks : frame.Asks (settling declared) IsUnmarked) : frame.IsCovered declared := by
  cases asks with
  | score range settled => exact isCovered_scoreFrame settled _
  | under selected => exact isCovered_under selected

structure LoweredChain.IsCovered (declared : List String) (lowered : LoweredChain) : Prop where
  setup : CoversLines declared lowered.setup
  setupFrames : ∀ frame ∈ lowered.setupFrames, frame.IsCovered declared
  frames : ∀ frame ∈ lowered.frames, frame.IsCovered declared

theorem LoweredChain.IsCovered.mono
    (covered : lowered.IsCovered declared) (grows : declared ⊆ later) : lowered.IsCovered later where
  setup := covered.setup.mono grows
  setupFrames := fun frame member => (covered.setupFrames frame member).mono grows
  frames := fun frame member => (covered.frames frame member).mono grows

namespace Scoreboard

variable {board : Scoreboard}

theorem IsCovered.keepTemporaries (covered : board.IsCovered) : board.keepTemporaries.IsCovered := by
  unfold Scoreboard.keepTemporaries
  split
  · exact covered
  · exact { covered with }

theorem IsCovered.pushScope (covered : board.IsCovered) : board.pushScope.IsCovered :=
  { covered with }

theorem IsCovered.popScope (covered : board.IsCovered) : board.popScope.IsCovered := by
  unfold Scoreboard.popScope
  split
  · exact covered
  · exact { covered with }

theorem declared_keepTemporaries (board : Scoreboard) :
    board.declared ⊆ board.keepTemporaries.declared := by
  unfold keepTemporaries
  split <;> exact Subset.refl _

theorem declared_popScope (board : Scoreboard) : board.declared ⊆ board.popScope.declared := by
  unfold popScope
  split <;> exact Subset.refl _

end Scoreboard

namespace BuildM

open CounterM Build

variable {known : List String}

theorem upholds_modifyScoreboard {change : Scoreboard → Scoreboard}
    (upheld : ∀ board : Scoreboard, board.IsCovered → known ⊆ board.declared →
      (change board).IsCovered ∧ board.declared ⊆ (change board).declared) :
    UpholdsUnit known (modifyScoreboard change) :=
  upholds_modify fun build covered knows => by
    obtain ⟨boardCovered, grows⟩ := upheld build.scoreboard (Build.IsCovered.board covered) knows
    exact ⟨Build.IsCovered.withBoard covered boardCovered grows, grows⟩

theorem upholds_keepTemporaries : UpholdsUnit known (modifyScoreboard (·.keepTemporaries)) :=
  upholds_modifyScoreboard fun board covered _ =>
    ⟨covered.keepTemporaries, board.declared_keepTemporaries⟩

theorem upholds_temporary_bool : Upholds known (temporary .bool) fun counter declared =>
    counter.IsCovered declared ∧ counter.kind.isIntegerLike = true := by
  refine (upholds_temporary (by simp [CounterKind.IsPlain])).imp ?_
  rintro counter declared - ⟨covered, isBool⟩
  exact ⟨covered, by rw [isBool]; rfl⟩

theorem upholds_of_tallies {α : Type} {step : BuildM α} {result : α → List String → Prop}
    (tallies : ∀ declared, Tallies (Counter.covering declared) step fun value =>
      known ⊆ declared → result value declared) : Upholds known step result := by
  intro before value after covered knows ran
  obtain ⟨covers, grows, holds, same⟩ := (tallies after.scoreboard.declared).of_ok
    (Counter.sound_covering after.scoreboard)
    (fun board covered => ⟨covered.keepTemporaries, board.declared_keepTemporaries⟩)
    (Build.IsCovered.board covered) ran
  refine ⟨?_, grows, holds (Subset.refl _) (Subset.trans knows grows)⟩
  rw [same]
  exact Build.IsCovered.withBoard covered covers grows

theorem upholds_lowerChain (isChain : ∀ comparison ∈ chain, comparison.test.IsCovered known) :
    Upholds known (lowerChain chain) fun lowered declared => lowered.IsCovered declared := by
  refine upholds_get_bind fun build covered knows => upholds_of_tallies fun declared => ?_
  refine (tallies_lowerOnto covering_asks covering_owns covering_owns
    (fun _ => Line.Prepares.isCovered) (fun _ => Asks.isCovered) _ chain).mono ?_
  intro lowered consists grows
  have alignment frame (member : frame ∈ build.active.alignment) :=
    (isCovered_alignment covered.active frame member).mono grows
  obtain ⟨setup, setupFrames, frames⟩ := consists (fun comparison member =>
    ((isChain comparison member).mono (Subset.trans knows grows)).isAllowed)
    ⟨forall_mem_nil _, alignment, alignment⟩
  exact ⟨setup, setupFrames, frames⟩

theorem upholds_emitSetup (covered : lowered.IsCovered known) :
    UpholdsUnit known (emitSetup lowered) := by
  refine upholds_change (fun build isCovered knows => ?_) fun build => ?_
  · have covered := covered.mono knows
    dsimp only
    split
    · exact isCovered
    · split
      · exact isCovered.emitBatchKeeping covered.setup _
      · have framed := isCovered.withFrames covered.setupFrames
        have written := framed.emitBatch covered.setup "compareSetup" false
        have same := quiet_emitBatch
          { build with frames := build.frames ++ lowered.setupFrames } lowered.setup "compareSetup" false
        exact written.setFrames (by rw [same.board]; exact isCovered.frames)
  · dsimp only
    split
    · rfl
    · split
      · exact (build.quiet_emitBatchKeeping _ _).board
      · exact (quiet_emitBatch _ _ _ _).board

/-! ## Bodies under conditions -/

theorem upholds_skipEmptyBody : Upholds known skipEmptyBody fun _ _ => True := by
  refine upholds_get_bind fun build _ _ => ?_
  split
  · have hooked : UpholdsUnit build.scoreboard.declared (modify fun build =>
        (build.pushSelector .self).setHooks { closing := [.popSelector], skip := true }) :=
      upholds_change (fun build covered _ => (covered.pushSelector isUnmarked_self).setHooks
        (by simp [BlockAction.IsCovered])) fun _ => rfl
    exact hooked.bind fun _ _ _ _ => upholds_pure fun _ _ => trivial
  · exact upholds_pure fun _ _ => trivial

theorem upholds_guardNext (covered : lowered.IsCovered known) :
    UpholdsUnit known (guardNext lowered) := by
  refine upholds_get_bind fun build _ knows => ?_
  refine upholds_check fun _ => ?_
  refine (upholds_emitSetup (covered.mono knows)).bind fun _ written growsSetup _ => ?_
  have pushed : UpholdsUnit written (modify (·.pushSelector .self)) :=
    upholds_change (fun _ isCovered _ => isCovered.pushSelector isUnmarked_self) fun _ => rfl
  refine pushed.bind fun _ later growsPushed _ => upholds_get_bind fun state _ growsState => ?_
  have covered := covered.mono (Subset.trans knows (Subset.trans growsSetup
    (Subset.trans growsPushed growsState)))
  dsimp only
  split
  · exact upholds_change (fun build isCovered grows =>
      (isCovered.withFrames (covered.mono grows).frames).of_holdings rfl) fun _ => rfl
  · refine upholds_change (fun build isCovered grows => ?_) fun build => ?_
    · exact (isCovered.withFrames (covered.mono grows).frames).enterBlock.of_holdings rfl
    · exact scoreboard_enterBlock _
  · refine upholds_change (fun build isCovered grows => ?_) fun build => rfl
    have covered := covered.mono grows
    have named : (build.generatedFile "branch" []).2.IsCovered := isCovered.of_holdings rfl
    refine (named.emitLine ⟨covered.frames, Command.isCovered_call _ _⟩).setHooks ?_
    simp [BlockAction.IsCovered, generatedFile, CommandFile.generated]

theorem upholds_runChain (isChain : ∀ comparison ∈ chain, comparison.test.IsCovered known) :
    UpholdsUnit known (runChain chain) := by
  unfold runChain
  refine upholds_check fun _ => ?_
  refine upholds_skipEmptyBody.bind fun skipped later grows _ => ?_
  split
  · exact upholds_pure fun _ _ => trivial
  · have isChain comparison member := (isChain comparison member).mono grows
    exact (upholds_lowerChain isChain).bind fun _ _ _ covered => upholds_guardNext covered

theorem upholds_emitKeeping {line : Line} (covered : line.IsCovered known) :
    UpholdsUnit known (modify (·.emitKeeping line)) :=
  upholds_change (fun _ isCovered grows => isCovered.emitKeeping (covered.mono grows)) fun _ => rfl

theorem upholds_runNegatedChain (isChain : ∀ comparison ∈ chain, comparison.test.IsCovered known) :
    UpholdsUnit known (runNegatedChain chain) := by
  rcases chain with _ | ⟨first, _ | ⟨second, rest⟩⟩
  · exact upholds_fail _
  · have negated : ∀ comparison ∈ [{ first with negated := !first.negated }],
        comparison.test.IsCovered known :=
      forall_mem_singleton.2 (isChain first mem_cons_self)
    exact upholds_runChain negated
  · refine upholds_skipEmptyBody.bind fun skipped later growsSkip _ => ?_
    split
    · exact upholds_pure fun _ _ => trivial
    · refine upholds_get_bind fun build covered growsBuild => ?_
      have alignment := @isCovered_alignment build.scoreboard.declared _ covered.active
      refine (upholds_counters upholds_temporary_bool).bind fun failed flagged growsFlag isFlag => ?_
      refine upholds_keepTemporaries.bind fun _ kept growsKept _ => ?_
      have isFlag : Test.IsCovered kept (.flag failed) := Test.IsCovered.mono isFlag growsKept
      have settled := isFlag.1.name isFlag.2
      have written {frames : List Frame} {declared : List String} (value : Int32)
          (grows : kept ⊆ declared) (around : ∀ frame ∈ frames, frame.IsCovered declared) : UpholdsUnit declared
          (modify (·.emitKeeping ⟨frames, .scoreSet selfTarget failed.name value⟩)) :=
        upholds_emitKeeping ⟨around, isCovered_scoreSet (by decide) (settled.mono grows) value⟩
      have alignment frame member :=
        (alignment frame member).mono (Subset.trans growsFlag growsKept)
      refine (written 1 (Subset.refl _) alignment).bind fun _ set growsSet _ => ?_
      have whole := Subset.trans growsSkip (Subset.trans growsBuild
        (Subset.trans growsFlag (Subset.trans growsKept growsSet)))
      refine (upholds_lowerChain fun comparison member => (isChain comparison member).mono whole).bind ?_
      intro lowered lowerKnown growsLower isLowered
      refine (upholds_emitSetup isLowered).bind fun _ prepared growsSetup _ => ?_
      have isLowered := isLowered.mono growsSetup
      have growsFrom := Subset.trans growsSet (Subset.trans growsLower growsSetup)
      refine (written 0 growsFrom isLowered.frames).bind fun _ last growsLast _ => ?_
      exact upholds_runChain (forall_mem_singleton.2
        (isFlag.mono (Subset.trans growsFrom growsLast)))

theorem upholds_readChain {board : Scoreboard} {tokens : List Token} (covered : board.IsCovered)
    (ordinary : AreOrdinary tokens) (knows : board.declared ⊆ known) :
    Upholds known (ofExcept id (Comparison.readChain board false tokens)) fun chain declared =>
      ∀ comparison ∈ chain, comparison.test.IsCovered declared :=
  upholds_ofExcept fun _ found _ grows comparison member =>
    (Comparison.readChain_isCovered covered ordinary found comparison member).mono
      (Subset.trans knows grows)

theorem upholds_runCondition {tokens : List Token} (ordinary : AreOrdinary tokens) :
    UpholdsUnit known (runCondition tokens) := by
  have remembered : UpholdsUnit known (modify (·.rememberCondition tokens)) :=
    upholds_change (fun _ covered _ => covered.rememberCondition ordinary) fun _ => rfl
  refine remembered.bind fun _ _ _ _ => upholds_keepTemporaries.bind fun _ _ _ _ => ?_
  refine upholds_get_bind fun build covered _ => upholds_check fun _ => ?_
  exact (upholds_readChain covered.board ordinary (Subset.refl _)).bind
    fun _ _ _ isChain => upholds_runChain isChain

theorem upholds_runOtherwise : UpholdsUnit known runOtherwise := by
  refine upholds_get_bind fun build covered _ => ?_
  have remembered : Upholds build.scoreboard.declared (orFail .noConditionBefore build.lastCondition?)
      fun tokens _ => AreOrdinary tokens :=
    upholds_orFail fun _ found _ _ => covered.lastCondition? found
  refine remembered.bind fun tokens later grows ordinary => upholds_check fun _ => ?_
  exact (upholds_readChain covered.board ordinary grows).bind
    fun _ _ _ isChain => upholds_runNegatedChain isChain

end BuildM

end ScriptPack
