import ScriptPack.Proofs.DeclaredDefinitions

/-!
Every directive leads from covered states to covered states when its arguments are ordinary. A
definition and a tag also write a name as they read it, which must not look like a reserved one.
-/

namespace ScriptPack

open BuildM Command List Selector View

variable {command : Command}

open Text

namespace Command

variable {declared : List String}

theorem isCovered_of_scores (scores : CoversNames declared command.scores)
    (creates : command.creates = []) : command.IsCovered declared where
  scores := scores
  creates := by simp [creates]

theorem isCovered_raw {text : String} (unmarked : IsUnmarked text.toList) :
    (raw text).IsCovered declared where
  scores := coversText_of_isUnmarked unmarked
  creates := fun name member reserved =>
    not_mem_nil (coversText_of_isUnmarked unmarked name member reserved)

end Command

theorem Selector.isUnmarked_single {selector : Selector} (unmarked : selector.IsUnmarked) :
    selector.single.IsUnmarked := by
  unfold single
  split <;> exact unmarked

/-- The names that a directive writes as it reads them: of the counter that it defines, or of a tag. -/
def Directive.writtenNames (board : Scoreboard) (tokens : List Token) : Directive → List String
  | define => (takeDefinition board tokens).toOption.toList.map (·.1.counter.name)
  | tag => (takeName tokens.tail).toOption.toList.map (·.1)
  | _ => []

namespace ArgumentM

open BuildM (UpholdsUnit)

variable {α β : Type} {known : List String} {tokens : List Token} {step : ArgumentM α}
  {middle result : α → List String → Prop} {reader : List Token → Except Problem (α × List Token)}
  {holds : α → Prop}

/-- On ordinary tokens the step upholds coverage, and the tokens that it leaves are ordinary. -/
def Upholds (known : List String) (step : ArgumentM α) (result : α → List String → Prop) : Prop :=
  ∀ tokens, AreOrdinary tokens → ScriptPack.Upholds known (step.run tokens) fun taken declared =>
    AreOrdinary taken.2 ∧ result taken.1 declared

abbrev Directs (known : List String) (step : ArgumentM Unit) : Prop :=
  Upholds known step fun _ _ => True

theorem Upholds.imp (upholds : Upholds known step middle)
    (implies : ∀ value declared, middle value declared → result value declared) :
    Upholds known step result :=
  fun tokens ordinary => (upholds tokens ordinary).imp fun taken declared _ ⟨rest, holds⟩ =>
    ⟨rest, implies taken.1 declared holds⟩

theorem Upholds.bind {next : α → ArgumentM β} {result : β → List String → Prop}
    (first : Upholds known step middle)
    (second : ∀ value later, known ⊆ later → middle value later → Upholds later (next value) result) :
    Upholds known (step >>= next) result :=
  fun tokens ordinary => (first tokens ordinary).bind
    fun (value, rest) later grows ⟨restOrdinary, holds⟩ =>
      second value later grows holds rest restOrdinary

theorem upholds_lift {step : BuildM α} (upholds : ScriptPack.Upholds known step result) :
    Upholds known (liftM step : ArgumentM α) result := by
  rintro tokens ordinary before ⟨value, rest⟩ after covered knows ran
  obtain ⟨stepped, rfl⟩ := lift_eq_ok_iff.1 ran
  obtain ⟨coveredThen, grows, holds⟩ := upholds covered knows stepped
  exact ⟨coveredThen, grows, ordinary, holds⟩

theorem upholds_pure {value : α} (holds : ∀ declared, known ⊆ declared → result value declared) :
    Upholds known (pure value) result :=
  fun _ ordinary => ScriptPack.upholds_pure fun declared knows => ⟨ordinary, holds declared knows⟩

theorem upholds_fail (problem : Problem) : Upholds known (liftM (fail problem : BuildM α)) result :=
  upholds_lift (BuildM.upholds_fail problem)

theorem upholds_get_bind {next : List Token → ArgumentM β} {result : β → List String → Prop}
    (second : ∀ tokens, AreOrdinary tokens → Upholds known (next tokens) result) :
    Upholds known (get >>= next) result :=
  fun tokens ordinary => second tokens ordinary tokens ordinary

theorem upholds_getThe_bind {next : Build → ArgumentM β} {result : β → List String → Prop}
    (second : ∀ build : Build, build.IsCovered → known ⊆ build.scoreboard.declared →
      Upholds build.scoreboard.declared (next build) result) :
    Upholds known (getThe Build >>= next) result :=
  fun tokens ordinary before _ _ covered knows ran =>
    second before covered knows tokens ordinary covered (Subset.refl _) ran

theorem upholds_read_bind {next : α → ArgumentM β} {result : β × List Token → List String → Prop}
    (second : ∀ value rest, reader tokens = .ok (value, rest) →
      ScriptPack.Upholds known ((next value).run rest) result) :
    ScriptPack.Upholds known ((read reader >>= next).run tokens) result := by
  intro before value after covered knows ran
  obtain ⟨taken, rest, middle, isRead, continued⟩ := bind_eq_ok_iff.1 ran
  obtain ⟨found, rfl⟩ := read_eq_ok isRead
  exact second _ _ found covered knows continued

theorem upholds_read
    (reads : ∀ tokens value rest, AreOrdinary tokens → reader tokens = .ok (value, rest) →
      holds value ∧ AreOrdinary rest) :
    Upholds known (read reader) fun value _ => holds value := by
  intro tokens ordinary
  rw [← bind_pure (read reader)]
  refine upholds_read_bind fun value rest taken => ?_
  obtain ⟨isValue, restOrdinary⟩ := reads tokens value rest ordinary taken
  exact ScriptPack.upholds_pure fun _ _ => ⟨restOrdinary, isValue⟩

theorem upholds_next {view : View α} (sees : view.Sees holds) :
    Upholds known (next view) fun value _ => holds value :=
  upholds_read fun _ _ _ ordinary taken => sees.take ordinary taken

theorem upholds_next? {view : View α} (sees : view.Sees holds) :
    Upholds known (next? view) fun value _ => ∀ found ∈ value, holds found :=
  fun _ ordinary => ScriptPack.upholds_pure fun _ _ => (sees.takeIf ordinary).symm

theorem upholds_isNext (view : View α) : Upholds known (isNext view) fun _ _ => True :=
  upholds_get_bind fun _ _ => upholds_pure fun _ _ => trivial

theorem upholds_position : Upholds known position fun _ _ => True :=
  upholds_read fun _ _ _ ordinary taken => by
    obtain ⟨_, _, _, rfl⟩ := exists_of_takePosition taken
    exact ⟨trivial, ordinary.tail.tail.tail⟩

theorem upholds_name : Upholds known name fun _ _ => True :=
  upholds_read fun _ _ _ ordinary taken => by
    obtain ⟨_, rfl⟩ := exists_of_takeName taken
    exact ⟨trivial, ordinary.tail⟩

theorem upholds_word? (word : String) : Upholds known (word? word) fun _ _ => True := by
  refine fun tokens ordinary => ScriptPack.upholds_pure fun _ _ => ⟨?_, trivial⟩
  dsimp only
  split
  · split
    · exact ordinary.tail
    · exact ordinary
  · exact ordinary

/-! Arguments whose values do not matter. -/

theorem upholds_take (view : View α) : Upholds known (next view) fun _ _ => True :=
  upholds_next (sees_any view)

theorem upholds_take? (view : View α) : Upholds known (next? view) fun _ _ => True :=
  (upholds_next? (sees_any view)).imp fun _ _ _ => trivial

theorem upholds_positionOrHere : Upholds known positionOrHere fun _ _ => True :=
  (upholds_take? _).bind fun _ _ _ _ => (upholds_take? _).bind fun _ _ _ _ =>
    (upholds_take? _).bind fun _ _ _ _ => upholds_pure fun _ _ => trivial

theorem upholds_ofExcept {ε : Type} (problem : ε → Problem) (outcome : Except ε α) :
    Upholds known (liftM (ofExcept problem outcome)) fun _ _ => True :=
  upholds_lift (BuildM.upholds_ofExcept fun _ _ _ _ => trivial)

theorem upholds_orFail (problem : Problem) (found : Option α) :
    Upholds known (liftM (orFail problem found)) fun _ _ => True :=
  upholds_lift (BuildM.upholds_orFail fun _ _ _ _ => trivial)

/-! ## Selections and definitions -/

theorem directs_runSelect : Directs known runSelect :=
  (upholds_next sees_selector).bind fun _ _ _ unmarked =>
    upholds_lift (upholds_select unmarked)

theorem directs_runLimit : Directs known runLimit := by
  refine (upholds_take? _).bind fun count _ _ _ => upholds_lift ?_
  exact upholds_change (fun _ covered _ => { covered with active := covered.active }) fun _ => rfl

theorem directs_runInitialise : Directs known runInitialise := by
  refine upholds_getThe_bind fun build covered _ => upholds_get_bind fun tokens _ => ?_
  have initial : ScriptPack.Upholds build.scoreboard.declared
      (ofExcept id (initialCommands build.scoreboard tokens)) fun commands declared =>
        CoversAll declared commands :=
    BuildM.upholds_ofExcept fun _ found _ grows =>
      (coversAll_initialCommands covered.board found).mono grows
  exact (upholds_lift initial).bind fun _ _ _ isCovered =>
    upholds_lift (upholds_emitBatch isCovered.plain _ _)

theorem directs_runRoutine : Directs known runRoutine := by
  refine (upholds_next? sees_selector).bind fun selector _ _ isSelector => ?_
  refine (upholds_take _).bind fun name _ _ _ => upholds_get_bind fun tokens ordinary => ?_
  have unmarked : (selector.getD .self).IsUnmarked := by
    cases selector with
    | none => exact Build.isUnmarked_self
    | some selector => exact isSelector selector rfl
  have taken {tokens : List Token} (ordinary : AreOrdinary tokens) {known : List String} :
      Directs known (do
        let parameters ← takeParameters [] tokens
        defineRoutine name (selector.getD .self) parameters) :=
    (upholds_lift (upholds_takeParameters (forall_mem_nil _) ordinary)).bind
      fun parameters _ _ covered => upholds_lift (upholds_defineRoutine name unmarked covered)
  refine taken fun token member => ordinary token ?_
  split at member
  · exact mem_cons_of_mem _ member
  · exact member

theorem directs_runResult : Directs known runResult := by
  refine upholds_getThe_bind fun build _ _ => (upholds_orFail _ _).bind fun index _ _ _ => ?_
  refine (upholds_take _).bind fun operand _ _ _ => ?_
  refine (upholds_lift (upholds_resultKind operand)).bind fun kind _ _ plain => ?_
  refine (upholds_lift (upholds_resultCounter index plain)).bind fun result _ _ covered => ?_
  refine (upholds_lift (upholds_counters
    (Counter.upholds_assignOperand (by decide) covered operand))).bind ?_
  exact fun commands _ _ isCovered => upholds_lift (upholds_emitAll isCovered _)

theorem directs_runRecord : Directs known runRecord :=
  (upholds_take _).bind fun _ _ _ _ => upholds_lift (upholds_defineRecord _)

/-- The counter that is defined is not named like a reserved score. -/
theorem upholds_define {board : Scoreboard} (covered : board.IsCovered) (ordinary : AreOrdinary tokens)
    (unmarked : ∀ name ∈ Directive.define.writtenNames board tokens, IsUnmarked name.toList) :
    ScriptPack.Upholds known ((do
      defineCounter (← read (takeDefinition board)) : ArgumentM Unit).run tokens)
      fun _ _ => True := by
  refine upholds_read_bind fun definition rest taken => ?_
  obtain ⟨-, plain, restOrdinary⟩ := takeDefinition_plain covered ordinary taken
  have isName : IsUnmarked definition.counter.name.toList :=
    unmarked _ (by simp [Directive.writtenNames, taken, Except.toOption])
  exact (upholds_lift (upholds_defineCounter isName plain) rest restOrdinary).imp
    fun _ _ _ _ => trivial

/-! ## Commands -/

theorem directs_emit (scores : CoversNames known command.scores) (creates : command.creates = []) :
    Directs known (liftM (emit command)) :=
  upholds_lift (upholds_emit (isCovered_of_scores scores creates))

theorem directs_emitSelected (scores : CoversNames known command.scores)
    (creates : command.creates = []) : Directs known (liftM (emitSelected command)) :=
  upholds_lift (upholds_emitSelected (isCovered_of_scores scores creates))

theorem coversNames_self : CoversNames known (names selfTarget) :=
  coversNames_of_apart (by decide)

theorem acts {command : Command} (forSelf : command.actsForSelf = true) :
    Over Upholding (liftM (emitSelected command)) := by
  intro tokens known
  refine upholding.liftLast (fun known => upholds_emitSelected ?_) tokens known
  refine isCovered_of_scores ?_ (by cases command <;> first | rfl | cases forSelf)
  cases command with
  | teleport target _ | teleportRotated target =>
    rw [actsForSelf, beq_iff_eq] at forSelf
    subst forSelf
    exact coversNames_self
  | setBlock | fill | fillReplace | loadPartOfStructure | summon => exact coversNames_nil
  | _ => cases forSelf

theorem coversNames_render {selector : Selector} (unmarked : selector.IsUnmarked) :
    CoversNames known (names selector.render) :=
  coversText_render unmarked

theorem directs_runRawCommand : Directs known runRawCommand :=
  (upholds_next sees_string).bind fun _ _ _ unmarked =>
    upholds_lift (upholds_emit (isCovered_raw unmarked))

theorem directs_runPrint (everyone : Bool) : Directs known (runPrint everyone) :=
  (upholds_next sees_string).bind fun _ _ _ unmarked =>
    upholds_lift (upholds_showMessage unmarked _ _)

theorem directs_runTitle (place : TitlePlace) (everyone : Bool) :
    Directs known (runTitle place everyone) := by
  have shown {known : List String} (display : Display) : Directs known (do
      let text ← next string
      showMessage text display everyone) :=
    (upholds_next sees_string).bind fun _ _ _ unmarked =>
      upholds_lift (upholds_showMessage unmarked _ _)
  refine (upholds_take? _).bind fun word later _ _ => ?_
  cases word with
  | some word =>
    dsimp only
    split
    · refine (upholds_lift (upholds_audience everyone)).bind fun target _ _ isTarget => ?_
      refine (upholds_take _).bind fun fadeIn _ growsIn _ => ?_
      refine (upholds_take _).bind fun stay _ growsStay _ => ?_
      refine (upholds_take _).bind fun fadeOut _ growsOut _ => directs_emit ?_ rfl
      exact CoversNames.mono isTarget (Subset.trans growsIn (Subset.trans growsStay growsOut))
    · exact shown _
    · exact upholds_fail _
    · exact upholds_fail _
  | none => exact shown _

theorem directs_runGive : Directs known runGive := by
  refine upholds_name.bind fun item _ _ _ => (upholds_take? _).bind fun count _ _ _ => ?_
  refine (upholds_take? _).bind fun data _ _ _ => upholds_get_bind fun tokens _ => ?_
  refine (upholds_ofExcept _ _).bind fun components _ _ _ => ?_
  exact upholds_getThe_bind fun build covered _ => directs_emit (coversNames_render covered.active) rfl

theorem directs_runTeleport : Directs known runTeleport := by
  refine (upholds_next? sees_selector).bind fun destination _ _ isSelector => ?_
  cases destination with
  | some destination =>
    have unmarked := isSelector destination rfl
    exact directs_emitSelected (coversNames_append.2 ⟨coversNames_self, coversNames_render unmarked⟩) rfl
  | none =>
    refine upholds_position.bind fun place _ _ _ => (upholds_take? _).bind fun yaw _ _ _ => ?_
    cases yaw with
    | some yaw => exact (upholds_take? _).bind fun _ _ _ _ => directs_emitSelected coversNames_self rfl
    | none => exact directs_emitSelected coversNames_self rfl

theorem directs_runTeleportHere : Directs known runTeleportHere :=
  (upholds_next sees_selector).bind fun _ _ _ unmarked => upholds_positionOrHere.bind fun _ _ _ _ =>
    directs_emitSelected (coversNames_render unmarked) rfl

theorem directs_runFace : Directs known runFace := by
  refine (upholds_next? sees_selector).bind fun other _ _ isSelector => ?_
  cases other with
  | some other =>
    have unmarked := isUnmarked_single (isSelector other rfl)
    exact directs_emitSelected (coversNames_append.2 ⟨coversNames_self, coversNames_render unmarked⟩) rfl
  | none => exact upholds_position.bind fun _ _ _ _ => directs_emitSelected coversNames_self rfl

theorem directs_runFaceHere : Directs known runFaceHere := by
  refine (upholds_next sees_selector).bind fun selector later _ unmarked => ?_
  -- the tag begins like reserved names do, but it is none
  have faced : CoversNames later (names ("@e[tag=" ++ facedTag ++ ",c=1]")) :=
    coversNames_of_apart (by decide)
  refine upholds_lift (upholds_emitAllSelected ?_ _)
  simp only [coversAll_cons, coversAll_nil, and_true]
  refine ⟨isCovered_of_scores coversNames_self rfl, isCovered_of_scores ?_ rfl,
    isCovered_of_scores coversNames_self rfl⟩
  exact coversNames_append.2 ⟨coversNames_render unmarked,
    coversNames_append.2 ⟨coversNames_self, faced⟩⟩

theorem directs_runSay : Directs known runSay :=
  (upholds_next sees_string).bind fun _ _ _ unmarked =>
    directs_emitSelected (coversText_of_isUnmarked unmarked) rfl

theorem directs_runKill : Directs known runKill := by
  refine (upholds_next? sees_selector).bind fun selector _ _ isSelector => ?_
  refine upholds_getThe_bind fun build covered _ => directs_emit (coversNames_render ?_) rfl
  cases selector with
  | none => exact covered.active
  | some selector => exact isSelector selector rfl

theorem directs_runRemove : Directs known runRemove := by
  have below : CoversAll known [teleport selfTarget
      ⟨.here, .ofRelative (.ofInt (-9999)), .here⟩, .kill selfTarget] := by
    simp only [coversAll_cons, coversAll_nil, and_true]
    exact ⟨isCovered_of_scores coversNames_self rfl, isCovered_of_scores coversNames_self rfl⟩
  refine (upholds_lift (upholds_sharedFile _ below)).bind ?_
  rintro removal later - ⟨covered, creates⟩
  refine (upholds_next? sees_selector).bind fun selector _ grows isSelector => ?_
  have scores := covered.scores.mono grows
  cases selector with
  | some selector =>
    have unmarked := isSelector selector rfl
    exact directs_emit (coversNames_append.2 ⟨coversNames_render unmarked, scores⟩) creates
  | none => exact directs_emitSelected scores creates

theorem coversNames_named {name : String} (unmarked : IsUnmarked name.toList) :
    CoversNames known (names (NullEntity.named name)) := by
  have written : (NullEntity.named name).toList =
      "@e[type=dummy:null,name=".toList ++ '"' :: (name.toList ++ '"' :: "]".toList) := by
    simp [NullEntity.named, NullEntity.identifier]
  refine coversText_of_isUnmarked ?_
  rw [written]
  exact IsUnmarked.append_cons (by decide) (by decide) (unmarked.append_cons (by decide) (by decide))

theorem directs_runDamage : Directs known runDamage := by
  refine (upholds_take _).bind fun amount _ _ _ => (upholds_take? _).bind fun cause _ _ _ => ?_
  refine upholds_getThe_bind fun build covered _ => ?_
  refine (upholds_next? sees_selector).bind fun damager _ _ isSelector => ?_
  have target {known : List String} := @coversNames_render known _ covered.active
  cases damager with
  | some damager =>
    have unmarked := isUnmarked_single (isSelector damager rfl)
    exact directs_emit (coversNames_append.2 ⟨target, coversNames_render unmarked⟩) rfl
  | none =>
    refine (upholds_isNext _).bind fun isPosition _ _ _ => ?_
    dsimp only
    split
    · refine upholds_position.bind fun place _ _ _ => ?_
      refine (upholds_lift (upholding.ofRequireFeature _ _)).bind fun _ later _ _ => ?_
      have damager : CoversNames later (names (NullEntity.named damagerName)) :=
        coversNames_named (by decide)
      refine upholds_lift (upholds_emitAll ?_ _)
      simp only [coversAll_cons, coversAll_nil, and_true]
      exact ⟨isCovered_of_scores coversNames_nil rfl,
        isCovered_of_scores (coversNames_append.2 ⟨target, damager⟩) rfl,
        isCovered_of_scores damager rfl⟩
    · exact directs_emit target rfl

theorem directs_runNullCreate : Directs known runNullCreate :=
  (upholds_take _).bind fun _ _ _ _ => (upholds_take? _).bind fun _ _ _ _ =>
    upholds_positionOrHere.bind fun _ _ _ _ =>
      (upholds_lift (upholding.ofSummonEvent _ _)).bind fun _ _ _ _ =>
        directs_emitSelected coversNames_nil rfl

theorem directs_runNullSingle : Directs known runNullSingle := by
  refine (upholds_next sees_string).bind fun name _ _ unmarked => ?_
  refine (upholds_take? _).bind fun className _ _ _ => upholds_position.bind fun place _ _ _ => ?_
  refine (upholds_lift (upholding.ofSummonEvent _ _)).bind fun event _ _ _ => ?_
  refine upholds_lift (upholds_emitAllSelected ?_ _)
  simp only [coversAll_cons, coversAll_nil, and_true]
  exact ⟨isCovered_of_scores (coversNames_named unmarked) rfl,
    isCovered_of_scores coversNames_nil rfl⟩

theorem directs_runNullRemove : Directs known runNullRemove := by
  refine (upholds_word? _).bind fun everyOne _ _ _ => upholds_getThe_bind fun build covered _ => ?_
  refine directs_emit ?_ rfl
  cases everyOne with
  | true =>
    have apart : ∀ name ∈ names NullEntity.everyOne, ¬IsReservedScore name := by decide
    exact coversNames_of_apart apart
  | false => exact coversNames_render covered.active

theorem directs_runNullClass : Directs known runNullClass := by
  refine upholds_getThe_bind fun build covered _ => (upholds_word? _).bind fun isRemoval _ _ _ => ?_
  have target {known : List String} := @coversNames_render known _ covered.active
  dsimp only
  split
  · exact directs_emit target rfl
  · refine upholds_name.bind fun name _ _ _ => ?_
    refine (upholds_lift (upholding.ofSummonEvent _ _)).bind fun event _ _ _ => ?_
    refine upholds_lift (upholds_emitBatch ?_ _ _)
    intro line member
    obtain ⟨event, -, rfl⟩ := mem_map.1 member
    exact Line.isCovered_plain (isCovered_of_scores target rfl)

theorem directs_runNullEntity : Directs known runNullEntity := by
  refine (upholds_take _).bind fun mode _ _ _ => ?_
  split
  · exact directs_runNullCreate
  · exact directs_runNullSingle
  · exact directs_runNullRemove
  · exact directs_runNullClass
  · exact upholds_fail _

theorem coversNames_tagged {tag : String} (unmarked : IsUnmarked tag.toList) :
    CoversNames known (names ("@e[tag=" ++ tag ++ "]")) := by
  have written : ("@e[tag=" ++ tag ++ "]").toList =
      "@e[tag".toList ++ '=' :: (tag.toList ++ ']' :: []) := by
    simp
  refine coversText_of_isUnmarked ?_
  rw [written]
  exact IsUnmarked.append_cons (by decide) (by decide) (unmarked.append_cons (by decide) (by decide))

theorem upholds_tag (board : Scoreboard) (ordinary : AreOrdinary tokens)
    (unmarked : ∀ name ∈ Directive.tag.writtenNames board tokens, IsUnmarked name.toList) :
    ScriptPack.Upholds known (runTag.run tokens) fun _ _ => True := by
  refine upholds_read_bind fun mode rest modeTaken => upholds_read_bind fun tag last tagTaken => ?_
  obtain ⟨_, rfl⟩ := exists_of_take modeTaken
  have isTag : IsUnmarked tag.toList :=
    unmarked tag (by simp [Directive.writtenNames, tagTaken, Except.toOption])
  obtain ⟨_, rfl⟩ := exists_of_takeName tagTaken
  have lastOrdinary := ordinary.tail.tail
  refine ((?_ : Directs known _) last lastOrdinary).imp fun _ _ _ _ => trivial
  refine upholds_getThe_bind fun build covered _ => ?_
  have target {known : List String} := @coversNames_render known _ covered.active
  dsimp only
  split
  · exact directs_emit target rfl
  · exact directs_emit target rfl
  · refine upholds_lift (upholds_emitAll ?_ _)
    simp only [coversAll_cons, coversAll_nil, and_true]
    exact ⟨isCovered_of_scores (coversNames_tagged isTag) rfl, isCovered_of_scores target rfl⟩
  · exact upholds_fail _

open BuildM in
/-- A directive on ordinary tokens, which writes no names that look like reserved ones. -/
theorem upholds_runDirective {run : Runner}
    (runs : ∀ statements, Upholding (run statements)) {directive : Directive}
    (other : directive ≠ .define ∧ directive ≠ .tag) (ordinary : AreOrdinary tokens) :
    ScriptPack.Upholds known ((runDirective run directive).run tokens) fun _ _ => True := by
  have body : Upholding takeBody := fun _ => upholds_takeBody
  have chosen (chosen : Bool) : Upholding (runChosen chosen) := fun _ => upholds_runChosen chosen
  have directed {directive : Directive} (directs : Directs known (runDirective run directive)) :
      ScriptPack.Upholds known ((runDirective run directive).run tokens) fun _ _ => True :=
    (directs tokens ordinary).imp fun _ _ _ _ => trivial
  cases directive with
  | setVariable => exact upholding.ofRunSetVariable tokens known
  | count up => exact upholding.ofRunCount up tokens known
  | arithmetic op => exact upholding.ofRunArithmetic op tokens known
  | power => exact upholding.ofRunPower tokens known
  | swap => exact upholding.ofRunSwap tokens known
  | whenValues =>
    exact upholding.ofRunWhenValues chosen (fun _ _ => upholds_still fun _ => rfl) tokens known
  | otherwiseValues => exact upholding.liftLast (upholding.ofRunOtherwiseValues chosen) tokens known
  | repeatBody => exact upholding.ofRunRepeat body runs tokens known
  | log => exact upholding.ofRunLog tokens known
  | template => exact upholding.ofRunTemplate body runs upholding_always tokens known
  | includeFile => exact upholding.ofRunInclude runs upholding_always tokens known
  | changeCase style => exact upholding.ofRunChangeCase style tokens known
  | aggregate kind => exact upholding.ofRunAggregate kind tokens known
  | iterate => exact upholding.ofRunIterate body runs tokens known
  | element => exact upholding.ofRunElement tokens known
  | length => exact upholding.ofRunLength tokens known
  | importJson => exact upholding.ofRunImportJson tokens known
  | feature => exact upholding.ofRunFeature tokens known
  | rawCommand => exact directed directs_runRawCommand
  | select => exact directed directs_runSelect
  | print everyone => exact directed (directs_runPrint everyone)
  | define => exact absurd rfl other.1
  | initialise => exact directed directs_runInitialise
  | condition =>
    exact directed (upholds_get_bind fun _ ordinary => upholds_lift (upholds_runCondition ordinary))
  | otherwise => exact directed (upholds_lift upholds_runOtherwise)
  | give => exact directed directs_runGive
  | teleport => exact directed directs_runTeleport
  | teleportHere => exact directed directs_runTeleportHere
  | move => exact upholding.ofRunMove acts tokens known
  | face => exact directed directs_runFace
  | faceHere => exact directed directs_runFaceHere
  | rotate => exact upholding.ofRunRotate acts tokens known
  | block => exact upholding.ofRunBlock acts tokens known
  | fill => exact upholding.ofRunFill acts tokens known
  | scatter => exact upholding.ofRunScatter acts tokens known
  | replace => exact upholding.ofRunReplace acts tokens known
  | kill => exact directed directs_runKill
  | remove => exact directed directs_runRemove
  | title place everyone => exact directed (directs_runTitle place everyone)
  | say => exact directed directs_runSay
  | halt => exact directed (upholds_lift upholds_runHalt)
  | damage => exact directed directs_runDamage
  | nullEntity => exact directed directs_runNullEntity
  | tag => exact absurd rfl other.2
  | limit => exact directed directs_runLimit
  | routine => exact directed directs_runRoutine
  | result => exact directed directs_runResult
  | record => exact directed directs_runRecord

end ArgumentM

end ScriptPack
