import ScriptPack.Proofs.Assembly
import ScriptPack.Proofs.DeclaredConditions

/-!
Definitions, messages and bodies name only scores that are declared. Parameters and results are
declared when they are defined; a counter that a script defines by itself must not be named like a
reserved score, since its declaration is written where it is defined. Bodies that are run in place
uphold coverage if the lists of statements do.
-/

namespace ScriptPack

open List Text

variable {routine : Routine}

/-! ## Reading definitions -/

namespace View

variable {board : Scoreboard} {tokens rest : List Token}

theorem takeKind_plain (covered : board.IsCovered) {kind : Option CounterKind}
    (taken : takeKind board tokens = .ok (kind, rest)) : (kind.getD .int).IsPlain := by
  have isRecord := (takeKind_eq_ok taken).2
  rcases kind with _ | _ | _ | _ | _ | ⟨name, fields⟩
  all_goals try trivial
  obtain ⟨word, record, found, same⟩ := isRecord name fields rfl
  exact same ▸ covered.records _ record found

theorem takeDefinition_plain (covered : board.IsCovered) {definition : Parameter}
    (ordinary : AreOrdinary tokens) (taken : takeDefinition board tokens = .ok (definition, rest)) :
    IsName definition.counter.name.toList ∧ definition.counter.kind.IsPlain ∧ AreOrdinary rest := by
  have restOrdinary := ordinary.of_suffix (suffix_of_takeDefinition taken).1
  obtain ⟨⟨kind, afterKind⟩, kindTaken, taken⟩ := exists_ok_of_bind taken
  obtain ⟨⟨name, afterName⟩, nameTaken, taken⟩ := exists_ok_of_bind taken
  have plain := takeKind_plain covered kindTaken
  have isName := (sees_identifier.take (ordinary.of_suffix (takeKind_eq_ok kindTaken).1) nameTaken).1
  dsimp only at taken
  split at taken
  · obtain ⟨_, -, taken⟩ := exists_ok_of_bind taken
    cases taken
    exact ⟨isName, plain, restOrdinary⟩
  · cases taken
    exact ⟨isName, plain, restOrdinary⟩

end View

/-! ## States -/

namespace Scoreboard

variable {board : Scoreboard}

theorem declare_addCounter (board : Scoreboard) (counter other : Counter) :
    (board.addCounter counter).declare other = (board.declare other).addCounter counter := by
  have one (board : Scoreboard) (objective : String) :
      (board.addCounter counter).declareObjective objective =
        (board.declareObjective objective).addCounter counter := by
    unfold declareObjective addCounter
    dsimp only
    split <;> rfl
  exact foldl_hom (fun board : Scoreboard => board.addCounter counter) one

theorem IsCovered.defineRecord (covered : board.IsCovered) {record : RecordType}
    (plain : record.kind.IsPlain) : (board.defineRecord record).IsCovered :=
  { covered with
    records := by
      intro key other found
      rw [Scoreboard.defineRecord, Table.get?_insert] at found
      split at found
      · cases found
        exact plain
      · exact covered.records key other found }

end Scoreboard

namespace Build

variable {build : Build}

theorem IsCovered.setRoutine (covered : build.IsCovered)
    (isCovered : routine.IsCovered build.scoreboard.declared) (index : Nat) :
    ({ build with routines := build.routines.set index routine } : Build).IsCovered :=
  { covered with
    routines := fun other member => (mem_or_eq_of_mem_set member).elim
      (covered.routines other) fun same => same ▸ isCovered }

theorem IsCovered.addRoutine (covered : build.IsCovered)
    (isCovered : routine.IsCovered build.scoreboard.declared) :
    ({ build with routines := build.routines ++ [routine] } : Build).IsCovered :=
  { covered with
    routines := forall_mem_append.2 ⟨covered.routines, forall_mem_singleton.2 isCovered⟩ }

end Build

namespace BuildM

open CounterM

variable {α : Type} {known : List String} {result : α → List String → Prop} {step : BuildM Unit}
  {last : Build → Build} {counter : Counter} {tokens : List Token} {commands : List Command}
  {parameters : List Parameter} {selector : Selector} {text : String}

/-! ## Steps that write nothing -/

theorem upholds_modifyGet {change : Build → α × Build}
    (upheld : ∀ build : Build, build.IsCovered → known ⊆ build.scoreboard.declared →
      (change build).2.IsCovered ∧ result (change build).1 build.scoreboard.declared)
    (same : ∀ build, (change build).2.scoreboard = build.scoreboard) :
    Upholds known (modifyGet change : BuildM α) result := by
  intro before value after covered knows ran
  cases ran
  obtain ⟨coveredThen, holds⟩ := upheld before covered knows
  have declared : Declaring.declared (change before).2 = before.scoreboard.declared :=
    congrArg Scoreboard.declared (same before)
  rw [declared]
  exact ⟨coveredThen, Subset.refl _, holds⟩

theorem upholds_takeStatement? : Upholds known takeStatement? fun _ _ => True :=
  upholds_of_holdings fun {before value after} ran => by
    unfold takeStatement? at ran
    rw [modifyGet_apply] at ran
    cases upcoming : before.upcoming <;> rw [upcoming] at ran <;> cases ran <;> rfl

theorem upholds_takeBody : Upholds known takeBody fun _ _ => True :=
  upholds_of_holdings fun ran => by
    obtain ⟨_, _, _, ⟨_, _, rfl⟩ | ⟨_, _, _, rfl⟩⟩ := takeBody_eq_ok_iff.1 ran <;> rfl

theorem upholds_checkReachable : UpholdsUnit known checkReachable :=
  upholds_of_holdings fun ran => by
    obtain ⟨_, rfl⟩ := checkReachable_eq_ok ran
    rfl

theorem upholds_always (upholds : UpholdsUnit known step)
    (same : ∀ build, (last build).holdings = build.holdings) :
    UpholdsUnit known (always step last) := by
  intro before value after covered knows ran
  obtain ⟨middle, stepped, rfl⟩ := always_eq_ok_iff.1 ran
  obtain ⟨coveredThen, grows, -⟩ := upholds covered knows stepped
  obtain ⟨coveredLast, growsLast, -⟩ :=
    (upholds_still same : UpholdsUnit known _) coveredThen (Subset.trans knows grows) rfl
  exact ⟨coveredLast, Subset.trans grows growsLast, trivial⟩

theorem upholding_always (upholds : Upholding step)
    (unseen : ∀ build : Build, build.Unseen (last build)) : Upholding (always step last) :=
  fun known => upholds_always (upholds known) fun build => (unseen build).holdings

/-! ## Definitions -/

/-- Recovering from a failure does not matter to steps that succeed. -/
theorem upholds_recover {step : BuildM α} (upholds : Upholds known step result)
    (change : Build → Build) :
    Upholds known (tryCatch step fun error => do
      modify change
      throw error) result :=
  fun _ _ _ covered knows ran => upholds covered knows (recover_eq_ok_iff.1 ran)

theorem upholds_defineCounter {definition : Parameter}
    (unmarked : IsUnmarked definition.counter.name.toList) (plain : definition.counter.kind.IsPlain) :
    UpholdsUnit known (defineCounter definition) := by
  have covered (declared : List String) : definition.counter.IsCovered declared :=
    ⟨plain, fun objective member => .inl (Counter.isUnmarked_objectives unmarked plain objective member)⟩
  have writes (declared : List String) : CoversAll declared definition.counter.defineCommands :=
    Counter.coversAll_defineCommands unmarked plain
  refine (upholds_counters (upholds_define (covered known))).bind fun _ defined _ _ => ?_
  dsimp only
  split
  · exact upholds_emitAll (writes defined) _
  · rename_i default _
    refine upholds_align.bind fun _ later _ _ => ?_
    have assigned : Upholds later
        (counters (Counter.assignOperand selfTarget definition.counter default)) fun commands declared =>
          CoversAll declared commands :=
      upholds_counters (Counter.upholds_assignOperand (by decide) (covered later) default)
    refine (upholds_recover assigned Build.popSelector).bind fun commands last _ isCovered => ?_
    exact (upholds_emitAll (coversAll_append.2 ⟨writes last, isCovered⟩) _).bind
      fun _ _ _ _ => upholds_popSelector

theorem defineDeclared_eq_ok {before after : Build} {value : Unit} (ran : (do
      counters (define counter)
      modifyScoreboard (·.declare counter) : BuildM Unit) before = .ok value after) :
    after = { before with scoreboard := (before.scoreboard.declare counter).addCounter counter } := by
  obtain ⟨⟨⟩, board, defined, ran⟩ := bind_counters_eq_ok_iff.1 ran
  rw [define_eq_ok defined] at ran
  cases ran
  rw [← Scoreboard.declare_addCounter]

theorem upholds_defineDeclared (isName : IsName counter.name.toList) (plain : counter.kind.IsPlain) :
    Upholds known (do
      counters (define counter)
      modifyScoreboard (·.declare counter)) fun _ declared => counter.IsCovered declared := by
  intro before value after covered knows ran
  rw [defineDeclared_eq_ok ran]
  obtain ⟨declared, grows, isCovered⟩ := (Build.IsCovered.board covered).declare isName plain
  exact ⟨Build.IsCovered.withBoard covered (declared.addCounter isCovered) grows, grows, isCovered⟩

theorem coversAll_initialCommands {board : Scoreboard} (covered : board.IsCovered)
    (initial : initialCommands board tokens = .ok commands) :
    CoversAll board.declared commands := by
  fun_induction initialCommands board tokens generalizing commands with
  | case1 =>
    cases initial
    exact coversAll_nil
  | case2 => cases initial
  | case3 => cases initial
  | case4 token rest name others taken counter found ih =>
    cases later : initialCommands board others with
    | error problem =>
      rw [later] at initial
      cases initial
    | ok commands =>
      rw [later] at initial
      cases initial
      exact coversAll_append.2 ⟨Counter.coversAll_initCommands (covered.get? found), ih later⟩

theorem upholds_takeParameters
    (covered : ∀ parameter ∈ parameters, parameter.counter.IsCovered known)
    (ordinary : AreOrdinary tokens) :
    Upholds known (takeParameters parameters tokens) fun parameters declared =>
      ∀ parameter ∈ parameters, parameter.counter.IsCovered declared := by
  induction tokens using WellFounded.induction (measure length).wf
    generalizing parameters known with
  | _ tokens ih =>
    rw [takeParameters]
    split
    · refine upholds_get_bind fun build isCovered knows => ?_
      dsimp only
      split
      · exact upholds_fail _
      · rename_i parameter rest taken
        obtain ⟨isName, plain, restOrdinary⟩ :=
          View.takeDefinition_plain (Build.IsCovered.board isCovered) ordinary taken
        refine upholds_check fun _ => ?_
        have defined := @upholds_defineDeclared build.scoreboard.declared _ isName plain
        rw [← bind_assoc]
        refine defined.bind fun _ later grows isParameter => ?_
        refine ih rest (View.suffix_of_takeDefinition taken).2 (fun other member => ?_) restOrdinary
        obtain earlier | last := mem_append.1 member
        · exact (covered other earlier).mono (Subset.trans knows grows)
        · exact mem_singleton.1 last ▸ isParameter
    · exact upholds_pure fun _ grows parameter member => (covered parameter member).mono grows

theorem upholds_addRoutine (isCovered : routine.IsCovered known) :
    Upholds known (addRoutine routine) fun _ _ => True := by
  refine upholds_modifyGet (fun build covered knows => ⟨?_, trivial⟩) fun build => ?_
  · split
    · exact covered.setRoutine (isCovered.mono knows) _
    · exact covered.addRoutine (isCovered.mono knows)
  · split <;> rfl

theorem upholds_defineRoutine (name : String) (unmarked : selector.IsUnmarked)
    (covered : ∀ parameter ∈ parameters, parameter.counter.IsCovered known) :
    UpholdsUnit known (defineRoutine name selector parameters) := by
  refine upholds_get_bind fun build _ knows => upholds_check fun _ => ?_
  have made : (Routine.make name selector parameters).IsCovered build.scoreboard.declared :=
    ⟨fun parameter member => (covered parameter member).mono knows, by simp [Routine.make]⟩
  refine (upholds_addRoutine made).bind fun index later _ _ => ?_
  refine upholds_change (fun build isCovered _ => isCovered.setHooks ?_) fun _ => rfl
  simp [BlockAction.IsCovered, unmarked]

theorem upholds_resultKind (operand : Operand) :
    Upholds known (resultKind operand) fun kind _ => kind.IsPlain := by
  cases operand with
  | literal literal => exact upholds_orFail fun _ found _ _ => isPlain_ofLiteral? found
  | counter accessor =>
    exact (upholds_counters (upholds_get accessor)).bind fun _ _ _ covered =>
      upholds_pure fun _ _ => covered.plain

/-- The counter for the results of a routine is declared when it is new. -/
theorem upholds_resultCounter (index : Nat) {kind : CounterKind} (plain : kind.IsPlain) :
    Upholds known (resultCounter index kind) fun counter declared => counter.IsCovered declared := by
  intro before value after covered knows ran
  unfold resultCounter at ran
  rw [bind_of_ok (get_apply before)] at ran
  obtain ⟨routine, isRoutine, ran⟩ := bind_orFail_eq_ok_iff.1 ran
  obtain ⟨⟨counter, isNew, changed⟩, isSlot, ran⟩ := bind_orFail_eq_ok_iff.1 ran
  have isCovered := Build.IsCovered.routines covered routine (mem_of_getElem? isRoutine)
  dsimp only at ran
  rw [bind_of_ok (set_apply _ before)] at ran
  unfold Routine.resultSlot? at isSlot
  split at isSlot
  · rename_i result known
    split at isSlot
    · cases isSlot
      cases ran
      exact ⟨Build.IsCovered.setRoutine covered isCovered index, Subset.refl _,
        isCovered.result _ known⟩
    · cases isSlot
  · cases isSlot
    rename_i noResult
    obtain ⟨_, later, defined, returned⟩ := bind_eq_ok_iff.1
      ((congrFun (bind_assoc _ _ _) _).trans ran)
    cases returned
    rw [defineDeclared_eq_ok defined]
    have isName : IsName (Routine.resultName ++ toString index).toList :=
      Scoreboard.isName_numbered (by decide) index
    obtain ⟨declared, grows, isResult⟩ := @Scoreboard.IsCovered.declare _
      (Build.IsCovered.board covered) ⟨Routine.resultName ++ toString index, kind⟩ isName plain
    have defined := Build.IsCovered.withBoard covered (declared.addCounter isResult) grows
    refine ⟨defined.setRoutine ⟨?_, ?_⟩ index, grows, isResult⟩
    · exact fun parameter member => (isCovered.parameters parameter member).mono grows
    · rintro _ ⟨⟩
      exact isResult

theorem upholds_takeFields (count : Nat) {record : RecordType} (plain : record.kind.IsPlain) :
    Upholds known (takeFields count record) fun record _ => record.kind.IsPlain := by
  induction count generalizing record known with
  | zero => exact upholds_pure fun _ _ => plain
  | succ count ih =>
    refine upholds_takeStatement?.bind fun found _ _ _ => ?_
    have present {known : List String} :
        Upholds known (orFail .unfinishedRecord found) fun _ _ => True :=
      upholds_orFail fun _ _ _ _ => trivial
    refine present.bind fun statement _ _ _ => upholds_get_bind fun build covered _ => ?_
    have kinds : Upholds build.scoreboard.declared
        (ofExcept id (View.takeKind build.scoreboard statement.tokens)) fun taken _ =>
          (taken.1.getD .int).IsPlain :=
      upholds_ofExcept fun taken found _ _ =>
        View.takeKind_plain (Build.IsCovered.board covered) found
    refine kinds.bind fun (kind, tokens) later _ isKind => ?_
    have named : Upholds later (ofExcept id (View.identifier.take tokens)) fun _ _ => True :=
      upholds_ofExcept fun _ _ _ _ => trivial
    exact named.bind fun (name, _) _ _ _ => ih (RecordType.isPlain_addField plain isKind name)

theorem upholds_defineRecord (name : String) : UpholdsUnit known (defineRecord name) := by
  refine upholds_get_bind fun build _ _ => upholds_check fun _ => ?_
  refine upholds_takeStatement?.bind fun opening _ _ _ => ?_
  have empty : ({ name } : RecordType).kind.IsPlain := trivial
  refine (upholds_takeFields _ empty).bind fun record _ _ plain => ?_
  refine upholds_takeStatement?.bind fun closing _ _ _ => ?_
  cases closing with
  | none => exact upholds_fail _
  | some statement =>
    refine upholds_check fun _ => upholds_modifyScoreboard fun board covered _ => ?_
    exact ⟨covered.defineRecord plain, Subset.refl _⟩

/-! ## Messages -/

theorem isCovered_display {declared : List String} (display : Display) {target : String}
    (isTarget : CoversText declared target.toList) (isText : CoversText declared text.toList) :
    (display.command target text).IsCovered declared := by
  cases display <;>
    exact ⟨coversNames_append.2 ⟨isTarget, isText⟩, by simp [Display.command, Command.creates]⟩

theorem upholds_audience (everyone : Bool) :
    Upholds known (audience everyone) fun target declared => CoversText declared target.toList := by
  refine upholds_get_bind fun build covered _ => upholds_pure fun _ _ => ?_
  cases everyone with
  | true =>
    have everywhere : IsUnmarked "@a".toList := by decide
    exact coversText_of_isUnmarked everywhere
  | false => exact Selector.coversText_render (Build.IsCovered.active covered)

theorem upholds_showMessage (unmarked : IsUnmarked text.toList) (display : Display)
    (everyone : Bool) : UpholdsUnit known (showMessage text display everyone) := by
  have isSelf (declared : List String) : CoversText declared selfTarget.toList :=
    coversText_of_isUnmarked (by decide)
  refine upholds_get_bind fun build covered _ => ?_
  obtain ⟨setup, shown⟩ :=
    @Message.isCovered_ofText _ (Build.IsCovered.board covered) selfTarget text (by decide) unmarked
  dsimp only
  split
  · have commands := coversAll_append.2 ⟨setup,
      coversAll_cons.2 ⟨isCovered_display display (isSelf _) shown, coversAll_nil⟩⟩
    split
    · have players : ({ base := .players } : Selector).IsUnmarked := by decide
      have framed : UpholdsUnit build.scoreboard.declared (modify fun build =>
          { build with frames := build.frames ++ [Frame.under { base := .players }] }) :=
        upholds_change (fun build covered _ => covered.withFrames
          (forall_mem_singleton.2 (Frame.isCovered_under players))) fun _ => rfl
      exact framed.bind fun _ _ grows _ => upholds_emitAll (commands.mono grows) _
    · exact upholds_emitAllSelected commands _
  · exact (upholds_audience everyone).bind fun target _ grows isTarget =>
      upholds_emit (isCovered_display display isTarget (CoversNames.mono shown grows))

/-! ## Shared files and selections -/

theorem upholds_sharedFile (name : String) (covered : CoversAll known commands) :
    Upholds known (modifyGet (·.sharedFile name commands) : BuildM Command) fun call declared =>
      call.IsCovered declared ∧ call.creates = [] :=
  upholds_modifyGet (fun _ isCovered grows => ⟨isCovered.sharedFile name (covered.mono grows),
    Command.isCovered_call _ _, rfl⟩) fun build => (build.quiet_sharedFile name commands).board

theorem upholds_runHalt : UpholdsUnit known runHalt := by
  have halts : CoversAll known [(CommandFile.generated "halt_execution" []).call] :=
    coversAll_cons.2 ⟨Command.isCovered_call _ _, coversAll_nil⟩
  exact (upholds_sharedFile _ halts).bind fun _ _ _ covered => (upholds_emit covered.1).bind
    fun _ _ _ _ => upholds_still fun _ => rfl

theorem upholds_select (unmarked : selector.IsUnmarked) : UpholdsUnit known (select selector) := by
  refine upholds_change (fun build covered _ => ?_) fun build => ?_
  · split
    · refine covered.setHooks ?_
      simp [BlockAction.IsCovered, unmarked]
    · exact { covered with active := unmarked }
  · split <;> rfl

theorem upholds_runChosen (chosen : Bool) : UpholdsUnit known (runChosen chosen) := by
  refine upholds_change (fun build covered _ => ?_) fun build => ?_
  · split
    · split
      · refine covered.setHooks ?_
        simp [BlockAction.IsCovered, covered.active]
      · exact covered.setHooks (by simp)
    · split
      · exact covered
      · exact covered.of_holdings rfl
  · split
    · split <;> rfl
    · split <;> rfl

end BuildM

end ScriptPack
