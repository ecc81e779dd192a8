import ScriptPack.Proofs.ChainEffects

/-!
Steps below the directives, taken apart into effects: taking statements that follow, running bodies
and included files in place, sharing files, and defining counters, routines and results.
-/

namespace ScriptPack

open Build Counter List

variable {commands : List Command}

/-! Commands that call no files. -/

theorem Counter.areLocal_defineCommands (counter : Counter) : AreLocal counter.defineCommands :=
  forall_mem_map.2 fun _ _ => rfl

theorem Counter.areLocal_initCommands (counter : Counter) : AreLocal counter.initCommands :=
  forall_mem_map.2 fun _ _ => rfl

theorem BuildM.areLocal_initialCommands {board : Scoreboard} {tokens : List Token}
    (read : initialCommands board tokens = .ok commands) : AreLocal commands := by
  fun_induction initialCommands board tokens generalizing commands with
  | case1 =>
    cases read
    exact areLocal_nil
  | case2 | case3 => cases read
  | case4 token rest name others taken counter found ih =>
    cases continued : initialCommands board others with
    | error problem =>
      rw [continued] at read
      cases read
    | ok later =>
      rw [continued] at read
      cases read
      exact areLocal_append.2 ⟨counter.areLocal_initCommands, ih continued⟩

namespace Build

theorem sharedFile_onto (build : Build) (ground : Ground) (name : String) (commands : List Command) :
    (build.onto ground).sharedFile name commands =
      ((build.sharedFile name commands).1, (build.sharedFile name commands).2.onto ground) := by
  unfold sharedFile
  have session : (build.onto ground).session = build.session := rfl
  rw [session]
  dsimp only
  split <;> rfl

theorem callable_sharedFile (build : Build) (name : String) (commands : List Command) :
    (build.sharedFile name commands).2.Callable (CommandFile.generatedPath name) := by
  refine .inr ⟨name, ?_, rfl⟩
  unfold sharedFile Session.reserveFile
  dsimp only
  split
  · next isReserved => exact contains_iff_mem.1 isReserved
  · exact mem_cons_self

theorem addRoutine_onto (build : Build) (ground : Ground) (routine : Routine) :
    (build.onto ground).addRoutine routine =
      ((build.addRoutine routine).1, (build.addRoutine routine).2.onto ground) := by
  unfold addRoutine
  have found : (build.onto ground).findRoutine? routine.name = build.findRoutine? routine.name := rfl
  rw [found]
  split <;> rfl

/-- Whether a counter with a default is defined without a command, while `@s` does not name the
selected entities that shall be given it. -/
def definesSilently (build : Build) (definition : Parameter) : Bool :=
  build.active.needsAlign && definition.counter.defineCommands.isEmpty &&
    match definition.default, CounterM.define definition.counter build.scoreboard with
    | some default, .ok _ declared =>
        match assignOperand selfTarget definition.counter default declared with
        | .ok commands _ => commands.isEmpty
        | .error _ _ => false
    | _, _ => false

/-- Whether a counter is assigned without a command, while `@s` does not name the selected entities
whose counter it is. -/
def assignsSilently (build : Build) (assignment : Assignment) : Bool :=
  build.active.needsAlign &&
    match assignment.commands build.scoreboard with
    | .ok commands _ => commands.isEmpty
    | .error _ _ => false

end Build

namespace BuildM

variable {α β : Type} {mirror : Mirror} {before after : Build} {step other : BuildM Unit}
  {name : String}

theorem follows_always {last : Build → Build} (follows : Follows mirror step other)
    (aside : ∀ build : Build, build.Aside (last build))
    (same : ∀ build, (last build).upcoming = build.upcoming ∧
      (last build).unreachable = build.unreachable)
    (mirrored : ∀ build : Build, last (build.onto mirror.ground) = (last build).onto mirror.ground) :
    Follows mirror (always step last) (always other last) := by
  intro before value after run
  obtain ⟨middle, ran, rfl⟩ := always_eq_ok_iff.1 run
  obtain ⟨middle, trace, rfl, follow⟩ := follows before () middle ran
  have lastly : mirror.Trace middle (last middle) :=
    .of_effects (.aside (aside middle) (same middle).1 (same middle).2)
  refine ⟨_, trace.trans lastly, rfl, fun followed => ?_⟩
  exact always_eq_ok_iff.2 ⟨_, follow (followed.left lastly), (mirrored middle).symm⟩

theorem follows_section (statements : List Statement) :
    Follows mirror (mirror.run statements) (mirror.follow statements) := by
  rintro before ⟨⟩ after run
  refine ⟨after, .single (.inr ⟨statements, run⟩), rfl, fun followed => ?_⟩
  exact followed statements before after .refl run .refl

/-! Statements that follow. -/

theorem follows_takeStatement? : Follows mirror takeStatement? takeStatement? := by
  intro before
  apply followsAt_modifyGet
  · apply Relation.ReflTransGen.single
    split
    · exact .aside (.refl before) (suffix_refl _) rfl
    · next statement rest upcoming =>
      refine .aside (.of_board rfl rfl) ?_ rfl
      rw [upcoming]
      exact suffix_cons statement rest
  · have upcoming : (before.onto mirror.ground).upcoming = before.upcoming := rfl
    rw [upcoming]
    split <;> rfl

theorem follows_takeBody : Follows mirror takeBody takeBody := by
  intro before
  apply followsAt_of_effects
  have kept {rest : List Statement} (shorter : rest <:+ before.upcoming) :
      Effects mirror.mayLeak before { before with upcoming := rest } :=
    .single (.aside (.of_board rfl rfl) shorter rfl)
  intro body after run
  obtain ⟨first, rest, next, ends⟩ := takeBody_eq_ok_iff.1 run
  refine ⟨?_, takeBody_eq_ok_iff.2 ⟨first, rest, next, ?_⟩⟩
  · have shorter : rest <:+ before.upcoming := next ▸ suffix_cons first rest
    obtain ⟨-, -, rfl⟩ | ⟨_, -, -, rfl⟩ := ends
    · exact kept shorter
    · exact kept ((drop_suffix _ _).trans shorter)
  · obtain ⟨isSize, rfl, rfl⟩ | ⟨size, isSize, rfl, rfl⟩ := ends
    · exact .inl ⟨isSize, rfl, rfl⟩
    · exact .inr ⟨size, isSize, rfl, rfl⟩

theorem ends_runChosen (chosen : Bool) :
    Ends mirror .plain (runChosen chosen) (runChosen chosen) := by
  intro before
  have next : (before.onto mirror.ground).nextIsBlock = before.nextIsBlock := rfl
  by_cases isBlock : before.nextIsBlock = true
  · apply endsAt_modify
    · rw [if_pos isBlock]
      split
      · exact .select _ isBlock
      · exact .skip isBlock
    · rw [next, if_pos isBlock, if_pos isBlock]
      cases chosen <;> rfl
  · apply LeadsAt.ends
    apply followsAt_modify
    · rw [if_neg isBlock]
      split
      · exact .refl
      · exact .single (.aside (.of_board rfl rfl) (drop_suffix _ _) rfl)
    · rw [next, if_neg isBlock, if_neg isBlock]
      cases chosen <;> rfl

theorem ends_select (selector : Selector) :
    Ends mirror .plain (select selector) (select selector) := by
  intro before
  have next : (before.onto mirror.ground).nextIsBlock = before.nextIsBlock := rfl
  by_cases isBlock : before.nextIsBlock = true
  · apply endsAt_modify
    · rw [if_pos isBlock]
      exact .select selector isBlock
    · rw [next, if_pos isBlock, if_pos isBlock]
      rfl
  · apply LeadsAt.ends
    apply followsAt_modify
    · rw [if_neg isBlock]
      exact .aside (.of_board rfl rfl) rfl rfl
    · rw [next, if_neg isBlock, if_neg isBlock]
      rfl

/-! Bodies and files that are run in place. -/

theorem follows_repeatBody (tracker : Option String) (body : List Statement) (count index : Nat) :
    Follows mirror (repeatBody mirror.run tracker body count index)
      (repeatBody mirror.follow tracker body count index) := by
  induction count generalizing index with
  | zero => exact follows_pure _
  | succ count ih =>
    cases tracker with
    | none =>
      apply (follows_section body).bind
      exact fun _ => ih _
    | some name =>
      apply Leads.bind (following.ofSetVariable _ _)
      intro _
      apply (follows_section body).bind
      exact fun _ => ih _

theorem follows_iterateBody (name : String) (body : List Statement) (values : List Value) :
    Follows mirror (iterateBody mirror.run name body values)
      (iterateBody mirror.follow name body values) := by
  induction values with
  | nil => exact follows_pure _
  | cons value rest ih =>
    apply Leads.bind (following.ofSetVariable _ _)
    intro _
    apply (follows_section body).bind
    exact fun _ => ih

theorem follows_withBindings (bindings : List (String × List Value))
    (follows : Follows mirror step other) :
    Follows mirror (withBindings bindings step) (withBindings bindings other) := by
  intro before
  apply leadsAt_get
  refine Leads.bind (follows_modifyVariables _) (fun _ => ?_) before
  exact follows_always follows (fun _ => .of_board rfl rfl) (fun _ => ⟨rfl, rfl⟩) fun _ => rfl

theorem follows_callTemplate (name : String) (tokens : List Token) :
    Follows mirror (callTemplate mirror.run name tokens) (callTemplate mirror.follow name tokens) := by
  intro before
  apply leadsAt_get
  refine Leads.bind (follows_orFail _ _) (fun template => ?_) before
  apply Leads.bind (following.ofTemplateArguments _ _)
  intro bindings
  exact follows_withBindings bindings (follows_section _)

theorem follows_includeScript (file : String) :
    Follows mirror (includeScript mirror.run file) (includeScript mirror.follow file) := by
  apply Leads.bind (following.ofFindFile _)
  intro path before
  apply leadsAt_get
  apply LeadsAt.check
  refine Leads.bind (following.ofScriptStatements _ _) (fun statements => ?_) before
  apply Leads.bind
  · exact follows_modify (fun _ => .of_board rfl rfl) (fun _ => ⟨rfl, rfl⟩) fun _ => rfl
  · intro _
    exact follows_always (follows_section _) (fun _ => .of_board rfl rfl) (fun _ => ⟨rfl, rfl⟩) fun _ => rfl

/-! Shared files, counters, routines and messages. -/

theorem followsAt_sharedFile (calls : ∀ command ∈ commands, ∀ path, command.called? = some path →
      path = CommandFile.generatedPath name) :
    FollowsAt mirror before (modifyGet (·.sharedFile name commands))
      (modifyGet (·.sharedFile name commands)) := by
  refine followsAt_modifyGet ?_ (sharedFile_onto _ _ _ _)
  cases isReserved : before.session.sharedFiles.contains name with
  | false => exact .single (.share isReserved calls)
  | true =>
    have same : (before.sharedFile name commands).2 = before := by
      unfold sharedFile Session.reserveFile
      rw [if_pos isReserved]
      rfl
    rw [same]
    exact .refl

theorem callable_of_sharedFile {call : Command} {middle : Build}
    (ran : (modifyGet (·.sharedFile name commands) : BuildM Command) before = .ok call middle)
    {path : String} (called : call.called? = some path) : middle.Callable path := by
  rw [modifyGet_apply] at ran
  cases ran
  cases called
  exact callable_sharedFile _ _ _

theorem ends_runHalt : Ends mirror .halt runHalt runHalt := by
  intro before
  apply (followsAt_sharedFile (forall_mem_singleton.2 ?_)).bind
  · intro call middle ran
    apply (followsAt_emit fun path called => callable_of_sharedFile ran called).bind
    intro _ later _
    exact endsAt_modify (.halt later) rfl
  · rintro path ⟨⟩
    rfl

theorem defineDefault_eq_ok_iff {counter : Counter} {default : Operand} {word : String}
    {value : Unit} :
    (do
      modify align
      let commands ← tryCatch (counters (assignOperand selfTarget counter default))
        fun error => do
          modify popSelector
          throw error
      emitAll (counter.defineCommands ++ commands) word
      modify popSelector : BuildM Unit) before = .ok value after ↔
      ∃ commands board, assignOperand selfTarget counter default before.scoreboard =
          .ok commands board ∧
        after = ({ before with scoreboard := board,
                               frames := before.frames ++ before.active.alignment } : Build).emitBatch
          ((counter.defineCommands ++ commands).map .plain) word false := by
  have aligned (board : Scoreboard) : ({ before.align with scoreboard := board } : Build) =
      ({ before with scoreboard := board } : Build).align := by
    unfold align
    dsimp only
    split <;> rfl
  have sameBoard : before.align.scoreboard = before.scoreboard := by
    unfold align
    split <;> rfl
  have written (board : Scoreboard) (lines : List Line) :
      (({ before.align with scoreboard := board } : Build).emitBatch lines word false).popSelector =
        ({ before with scoreboard := board,
                       frames := before.frames ++ before.active.alignment } : Build).emitBatch
          lines word false := by
    rw [aligned, popSelector_emitBatch_align]
  rw [bind_of_ok (modify_apply _ before)]
  constructor
  · intro run
    obtain ⟨commands, middle, ran, continued⟩ := bind_eq_ok_iff.1 run
    obtain ⟨board, computed, rfl⟩ := counters_eq_ok_iff.1 (recover_eq_ok_iff.1 ran)
    cases continued
    rw [sameBoard] at computed
    exact ⟨commands, board, computed, written board _⟩
  · rintro ⟨commands, board, computed, rfl⟩
    rw [← sameBoard] at computed
    rw [bind_of_ok (recover_eq_ok_iff.2 (counters_of_ok computed)), ← written]
    rfl

theorem followsAt_defineCounter {definition : Parameter}
    (silent : before.definesSilently definition = true → mirror.mayLeak) :
    FollowsAt mirror before (defineCounter definition) (defineCounter definition) := by
  obtain ⟨counter, default⟩ := definition
  apply (follows_counters (@CounterM.Draws.define .any counter trivial) before).bind
  intro _ middle ran
  cases default with
  | none => exact follows_emitAll counter.areLocal_defineCommands _ _
  | some default =>
    apply followsAt_of_effects
    intro value after run
    obtain ⟨commands, board, computed, rfl⟩ := defineDefault_eq_ok_iff.1 run
    obtain ⟨grows, locals⟩ := (yields_assignOperand _ _ _).of_ok computed
    constructor
    · have declares : middle.Aside { middle with scoreboard := board } := ⟨rfl, grows⟩
      refine .head (.aside declares (suffix_refl _) rfl) ?_
      refine @effects_emitBatch mirror.mayLeak { middle with scoreboard := board } _
        middle.active.alignment _ false
        ((areLocal_append.2 ⟨counter.areLocal_defineCommands, locals⟩).calls _) ?_
      intro isEmpty
      obtain ⟨noDeclaration, rfl⟩ := append_eq_nil_iff.1 (map_eq_nil_iff.1 isEmpty)
      obtain ⟨declared, defines, rfl⟩ := counters_eq_ok_iff.1 ran
      by_cases needsAlign : before.active.needsAlign = true
      · refine .inr (silent ?_)
        simp [definesSilently, needsAlign, noDeclaration, defines, computed]
      · refine .inl ?_
        unfold Selector.alignment
        exact if_neg needsAlign
    · refine defineDefault_eq_ok_iff.2 ⟨commands, board, computed, ?_⟩
      rw [← emitBatch_onto]
      rfl

theorem ends_defineRoutine (name : String) (selector : Selector) (parameters : List Parameter) :
    Ends mirror .routine (defineRoutine name selector parameters)
      (defineRoutine name selector parameters) := by
  intro before value after run
  have defined {build : Build} (isBlock : build.nextIsBlock = true) :
      defineRoutine name selector parameters build =
        .ok () ((build.addRoutine (.make name selector parameters)).2.setHooks
          { opening := [.pushSelector selector,
              .pushFile (build.routineFile (.make name selector parameters))]
            closing := [.popSelector, .popFile] }) := by
    unfold defineRoutine
    rw [bind_of_ok (get_apply build), isBlock]
    rfl
  by_cases isBlock : before.nextIsBlock = true
  · rw [defined isBlock] at run
    cases run
    refine ⟨before, .refl, .routine (.make name selector parameters) isBlock, fun _ => ?_⟩
    have isBlockOnto : (before.onto mirror.ground).nextIsBlock = true := isBlock
    rw [defined isBlockOnto]
    unfold routineFile
    rw [addRoutine_onto]
    rfl
  · rw [Bool.not_eq_true] at isBlock
    unfold defineRoutine at run
    rw [bind_of_ok (get_apply before), isBlock] at run
    cases run

theorem follows_resultCounter (index : Nat) (kind : CounterKind) :
    Follows mirror (resultCounter index kind) (resultCounter index kind) := by
  intro before
  apply leadsAt_get
  apply (follows_orFail _ _ before).bind
  intro routine middle found
  obtain ⟨isRoutine, rfl⟩ := orFail_eq_ok_iff.1 found
  apply (follows_orFail _ _ _).bind
  rintro ⟨counter, isNew, updated⟩ middle found
  obtain ⟨slot, rfl⟩ := orFail_eq_ok_iff.1 found
  -- a routine that gets a counter for its result keeps its file, so this is aside
  have sameFile : updated.file = routine.file := by
    unfold Routine.resultSlot? at slot
    split at slot
    · split at slot
      · cases slot
        rfl
      · cases slot
    · cases slot
      rfl
  have files : (middle.routines.set index updated).map Routine.file =
      middle.routines.map Routine.file := by
    obtain ⟨inRange, isAt⟩ := List.getElem?_eq_some_iff.1 isRoutine
    rw [List.map_set, sameFile, ← isAt]
    refine List.ext_getElem (by simp) fun position _ _ => ?_
    rw [List.getElem_set]
    split
    · next same => simp [same]
    · rfl
  refine (followsAt_of_effects ?_).bind fun _ later _ => ?_
  · rintro value after ⟨⟩
    refine ⟨.aside (.of_board ?_ rfl) rfl rfl, rfl⟩
    simp only [core, files]
  · dsimp only
    split
    · refine Leads.bind (follows_counters (.define trivial)) (fun _ => ?_) later
      apply (follows_modifyScoreboard fun board => board.headGrows_declare _).bind
      exact fun _ => follows_pure _
    · exact follows_pure _ later

theorem followsAt_runOperation {tokens : List Token}
    (silent : ∀ assignment, Assignment.read tokens = .ok assignment →
      before.assignsSilently assignment = true → mirror.mayLeak) :
    FollowsAt mirror before (runOperation tokens) (runOperation tokens) := by
  apply (follows_ofExcept _ _ before).bind
  intro assignment middle ran
  obtain ⟨isRead, rfl⟩ := ofExcept_eq_ok_iff.1 ran
  apply (follows_counters assignment.yields_commands _).bind
  intro commands later ran
  obtain ⟨board, computed, rfl⟩ := counters_eq_ok_iff.1 ran
  obtain ⟨-, locals⟩ := assignment.yields_commands.of_ok computed
  refine followsAt_emitAllSelected (fun command member path called => ?_) ?_ _
  · exact absurd ((locals command member).symm.trans called) nofun
  · rintro rfl
    -- without commands, frames are left where the selected entities need them
    by_cases needsAlign : middle.active.needsAlign = true
    · refine .inr (silent assignment isRead ?_)
      simp [assignsSilently, needsAlign, computed]
    · refine .inl ?_
      unfold Selector.alignment
      exact if_neg needsAlign

theorem follows_runCall (tokens : List Token) : Follows mirror (runCall tokens) (runCall tokens) := by
  apply (follows_ofExcept _ _).bind
  rintro ⟨name, arguments⟩
  apply Leads.bind (following.ofToOperands _)
  intro operands before
  apply leadsAt_get
  apply (follows_orFail _ _ before).bind
  intro routine middle found
  obtain ⟨isRoutine, rfl⟩ := orFail_eq_ok_iff.1 found
  apply LeadsAt.check
  apply (follows_counters (routine.yields_callCommands _ _) _).bind
  intro commands later ran
  obtain ⟨board, computed, rfl⟩ := counters_eq_ok_iff.1 ran
  obtain ⟨-, nonempty, calls⟩ := (routine.yields_callCommands _ _).of_ok computed
  refine followsAt_emitAllSelected (fun command member path called => ?_)
    (fun isEmpty => absurd isEmpty nonempty) _
  rw [calls command member path called]
  exact callable_of_find? isRoutine

end BuildM

end ScriptPack
