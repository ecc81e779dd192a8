import ScriptPack.Proofs.Scope
import ScriptPack.Proofs.BodyEffects

/-!
Directives and statements, taken apart into effects. Reading arguments has none of interest. Most
directives end with one step that writes; those that make the next statement or block a special one
end with a finish. Main result: every statement but a brace is a sequence of effects, and of the
lists of statements that it runs, with one finish, and does the same on deeper stacks.
-/

namespace ScriptPack

open Build BuildM Statement

variable {tokens : List Token} {directive : Directive} {before : Build}

namespace ArgumentM

variable {α β : Type} {mirror : Mirror} {ending : Ending} {step other : ArgumentM α}
  {next nextOther : α → ArgumentM β}

def Leads (mirror : Mirror) (finish : Build → Build → Prop) (step other : ArgumentM α) : Prop :=
  ∀ tokens, BuildM.Leads mirror finish (step.run tokens) (other.run tokens)

abbrev Follows (mirror : Mirror) : ArgumentM α → ArgumentM α → Prop :=
  Leads mirror Eq

abbrev Ends (mirror : Mirror) (ending : Ending) : ArgumentM α → ArgumentM α → Prop :=
  Leads mirror (Finish ending)

theorem Leads.ends (follows : Follows mirror step other) : Ends mirror .plain step other :=
  fun tokens => (follows tokens).ends

theorem followsAt_bind (first : FollowsAt mirror before (step.run tokens) (other.run tokens))
    (second : ∀ value rest middle, step.run tokens before = .ok (value, rest) middle →
      FollowsAt mirror middle ((next value).run rest) ((nextOther value).run rest)) :
    FollowsAt mirror before ((step >>= next).run tokens) ((other >>= nextOther).run tokens) :=
  first.bind fun (value, rest) middle ran => second value rest middle ran

theorem Leads.bind {finish : Build → Build → Prop} (first : Follows mirror step other)
    (second : ∀ value, Leads mirror finish (next value) (nextOther value)) :
    Leads mirror finish (step >>= next) (other >>= nextOther) :=
  fun tokens => (first tokens).bind fun (value, rest) => second value rest

theorem follows_lift {step other : BuildM α} (follows : BuildM.Follows mirror step other) :
    Follows mirror (liftM step : ArgumentM α) (liftM other) :=
  fun _ => follows.bind fun _ => follows_pure _

theorem follows_gives {step : BuildM α} {holds : α → Prop} (gives : BuildM.Gives step holds)
    (follows : BuildM.Follows mirror step step)
    (second : ∀ value, holds value → Follows mirror (next value) (nextOther value)) :
    Follows mirror (liftM step >>= next) (liftM step >>= nextOther) := by
  intro tokens before
  apply (follows_lift follows tokens before).bind
  rintro ⟨value, rest⟩ middle run
  obtain ⟨ran, rfl⟩ := lift_eq_ok_iff.1 run
  exact second value (gives.holds before value middle ran) _ middle

theorem ends_lift {step other : BuildM α} (ends : BuildM.Ends mirror ending step other) :
    Ends mirror ending (liftM step : ArgumentM α) (liftM other) := by
  rintro tokens before ⟨value, rest⟩ after run
  obtain ⟨ran, rfl⟩ := lift_eq_ok_iff.1 run
  obtain ⟨middle, trace, finish, mirrored⟩ := ends before value after ran
  exact ⟨middle, trace, finish, fun followed => lift_eq_ok_iff.2 ⟨mirrored followed, rfl⟩⟩

/-! Directives that run lists of statements. -/

theorem follows_runRepeat : Follows mirror (runRepeat mirror.run) (runRepeat mirror.follow) :=
  Leads.bind (following.ofNext _) fun _ => Leads.bind (following.ofNext? _) fun _ =>
    (follows_lift follows_takeBody).bind fun _ =>
      follows_lift (follows_repeatBody _ _ _ _)

theorem follows_runIterate : Follows mirror (runIterate mirror.run) (runIterate mirror.follow) :=
  Leads.bind (following.ofNext _) fun _ => Leads.bind (following.ofNext _) fun _ =>
    Leads.bind (following.liftEnvironment _) fun _ =>
      (follows_lift follows_takeBody).bind fun _ =>
        follows_lift (follows_iterateBody _ _ _)

theorem followsAt_getThe {next nextOther : Build → ArgumentM α}
    (follows : FollowsAt mirror before ((next before).run tokens)
      ((nextOther (before.onto mirror.ground)).run tokens)) :
    FollowsAt mirror before ((getThe Build >>= next).run tokens)
      ((getThe Build >>= nextOther).run tokens) := by
  intro value after run
  change (next before).run tokens before = _ at run
  exact follows value after run

theorem follows_runTemplate : Follows mirror (runTemplate mirror.run) (runTemplate mirror.follow) := by
  apply Leads.bind (following.ofNext _); intro name
  apply Leads.bind following.ofTokens; intro tokens others before
  apply followsAt_getThe
  have next : (before.onto mirror.ground).nextIsBlock = before.nextIsBlock := rfl
  rw [next]
  split
  · exact follows_lift (following.ofDefineTemplate follows_takeBody _ _) others before
  · exact follows_lift (follows_callTemplate _ _) others before

theorem follows_runInclude : Follows mirror (runInclude mirror.run) (runInclude mirror.follow) :=
  Leads.bind (following.ofNext _) fun _ => follows_lift (follows_includeScript _)

/-! Directives that end otherwise than by writing commands that they have made up themselves. -/

theorem ends_runSelect : Ends mirror .plain runSelect runSelect :=
  Leads.bind (following.ofNext _) fun _ => ends_lift (ends_select _)

theorem ends_runRoutine : Ends mirror .routine runRoutine runRoutine := by
  apply Leads.bind (following.ofNext? _); intro selector
  apply Leads.bind (following.ofNext _); intro name
  apply Leads.bind following.ofTokens; intro tokens
  apply (follows_lift (following.ofTakeParameters _ _)).bind; intro parameters
  exact ends_lift (ends_defineRoutine _ _ _)

theorem followsAt_runDefine
    (silent : ∀ definition rest, View.takeDefinition before.scoreboard tokens = .ok (definition, rest) →
      before.definesSilently definition = true → mirror.mayLeak) :
    BuildM.FollowsAt mirror before (runDefine.run tokens) (runDefine.run tokens) := by
  have reads : Follows mirror definition definition :=
    following.ofState (fun _ _ => rfl) fun _ => following.ofRead _
  apply (reads tokens before).bind
  rintro ⟨definition, rest⟩ middle run
  obtain ⟨taken, rfl⟩ := read_eq_ok run
  have defined := followsAt_defineCounter (silent definition rest taken)
  exact defined.bind fun _ later _ => follows_pure _ later

theorem follows_runInitialise : Follows mirror runInitialise runInitialise := by
  apply following.ofState fun _ _ => rfl; intro build
  apply Leads.bind following.ofTokens; intro tokens
  apply follows_gives ⟨fun _ _ _ ran =>
    areLocal_initialCommands (ofExcept_eq_ok_iff.1 ran).1⟩ (following.ofOfExcept _ _)
  intro commands locals
  apply follows_lift
  exact fun before => followsAt_emitBatch _ _ (locals.calls before)

theorem follows_runResult : Follows mirror runResult runResult := by
  apply following.ofState fun _ _ => by rw [Build.currentRoutine?_onto]
  intro build
  apply (follows_lift (follows_orFail _ _)).bind; intro index
  apply Leads.bind (following.ofNext _); intro operand
  apply (follows_lift (following.ofResultKind _)).bind; intro kind
  apply (follows_lift (follows_resultCounter _ _)).bind; intro result
  apply follows_gives (gives_counters (Counter.yields_assignOperand _ _ _))
    (follows_counters (Counter.yields_assignOperand _ _ _))
  intro commands locals
  exact follows_lift (follows_emitAll locals _)

theorem follows_runRemove : Follows mirror runRemove runRemove := by
  intro tokens before
  have shares : BuildM.Follows mirror silentRemoval silentRemoval := by
    intro before
    apply followsAt_sharedFile
    simp [Command.called?]
  apply followsAt_bind (follows_lift shares tokens before)
  intro removal kept middle run
  obtain ⟨ran, rfl⟩ := lift_eq_ok_iff.1 run
  have callable {path : String} (called : removal.called? = some path) : middle.Callable path :=
    callable_of_sharedFile ran called
  apply followsAt_bind (following.ofNext? View.selector _ middle)
  intro selector rest later ran
  change EStateM.Result.ok (View.selector.takeIf _) middle = _ at ran
  injection ran with _ same
  subst same
  split
  · have written (selector : Selector) : BuildM.FollowsAt mirror middle
        (emit (.execute selector.render .here removal))
        (emit (.execute selector.render .here removal)) :=
      followsAt_emit fun path called => callable called
    exact (written _).bind fun _ later _ => follows_pure _ later
  · have written : BuildM.FollowsAt mirror middle (emitSelected removal) (emitSelected removal) :=
      followsAt_emitSelected fun path called => callable called
    exact written.bind fun _ later _ => follows_pure _ later

theorem runDirective_congr (runsNone : directive.runsLists = false)
    (run other : Runner) : runDirective run directive = runDirective other directive := by
  cases directive with
  | repeatBody | iterate | template | includeFile => cases runsNone
  | _ => rfl

end ArgumentM

def Directive.startsRoutine : Directive → Bool
  | routine => true
  | _ => false

def Directive.ending : Directive → Ending
  | routine => .routine
  | halt => .halt
  | _ => .plain

open ArgumentM in
theorem ArgumentM.ends_runDirective {mirror : Mirror} (notDefine : directive ≠ .define) :
    Ends mirror directive.ending (runDirective mirror.run directive)
      (runDirective mirror.follow directive) := by
  have chosen := @ends_runChosen mirror
  cases directive with
  | define => exact absurd rfl notDefine
  | select => exact ends_runSelect
  | routine => exact ends_runRoutine
  | initialise => exact follows_runInitialise.ends
  | result => exact follows_runResult.ends
  | remove => exact follows_runRemove.ends
  | halt => exact ends_lift ends_runHalt
  | whenValues =>
    exact following.ofRunWhenValues chosen fun _ =>
      follows_modify (fun _ => .of_board rfl rfl) (fun _ => ⟨rfl, rfl⟩) fun _ => rfl
  | otherwiseValues => exact ends_lift (following.ofRunOtherwiseValues chosen)
  | record =>
    exact Leads.ends (following.ofRunRecord follows_takeStatement? fun _ =>
      follows_modifyScoreboard fun _ => ⟨[], (List.append_nil _).symm⟩)
  | repeatBody => exact follows_runRepeat.ends
  | template => exact follows_runTemplate.ends
  | includeFile => exact follows_runInclude.ends
  | iterate => exact follows_runIterate.ends
  | condition =>
    exact Leads.bind following.ofTokens fun _ =>
      ends_lift (guarding_closes.ofRunCondition following.toEvaluating _)
  | otherwise => exact ends_lift (guarding_closes.ofRunOtherwise following.toEvaluating)
  | _ => exact following.ofRunDirective rfl rfl

namespace Statement

def startsRoutine (statement : Statement) : Bool :=
  match statement.kind with
  | .directive directive => directive.startsRoutine
  | _ => false

def ending (statement : Statement) : Ending :=
  match statement.kind with
  | .directive directive => directive.ending
  | _ => .plain

theorem ending_eq_routine_iff (statement : Statement) :
    statement.ending = .routine ↔ statement.startsRoutine = true := by
  unfold ending startsRoutine
  cases statement.kind with
  | directive directive => cases directive <;> simp [Directive.ending, Directive.startsRoutine]
  | _ => simp

def isBrace (statement : Statement) : Bool :=
  statement.isOpenBlock || statement.isCloseBlock

/-- Whether the statement assigns or defines a counter for selected entities that `@s` does not name,
and has no command to do so. -/
def isSilent (statement : Statement) (build : Build) : Bool :=
  match prepare statement build with
  | .error _ _ => false
  | .ok tokens prepared =>
      match statement.kind with
      | .operation =>
          match Assignment.read tokens with
          | .ok assignment => prepared.assignsSilently assignment
          | .error _ => false
      | .directive .define =>
          match View.takeDefinition prepared.scoreboard tokens with
          | .ok (definition, _) => prepared.definesSilently definition
          | .error _ => false
      | _ => false

end Statement

namespace BuildM

variable {mirror : Mirror} {before : Build}

theorem runDirective_eq_ok_iff {run : Runner} {after : Build} :
    runDirective run directive tokens before = .ok () after ↔ directive.accepts tokens = true ∧
      ∃ rest, (ArgumentM.runDirective run directive).run tokens before = .ok ((), rest) after := by
  unfold runDirective
  cases accepts : directive.accepts tokens with
  | false => exact ⟨nofun, nofun⟩
  | true =>
    have dropped : (do
          if !true then fail .invalidPattern
          (ArgumentM.runDirective run directive).run' tokens : BuildM Unit) =
        (ArgumentM.runDirective run directive).run tokens >>= fun result => pure result.1 := rfl
    rw [dropped, bind_eq_ok_iff]
    constructor
    · rintro ⟨⟨_, rest⟩, last, ran, returned⟩
      cases returned
      exact ⟨rfl, rest, ran⟩
    · rintro ⟨-, rest, ran⟩
      exact ⟨((), rest), after, ran, rfl⟩

theorem endsAt_runDirective (ends : EndsAt mirror directive.ending before
      ((ArgumentM.runDirective mirror.run directive).run tokens)
      ((ArgumentM.runDirective mirror.follow directive).run tokens)) :
    EndsAt mirror directive.ending before (runDirective mirror.run directive tokens)
      (runDirective mirror.follow directive tokens) := by
  intro _ after run
  obtain ⟨accepts, rest, ran⟩ := runDirective_eq_ok_iff.1 run
  obtain ⟨middle, trace, finish, mirrored⟩ := ends ((), rest) after ran
  exact ⟨middle, trace, finish, fun followed =>
    runDirective_eq_ok_iff.2 ⟨accepts, rest, mirrored followed⟩⟩

/-- A statement that is no brace is a sequence of effects, and of the lists of statements that it
runs, with a finish. It does the same on deeper stacks where the lists do. -/
theorem endsAt_runStatement {statement : Statement} (noBrace : statement.isBrace = false)
    (silent : statement.isSilent before = true → mirror.mayLeak) :
    EndsAt mirror statement.ending before (runStatement mirror.run statement)
      (runStatement mirror.follow statement) := by
  unfold ending
  unfold runStatement
  cases kind : statement.kind with
  | openBlock size =>
    simp [isBrace, isOpenBlock, size?, kind] at noBrace
  | closeBlock => simp [isBrace, isCloseBlock, kind] at noBrace
  | unknown =>
    intro value after run
    cases run
  | operation =>
    apply LeadsAt.ends
    apply (following.ofPrepare statement before).bind
    intro tokens prepared prepares
    apply followsAt_runOperation
    intro assignment isRead silently
    apply silent
    simp only [isSilent, prepares, kind, isRead, silently]
  | call => exact (Leads.bind (following.ofPrepare statement) fun tokens => follows_runCall tokens).ends before
  | directive directive =>
    have directed (notDefine : directive ≠ .define) : Ends mirror directive.ending
        (prepare statement >>= fun tokens => runDirective mirror.run directive tokens)
        (prepare statement >>= fun tokens => runDirective mirror.follow directive tokens) :=
      Leads.bind (following.ofPrepare statement) fun tokens before =>
        endsAt_runDirective (ArgumentM.ends_runDirective notDefine tokens before)
    dsimp only
    split
    · next feature needed =>
      have notDefine : directive ≠ .define := by
        rintro rfl
        cases needed
      exact Leads.bind (following.ofRequireFeature feature) (fun _ => directed notDefine) before
    · -- the definition of a counter is the only directive that may be silent
      by_cases isDefine : directive = .define
      · subst isDefine
        apply (following.ofPrepare statement before).bind
        intro tokens prepared prepares
        apply endsAt_runDirective
        refine (ArgumentM.followsAt_runDefine fun definition rest taken silently => ?_).ends
        apply silent
        simp only [isSilent, prepares, kind, taken, silently]
      · exact directed isDefine before

end BuildM

end ScriptPack
