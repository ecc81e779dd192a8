import ScriptPack.Compile
import ScriptPack.Proofs.Composition
import ScriptPack.Proofs.MessageScores

/-!
Directives, composed of elementary steps. Those that compute with variables or run bodies are left to
predicates that do not notice such changes; those that write end with one step that does. Main
result: a predicate of the elementary steps holds of every directive that takes no statements from
those to come and runs no others.
-/

namespace ScriptPack

open Build Command Counter List

/-! ## Steps that nothing else notices -/

namespace Build

/-- Only variables, what a session remembers but for the names of files, assets, the log, classes of
null entities and how deep includes are nested differ. -/
structure Unseen (before after : Build) : Prop where
  core : after.core = before.core
  board : after.scoreboard = before.scoreboard
  routines : after.routines = before.routines
  active : after.active = before.active
  conditions : after.lastConditions = before.lastConditions
  choices : after.lastChoices = before.lastChoices
  upcoming : after.upcoming = before.upcoming
  unreachable : after.unreachable = before.unreachable

variable (build : Build)

theorem unseen_addAsset (asset : Asset) : build.Unseen (build.addAsset asset) := by
  unfold addAsset Pack.addAsset
  split <;> constructor <;> rfl

theorem unseen_session {session : Session} (generated : session.generated = build.session.generated)
    (sharedFiles : session.sharedFiles = build.session.sharedFiles) :
    build.Unseen { build with session } := by
  constructor <;> simp only [core, generated, sharedFiles]

theorem unseen_enableFeature (feature : Feature) : build.Unseen (build.enableFeature feature) := by
  have enabled : build.Unseen { build with session := (build.session.enableFeature feature).2 } := by
    apply unseen_session <;>
    · unfold Session.enableFeature
      split <;> rfl
  unfold enableFeature
  dsimp only
  split
  · exact { enabled with }
  · have added := unseen_addAsset { build with session := (build.session.enableFeature .exploders).2 }
      exploderAsset
    exact { added with core := added.core.trans enabled.core }
  · exact enabled

theorem enableFeature_onto (feature : Feature) (ground : Ground) :
    (build.onto ground).enableFeature feature = (build.enableFeature feature).onto ground := by
  unfold enableFeature
  have same : (build.onto ground).session = build.session := rfl
  dsimp only
  rw [same]
  split <;> rfl

end Build

/-- Whether the command acts on the executing entity or on blocks and writes down no other target. -/
def Command.actsForSelf : Command → Bool
  | teleport target _ | teleportRotated target .. => target == selfTarget
  | setBlock .. | fill .. | fillReplace .. | loadPartOfStructure .. | summon .. => true
  | _ => false

namespace BuildM

def IsGroundless {α : Type} (step : BuildM α) : Prop :=
  ∀ build ground value after, step build = .ok value after →
    step (build.onto ground) = .ok value (after.onto ground)

/-- A closed predicate that also holds of steps that nothing else notices. -/
structure Unconcerned (Holds Last : ∀ {α : Type}, BuildM α → Prop) : Prop
    extends Closed Holds Last where
  unseen : ∀ {α : Type} {step : BuildM α}, (∀ build : Build, build.Unseen (final step build)) →
    step.IsGroundless → Holds step

namespace Unconcerned

open ArgumentM

variable {Holds Last : ∀ {α : Type}, BuildM α → Prop} {α : Type}

section

variable (rules : Unconcerned Holds Last)

include rules

theorem ofModifyGet {change : Build → α × Build}
    (unseen : ∀ build : Build, build.Unseen (change build).2)
    (mirrored : ∀ build ground,
      change (build.onto ground) = ((change build).1, (change build).2.onto ground)) :
    Holds (modifyGet change : BuildM α) := by
  refine rules.unseen (fun build => unseen build) fun build ground value after ran => ?_
  rw [modifyGet_apply] at ran ⊢
  cases ran
  rw [mirrored]

theorem ofModify {change : Build → Build} (unseen : ∀ build : Build, build.Unseen (change build))
    (mirrored : ∀ build ground, change (build.onto ground) = (change build).onto ground) :
    Holds (modify change : BuildM PUnit) :=
  rules.ofModifyGet unseen fun build ground => by rw [mirrored]

theorem ofEnvironment (computation : VariableM α) : Holds (environment computation) := by
  apply rules.unseen
  · intro build
    unfold environment
    rw [final_bind_of_ok (get_apply build)]
    cases computation.run build.environment <;> constructor <;> rfl
  · intro build ground value after ran
    rw [environment_eq] at ran ⊢
    have same : (build.onto ground).environment = build.environment := rfl
    rw [same]
    cases outcome : computation.run build.environment with
    | ok result environment =>
      rw [outcome] at ran
      cases ran
      rfl
    | error error environment =>
      rw [outcome] at ran
      cases ran

/-- A step of the session that generates no names and reserves no files. -/
theorem ofSession {step : Session → α × Session}
    (generated : ∀ session, (step session).2.generated = session.generated)
    (sharedFiles : ∀ session, (step session).2.sharedFiles = session.sharedFiles) :
    Holds (session step) :=
  rules.ofModifyGet (fun build => build.unseen_session (generated _) (sharedFiles _)) fun _ _ => rfl

theorem ofModifyVariables (change : Variables → Variables) : Holds (modifyVariables change) :=
  rules.ofModify (fun _ => by constructor <;> rfl) fun _ _ => rfl

theorem ofSetVariable (name : String) (values : List Value) : Holds (setVariable name values) :=
  rules.ofModifyVariables _

theorem ofSummonEvent (className : Option String) : Holds (summonEvent className) := by
  cases className with
  | none => exact rules.ofPure _
  | some name => exact rules.ofModifyGet (fun _ => by constructor <;> rfl) fun _ _ => rfl

theorem ofJsonDocument (file path : String) : Holds (jsonDocument file path) := by
  apply rules.ofGet fun _ _ => rfl
  intro build
  split
  · exact rules.ofPure _
  · apply rules.bind (rules.ofReadFile _ _); intro text
    apply rules.bind (rules.ofOrFail _ _); intro document
    apply rules.ofSession <;>
    · intro session
      unfold Session.cacheDocument
      split <;> rfl

theorem ofScriptStatements (file path : String) : Holds (scriptStatements file path) := by
  apply rules.ofGet fun _ _ => rfl
  intro build
  split
  · exact rules.ofPure _
  · apply rules.bind (rules.ofReadFile _ _)
    intro source
    split
    · exact rules.ofThrow _
    · apply rules.ofSession <;>
      · intro session
        unfold Session.cacheStatements
        split <;> rfl

theorem ofTemplateArgument (parameter : String) (token : Token) :
    Holds (templateArgument parameter token) := by
  unfold templateArgument
  split
  · exact rules.ofEnvironment _
  · exact rules.ofGet (fun _ _ => rfl) fun _ => rules.ofPure _
  · exact rules.ofPure _
  · exact rules.bind (rules.ofOrFail _ _) fun _ => rules.ofPure _

theorem ofTemplateArguments (parameters : List String) (tokens : List Token) :
    Holds (templateArguments parameters tokens) := by
  induction parameters generalizing tokens with
  | nil => exact rules.ofPure _
  | cons parameter parameters ih =>
    cases tokens with
    | nil => exact rules.ofFail _
    | cons token rest =>
      exact rules.bind (rules.ofTemplateArgument _ _) fun _ => rules.bind (ih rest) fun _ =>
        rules.ofPure _

/-! Directives that compute with variables. -/

theorem liftEnvironment (computation : VariableM α) :
    Over Holds (liftM (environment computation)) :=
  rules.lift (rules.ofEnvironment computation)

theorem liftSetVariable (name : String) (values : List Value) :
    Over Holds (liftM (setVariable name values)) :=
  rules.lift (rules.ofSetVariable name values)

theorem ofValues : Over Holds values := by
  apply rules.seq (rules.ofNext? _)
  intro other
  cases other with
  | some other => exact rules.liftEnvironment _
  | none => exact rules.ofLiterals

theorem ofRunSetVariable : Over Holds runSetVariable :=
  rules.seq (rules.ofNext _) fun _ => rules.seq rules.ofLiterals fun _ => rules.liftSetVariable _ _

theorem ofRunCount (up : Bool) : Over Holds (runCount up) :=
  rules.seq (rules.ofNext _) fun _ => rules.liftEnvironment _

theorem ofRunArithmetic (op : ArithOp) : Over Holds (runArithmetic op) :=
  rules.seq (rules.ofNext _) fun _ => rules.seq rules.ofValues fun _ => rules.liftEnvironment _

theorem ofRunPower : Over Holds runPower :=
  rules.seq (rules.ofNext _) fun _ => rules.seq rules.ofValues fun _ => rules.liftEnvironment _

theorem ofRunSwap : Over Holds runSwap :=
  rules.seq (rules.ofNext _) fun _ => rules.seq (rules.ofNext _) fun _ => rules.liftEnvironment _

theorem ofRunLog : Over Holds runLog :=
  rules.seq (rules.ofNext _) fun _ =>
    rules.lift (rules.ofModify (fun _ => by constructor <;> rfl) fun _ _ => rfl)

theorem ofRunChangeCase (style : Text.TextCase) : Over Holds (runChangeCase style) :=
  rules.seq (rules.ofNext _) fun _ => rules.seq (rules.ofNext _) fun _ => rules.liftEnvironment _

theorem ofRunAggregate (kind : Aggregate) : Over Holds (runAggregate kind) :=
  rules.seq (rules.ofNext _) fun _ => rules.seq (rules.ofNext _) fun _ =>
    rules.ofState (fun _ _ => rfl) fun _ => rules.seq (rules.lift (rules.ofOfExcept _ _)) fun _ =>
      rules.liftSetVariable _ _

theorem ofRunElement : Over Holds runElement :=
  rules.seq (rules.ofNext _) fun _ => rules.seq (rules.ofNext _) fun _ =>
    rules.seq (rules.ofNext _) fun _ => rules.ofState (fun _ _ => rfl) fun _ =>
      rules.seq (rules.lift (rules.ofOfExcept _ _)) fun _ => rules.liftSetVariable _ _

theorem ofRunLength : Over Holds runLength :=
  rules.seq (rules.ofNext _) fun _ => rules.seq (rules.ofNext _) fun _ =>
    rules.seq (rules.liftEnvironment _) fun _ => rules.liftSetVariable _ _

theorem ofRunImportJson : Over Holds runImportJson :=
  rules.seq (rules.ofNext _) fun _ => rules.seq (rules.ofNext _) fun _ =>
    rules.seq (rules.ofNext _) fun _ => rules.seq (rules.lift (rules.ofFindFile _)) fun _ =>
      rules.seq (rules.lift (rules.ofJsonDocument _ _)) fun _ =>
        rules.seq (rules.lift (rules.ofOfExcept _ _)) fun _ => rules.liftSetVariable _ _

theorem ofEnableFeature (feature : Feature) : Holds (modify (·.enableFeature feature) : BuildM PUnit) :=
  rules.ofModify (fun build => build.unseen_enableFeature _) fun build => build.enableFeature_onto _

theorem ofRunFeature : Over Holds runFeature :=
  rules.seq (rules.ofNext _) fun _ => rules.seq (rules.lift (rules.ofOrFail _ _)) fun _ =>
    rules.lift (rules.ofEnableFeature _)

theorem ofForM {α : Type} {step : α → BuildM Unit} (holds : ∀ item, Holds (step item))
    (items : List α) : Holds (items.forM step) := by
  induction items with
  | nil => exact rules.ofPure _
  | cons item items ih => exact rules.bind (holds item) fun _ => ih

theorem ofApplyOptions (options : Options) : Holds (applyOptions options) := by
  have given (definition : String × String) : Holds (setGivenVariable definition) := by
    obtain ⟨name, text⟩ := definition
    unfold setGivenVariable
    dsimp only
    split
    · exact rules.bind (rules.ofThrow _) fun _ => rules.ofSetVariable _ _
    · exact rules.ofSetVariable _ _
  have named (name : String) : Holds (enableNamedFeature name) := by
    unfold enableNamedFeature
    split
    · exact rules.ofEnableFeature _
    · exact rules.ofThrow _
  have others : Holds (do
      options.definitions.forM setGivenVariable
      options.features.forM enableNamedFeature) :=
    rules.bind (rules.ofForM given _) fun _ => rules.ofForM named _
  unfold applyOptions
  split
  · exact rules.bind (rules.ofSetVariable _ _) fun _ => others
  · exact others

section

variable (acts : ∀ {command : Command}, command.actsForSelf = true →
  Over Last (liftM (emitSelected command)))

include acts

theorem ofRunMove : Over Last runMove :=
  rules.seqLast (rules.ofNext _) fun _ => rules.seqLast (rules.ofNext _) fun _ =>
    rules.seqLast (rules.lift (rules.ofOfExcept _ _)) fun _ => acts rfl

theorem ofRunRotate : Over Last runRotate :=
  rules.seqLast (rules.ofNext _) fun _ => rules.seqLast (rules.ofNext? _) fun _ =>
    acts rfl

theorem ofRunBlock : Over Last runBlock :=
  rules.seqLast (rules.ofRead _) fun _ => rules.seqLast rules.ofName fun _ =>
    rules.seqLast rules.ofPosition fun _ => rules.seqLast (rules.ofNext? _) fun _ =>
      acts rfl

theorem ofRunFill : Over Last runFill :=
  rules.seqLast (rules.ofRead _) fun _ => rules.seqLast rules.ofName fun _ =>
    rules.seqLast rules.ofPosition fun _ => rules.seqLast rules.ofPosition fun _ =>
      rules.seqLast (rules.ofNext? _) fun _ => acts rfl

theorem ofRunScatter : Over Last runScatter := by
  apply rules.seqLast rules.ofName; intro block
  apply rules.seqLast (rules.ofNext _); intro percent
  apply rules.seqLast rules.ofPosition; intro start
  apply rules.seqLast rules.ofPosition; intro stop
  apply rules.requireLast
  apply rules.seqLast (rules.ofNext? _); intro seed
  apply rules.requireLast
  apply rules.seqLast (rules.lift (rules.ofSession (fun _ => rfl) fun _ => rfl)); intro index
  have added (asset : Asset) : Holds (modify (·.addAsset asset) : BuildM PUnit) :=
    rules.ofModify (fun build => build.unseen_addAsset _) fun _ _ => rfl
  exact rules.seqLast (rules.lift (added _)) fun _ => acts rfl

theorem ofRunReplace : Over Last runReplace :=
  rules.seqLast rules.ofName fun _ => rules.seqLast (rules.ofNext? _) fun _ =>
    rules.seqLast rules.ofPosition fun _ => rules.seqLast rules.ofPosition fun _ =>
      rules.seqLast rules.ofName fun _ => rules.seqLast (rules.ofNext? _) fun _ =>
        acts rfl

theorem ofRunNullCreate : Over Last runNullCreate :=
  rules.seqLast (rules.ofNext _) fun _ => rules.seqLast (rules.ofNext? _) fun _ =>
    rules.seqLast rules.ofPositionOrHere fun _ =>
      rules.seqLast (rules.lift (rules.ofSummonEvent _)) fun _ => acts rfl

end

section

variable (chosen : ∀ chosen, Last (runChosen chosen))

include chosen

theorem ofRunWhenValues
    (remembered : ∀ chosen, Holds (modify (·.rememberChoice chosen) : BuildM PUnit)) :
    Over Last runWhenValues := by
  apply rules.seqLast (rules.ofNext _); intro name
  apply rules.seqLast (rules.ofNext _); intro op
  apply rules.seqLast rules.ofValues; intro others
  apply rules.requireLast
  apply rules.seqLast (rules.liftEnvironment _); intro values
  apply rules.seqLast (rules.lift (rules.ofOfExcept _ _)); intro choice
  apply rules.ofStateLast fun _ _ => rfl; intro build
  apply rules.requireLast
  exact rules.seqLast (rules.lift (remembered choice)) fun _ => rules.liftLast (chosen choice)

theorem ofRunOtherwiseValues : Last runOtherwiseValues := by
  apply rules.ofGetLast fun _ _ => rfl; intro build
  apply rules.bindLast (rules.ofOrFail _ _); intro choice
  exact rules.checkLast (chosen _)

end

/-! Directives with a body. -/

theorem ofRunRecord (taken : Holds takeStatement?)
    (defined : ∀ record : RecordType, Holds (modifyScoreboard (·.defineRecord record))) :
    Over Holds runRecord := by
  have fields (count : Nat) (record : RecordType) : Holds (takeFields count record) := by
    induction count generalizing record with
    | zero => exact rules.ofPure _
    | succ count ih =>
      apply rules.bind taken; intro statement
      apply rules.bind (rules.ofOrFail _ _); intro statement
      apply rules.ofGet fun _ _ => rfl; intro build
      apply rules.bind (rules.ofOfExcept _ _); intro kind
      apply rules.bind (rules.ofOfExcept _ _); intro name
      exact ih _
  apply rules.seq (rules.ofNext _); intro name
  apply rules.lift
  apply rules.ofGet fun _ _ => rfl; intro build
  apply rules.check
  apply rules.bind taken; intro opening
  apply rules.bind (fields _ _); intro record
  apply rules.bind taken; intro closing
  cases closing with
  | none => exact rules.ofFail _
  | some statement => exact rules.check (defined record)

section

variable (body : Holds takeBody) {run : Runner}
  (runs : ∀ statements, Holds (run statements))
  (ends : ∀ {step : BuildM Unit} {last : Build → Build}, Holds step →
    (∀ build : Build, build.Unseen (last build)) → Holds (always step last))

include body in
theorem ofDefineTemplate (name : String) (parameters : List String) :
    Holds (defineTemplate name parameters) := by
  apply rules.ofGet fun _ _ => rfl; intro build
  apply rules.check
  exact rules.bind body fun _ => rules.ofModifyVariables _

include runs in
theorem ofRepeatBody (tracker : Option String) (body : List Statement) (count index : Nat) :
    Holds (repeatBody run tracker body count index) := by
  induction count generalizing index with
  | zero => exact rules.ofPure _
  | succ count ih =>
    have rest : Holds (do run body; repeatBody run tracker body count (index + 1)) :=
      rules.bind (runs body) fun _ => ih _
    cases tracker with
    | none => exact rest
    | some name => exact rules.bind (rules.ofModifyVariables _) fun _ => rest

include runs in
theorem ofIterateBody (name : String) (body : List Statement) (values : List Value) :
    Holds (iterateBody run name body values) := by
  induction values with
  | nil => exact rules.ofPure _
  | cons value rest ih =>
    exact rules.bind (rules.ofModifyVariables _) fun _ => rules.bind (runs body) fun _ => ih

include runs ends in
theorem ofCallTemplate (name : String) (tokens : List Token) :
    Holds (callTemplate run name tokens) := by
  apply rules.ofGet fun _ _ => rfl; intro build
  apply rules.bind (rules.ofOrFail _ _); intro template
  apply rules.bind (rules.ofTemplateArguments _ _); intro bindings
  apply rules.ofGet fun _ _ => rfl; intro build
  apply rules.bind (rules.ofModifyVariables _); intro _
  exact ends (runs _) fun _ => by constructor <;> rfl

include runs ends in
theorem ofIncludeScript (file : String) : Holds (includeScript run file) := by
  apply rules.bind (rules.ofFindFile _); intro path
  apply rules.ofGet fun _ _ => rfl; intro build
  apply rules.check
  apply rules.bind (rules.ofScriptStatements _ _); intro statements
  refine rules.bind ?_ fun _ => ends (runs _) fun _ => by constructor <;> rfl
  exact rules.ofModify (fun _ => by constructor <;> rfl) fun _ _ => rfl

include body runs in
theorem ofRunRepeat : Over Holds (runRepeat run) :=
  rules.seq (rules.ofNext _) fun _ => rules.seq (rules.ofNext? _) fun _ =>
    rules.seq (rules.lift body) fun _ => rules.lift (rules.ofRepeatBody runs _ _ _ _)

include body runs in
theorem ofRunIterate : Over Holds (runIterate run) :=
  rules.seq (rules.ofNext _) fun _ => rules.seq (rules.ofNext _) fun _ =>
    rules.seq (rules.liftEnvironment _) fun _ => rules.seq (rules.lift body) fun _ =>
      rules.lift (rules.ofIterateBody runs _ _ _)

include body runs ends in
theorem ofRunTemplate : Over Holds (runTemplate run) := by
  apply rules.seq (rules.ofNext _); intro name
  apply rules.seq rules.ofTokens; intro tokens
  apply rules.ofState fun _ _ => rfl; intro build
  split
  · exact rules.lift (rules.ofDefineTemplate body _ _)
  · exact rules.lift (rules.ofCallTemplate runs ends _ _)

include runs ends in
theorem ofRunInclude : Over Holds (runInclude run) :=
  rules.seq (rules.ofNext _) fun _ => rules.lift (rules.ofIncludeScript runs ends _)

end

end

end Unconcerned

end BuildM

/-! ## Steps that write -/

theorem Counter.areLocal_displaySetup (counter : Counter) (target : String) (index : Nat) :
    AreLocal (counter.displaySetup target index) := by
  unfold displaySetup
  split
  · simp [AreLocal, called?]
  · exact areLocal_nil

theorem Message.areLocal_ofText (board : Scoreboard) (target text : String) :
    AreLocal (ofText board target text).setup := by
  rw [setup_ofText]
  intro command member
  obtain ⟨⟨counter, place⟩, -, member⟩ := mem_flatMap.1 member
  exact counter.areLocal_displaySetup target place command member

theorem Display.called?_command (display : Display) (target text : String) :
    (display.command target text).called? = none := by
  cases display <;> rfl

/-- The counters, the files, and what waits to be written or to be done are the same. -/
structure Build.SameWork (before after : Build) : Prop where
  board : after.scoreboard = before.scoreboard
  choices : after.lastChoices = before.lastChoices
  blocks : after.openBlocks = before.openBlocks
  upcoming : after.upcoming = before.upcoming
  file : after.file = before.file
  files : after.pack.files = before.pack.files
  outer : after.outerFiles = before.outerFiles
  pops : after.pendingPops = before.pendingPops
  frames : after.frames = before.frames

theorem Build.Unseen.sameWork {before after : Build} (unseen : before.Unseen after) :
    before.SameWork after := by
  have core := unseen.core
  exact ⟨unseen.board, unseen.choices, congrArg Core.openBlocks core, unseen.upcoming,
    congrArg Core.file core, congrArg Core.files core, congrArg Core.outerFiles core,
    congrArg Core.pendingPops core, congrArg Core.frames core⟩

theorem Build.sameWork_popSelector (build : Build) : build.SameWork build.popSelector := by
  obtain ⟨_, _, popped⟩ := build.popSelector_eq
  rw [popped]
  exact ⟨rfl, rfl, rfl, rfl, rfl, rfl, rfl, rfl, rfl⟩

namespace BuildM

/-- A predicate of the elementary steps by which directives write. -/
structure Writing (Holds Last : ∀ {α : Type}, BuildM α → Prop) : Prop
    extends Unconcerned Holds Last, Evaluating Holds Last where
  ofDeclare : ∀ counter : Counter, Holds (modifyScoreboard (·.declare counter))
  ofLimit : ∀ count : Option Int32,
    Holds (modify fun build => build.setActive { build.active with count } : BuildM PUnit)
  ofEmitBatch : ∀ {lines : List Line}, AreLocalLines lines → ∀ word inPlace,
    Last (modify (·.emitBatch lines word inPlace) : BuildM PUnit)
  ofEmitAllSelected : ∀ {commands : List Command}, AreLocal commands → commands ≠ [] → ∀ word,
    Last (emitAllSelected commands word)
  /-- Commands under a frame more. -/
  ofEmitUnder : ∀ {commands : List Command}, AreLocal commands → commands ≠ [] → ∀ frame word,
    Last (do
      modify fun build => { build with frames := build.frames ++ [frame] }
      emitAll commands word : BuildM Unit)

namespace Writing

variable {command : Command}

open ArgumentM

variable {Holds Last : ∀ {α : Type}, BuildM α → Prop} (rules : Writing Holds Last)

include rules

theorem ofEmit (isLocal : command.called? = none) : Last (emit command) :=
  rules.ofEmitBatch (areLocalLines_cons.2 ⟨isLocal, areLocalLines_nil⟩) "" false

theorem ofEmitAll {commands : List Command} (locals : AreLocal commands) (word : String) :
    Last (emitAll commands word) :=
  rules.ofEmitBatch locals.lines _ _

theorem emits (isLocal : command.called? = none) : Over Last (liftM (emit command)) :=
  rules.liftLast (rules.ofEmit isLocal)

theorem emitsSelected (isLocal : command.called? = none) :
    Over Last (liftM (emitSelected command)) :=
  rules.liftLast (rules.ofEmitAllSelected (areLocal_cons.2 ⟨isLocal, areLocal_nil⟩) nofun "")

theorem acts (forSelf : command.actsForSelf = true) : Over Last (liftM (emitSelected command)) :=
  rules.emitsSelected (by cases command <;> first | rfl | cases forSelf)

theorem ofTakeParameters (parameters : List Parameter) (tokens : List Token) :
    Holds (takeParameters parameters tokens) := by
  fun_induction takeParameters parameters tokens with
  | case1 parameters tokens isNext ih =>
    apply rules.ofGet fun _ _ => rfl
    intro build
    dsimp only
    split
    · exact rules.ofFail _
    · rename_i parameter rest taken
      apply rules.check
      apply rules.bind (rules.ofCounters (.define trivial)); intro _
      apply rules.bind (rules.ofDeclare _); intro _
      exact ih build parameter rest taken
  | case2 parameters tokens isLast => exact rules.ofPure _

theorem ofResultKind (operand : Operand) : Holds (resultKind operand) := by
  cases operand with
  | literal literal => exact rules.ofOrFail _ _
  | counter accessor => exact rules.bind (rules.ofCounters (.get _)) fun _ => rules.ofPure _

theorem ofRunLimit : Over Holds runLimit :=
  rules.seq (rules.ofNext? _) fun _ => rules.lift (rules.ofLimit _)

/-! Messages. -/

theorem ofShowMessage (text : String) (display : Display) (everyone : Bool) :
    Last (showMessage text display everyone) := by
  apply rules.ofGetLast fun _ _ => rfl
  intro build
  have locals : AreLocal ((Message.ofText build.scoreboard selfTarget text).setup ++
      [display.command selfTarget (Message.ofText build.scoreboard selfTarget text).rawText]) :=
    areLocal_append.2 ⟨Message.areLocal_ofText _ _ _,
      areLocal_cons.2 ⟨display.called?_command _ _, areLocal_nil⟩⟩
  dsimp only
  split
  · split
    · exact rules.ofEmitUnder locals (concat_ne_nil _ _) _ _
    · exact rules.ofEmitAllSelected locals (concat_ne_nil _ _) _
  · exact rules.bindLast (rules.ofGet (fun _ _ => rfl) fun _ => rules.ofPure _) fun _ =>
      rules.ofEmit (display.called?_command _ _)

theorem ofShownText (display : Display) (everyone : Bool) : Over Last (do
    let text ← next View.string
    showMessage text display everyone) :=
  rules.seqLast (rules.ofNext _) fun _ => rules.liftLast (rules.ofShowMessage _ _ _)

theorem ofRunTitle (place : TitlePlace) (everyone : Bool) : Over Last (runTitle place everyone) := by
  apply rules.seqLast (rules.ofNext? _)
  intro word
  cases word with
  | some word =>
    dsimp only
    split
    · have audience : Holds (audience everyone) := rules.ofGet (fun _ _ => rfl) fun _ => rules.ofPure _
      exact rules.seqLast (rules.lift audience) fun _ => rules.seqLast (rules.ofNext _) fun _ =>
        rules.seqLast (rules.ofNext _) fun _ => rules.seqLast (rules.ofNext _) fun _ =>
          rules.emits rfl
    · exact rules.ofShownText _ _
    · exact rules.overLast (rules.refusal _)
    · exact rules.overLast (rules.refusal _)
  | none => exact rules.ofShownText _ _

/-! Commands. -/

theorem ofRunGive : Over Last runGive :=
  rules.seqLast rules.ofName fun _ => rules.seqLast (rules.ofNext? _) fun _ =>
    rules.seqLast (rules.ofNext? _) fun _ => rules.seqLast rules.ofTokens fun _ =>
      rules.seqLast (rules.lift (rules.ofOfExcept _ _)) fun _ => rules.ofStateLast (fun _ _ => rfl) fun _ =>
        rules.emits rfl

theorem ofRunTeleport : Over Last runTeleport := by
  apply rules.seqLast (rules.ofNext? _)
  intro destination
  cases destination with
  | some destination => exact rules.emitsSelected rfl
  | none =>
    apply rules.seqLast rules.ofPosition; intro place
    apply rules.seqLast (rules.ofNext? _); intro yaw
    cases yaw with
    | some yaw => exact rules.seqLast (rules.ofNext? _) fun _ => rules.emitsSelected rfl
    | none => exact rules.emitsSelected rfl

theorem ofRunTeleportHere : Over Last runTeleportHere :=
  rules.seqLast (rules.ofNext _) fun _ => rules.seqLast rules.ofPositionOrHere fun _ =>
    rules.emitsSelected rfl

theorem ofRunFace : Over Last runFace := by
  apply rules.seqLast (rules.ofNext? _)
  intro other
  cases other with
  | some other => exact rules.emitsSelected rfl
  | none => exact rules.seqLast rules.ofPosition fun _ => rules.emitsSelected rfl

theorem ofRunDamage : Over Last runDamage := by
  apply rules.seqLast (rules.ofNext _); intro amount
  apply rules.seqLast (rules.ofNext? _); intro cause
  apply rules.ofStateLast fun _ _ => rfl; intro build
  apply rules.seqLast (rules.ofNext? _); intro damager
  cases damager with
  | some damager => exact rules.emits rfl
  | none =>
    apply rules.seqLast (rules.ofIsNext _)
    intro isPosition
    dsimp only
    split
    · exact rules.seqLast rules.ofPosition fun _ =>
        rules.seqLast (rules.lift (rules.ofRequireFeature _)) fun _ =>
          rules.liftLast (rules.ofEmitAll (by simp [AreLocal, called?]) _)
    · exact rules.emits rfl

theorem ofRunTag : Over Last runTag := by
  apply rules.seqLast (rules.ofNext _); intro mode
  apply rules.seqLast rules.ofName; intro tag
  apply rules.ofStateLast fun _ _ => rfl; intro build
  dsimp only
  split
  · exact rules.emits rfl
  · exact rules.emits rfl
  · exact rules.liftLast (rules.ofEmitAll (by simp [AreLocal, called?]) _)
  · exact rules.overLast (rules.refusal _)

theorem ofRunNullSingle : Over Last runNullSingle :=
  rules.seqLast (rules.ofNext _) fun _ => rules.seqLast (rules.ofNext? _) fun _ =>
    rules.seqLast rules.ofPosition fun _ =>
      rules.seqLast (rules.lift (rules.ofSummonEvent _)) fun _ =>
        rules.liftLast (rules.ofEmitAllSelected (by simp [AreLocal, called?]) (cons_ne_nil _ _) _)

theorem ofRunNullRemove : Over Last runNullRemove :=
  rules.seqLast (rules.ofWord? _) fun _ => rules.ofStateLast (fun _ _ => rfl) fun _ => rules.emits rfl

theorem ofRunNullClass : Over Last runNullClass := by
  apply rules.ofStateLast fun _ _ => rfl; intro build
  apply rules.seqLast (rules.ofWord? _); intro isRemoval
  dsimp only
  split
  · exact rules.emits rfl
  · exact rules.seqLast rules.ofName fun _ =>
      rules.seqLast (rules.lift (rules.ofSummonEvent _)) fun _ => rules.liftLast
        (rules.ofEmitBatch (by simp [AreLocalLines, Line.plain, called?]) _ _)

theorem ofRunNullEntity : Over Last runNullEntity := by
  apply rules.seqLast (rules.ofNext _)
  intro mode
  split
  · exact rules.ofRunNullCreate rules.acts
  · exact rules.ofRunNullSingle
  · exact rules.ofRunNullRemove
  · exact rules.ofRunNullClass
  · exact rules.overLast (rules.refusal _)

end Writing

end BuildM

/-- Whether the directive has a body, which it takes from the statements to come, or runs other
statements. -/
def Directive.governs : Directive → Bool
  | whenValues | otherwiseValues | repeatBody | iterate | template | includeFile | condition
  | otherwise | record => true
  | _ => false

/-- Whether the directive ends otherwise than by writing commands that it has made up itself. -/
def Directive.isApart : Directive → Bool
  | define | initialise | result | select | routine | halt | remove => true
  | _ => false

open ArgumentM in
/-- Most directives without a body are composed of the elementary steps. -/
theorem BuildM.Writing.ofRunDirective {Holds Last : ∀ {α : Type}, BuildM α → Prop}
    (rules : Writing Holds Last) {run : Runner} {directive : Directive}
    (bodiless : directive.governs = false) (notApart : directive.isApart = false) :
    Over Last (ArgumentM.runDirective run directive) := by
  cases directive with
  | setVariable => exact rules.overLast rules.ofRunSetVariable
  | count up => exact rules.overLast (rules.ofRunCount up)
  | arithmetic op => exact rules.overLast (rules.ofRunArithmetic op)
  | power => exact rules.overLast rules.ofRunPower
  | swap => exact rules.overLast rules.ofRunSwap
  | log => exact rules.overLast rules.ofRunLog
  | changeCase style => exact rules.overLast (rules.ofRunChangeCase style)
  | aggregate kind => exact rules.overLast (rules.ofRunAggregate kind)
  | element => exact rules.overLast rules.ofRunElement
  | length => exact rules.overLast rules.ofRunLength
  | importJson => exact rules.overLast rules.ofRunImportJson
  | limit => exact rules.overLast rules.ofRunLimit
  | feature => exact rules.overLast rules.ofRunFeature
  | rawCommand => exact rules.seqLast (rules.ofNext _) fun _ => rules.emits rfl
  | print everyone => exact rules.ofShownText _ _
  | give => exact rules.ofRunGive
  | teleport => exact rules.ofRunTeleport
  | teleportHere => exact rules.ofRunTeleportHere
  | move => exact rules.ofRunMove rules.acts
  | face => exact rules.ofRunFace
  | faceHere =>
    exact rules.seqLast (rules.ofNext _) fun _ => rules.liftLast
      (rules.ofEmitAllSelected (by simp [AreLocal, called?]) (cons_ne_nil _ _) _)
  | rotate => exact rules.ofRunRotate rules.acts
  | block => exact rules.ofRunBlock rules.acts
  | fill => exact rules.ofRunFill rules.acts
  | scatter => exact rules.ofRunScatter rules.acts
  | replace => exact rules.ofRunReplace rules.acts
  | kill =>
    exact rules.seqLast (rules.ofNext? _) fun _ => rules.ofStateLast (fun _ _ => rfl) fun _ =>
      rules.emits rfl
  | title place everyone => exact rules.ofRunTitle place everyone
  | say => exact rules.seqLast (rules.ofNext _) fun _ => rules.emitsSelected rfl
  | damage => exact rules.ofRunDamage
  | nullEntity => exact rules.ofRunNullEntity
  | tag => exact rules.ofRunTag
  | define | initialise | result | select | routine | halt | remove => cases notApart
  | whenValues | otherwiseValues | repeatBody | iterate | template | includeFile | condition
  | otherwise | record => cases bodiless

/-! ## Steps that change the work -/

namespace BuildM

/-- Nothing happens between looking at the routines and changing one of them. -/
theorem resultCounter_eq (index : Nat) (kind : CounterKind) : resultCounter index kind = (do
    let build ← get
    let routine ← orFail .resultOutsideRoutine build.routines[index]?
    let (counter, isNew, routine) ← orFail .mixedResults (routine.resultSlot? index kind)
    modify fun build => { build with routines := build.routines.set index routine }
    if isNew then
      counters (CounterM.define counter)
      modifyScoreboard (·.declare counter)
    return counter) := by
  funext build
  unfold resultCounter
  rw [bind_of_ok (get_apply build), bind_of_ok (get_apply build)]
  cases build.routines[index]? with
  | none => rfl
  | some routine =>
    change (orFail _ (routine.resultSlot? index kind) >>= _) build =
      (orFail _ (routine.resultSlot? index kind) >>= _) build
    cases routine.resultSlot? index kind <;> rfl

/-- A predicate of the elementary steps by which directives define and write. -/
structure Changing (Holds Last : ∀ {α : Type}, BuildM α → Prop) : Prop
    extends Unconcerned Holds Last, Evaluating Holds Last where
  ofDeclare : ∀ counter : Counter, Holds (modifyScoreboard (·.declare counter))
  ofChange : ∀ {change : Build → Build}, (∀ build : Build, build.SameWork (change build)) →
    Holds (modify change : BuildM PUnit)
  ofChangeGet : ∀ {α : Type} {change : Build → α × Build},
    (∀ build : Build, build.SameWork (change build).2) → Holds (modifyGet change : BuildM α)
  ofAddFrames : ∀ frames : List Frame,
    Holds (modify fun build => { build with frames := build.frames ++ frames } : BuildM PUnit)
  ofShare : ∀ (name : String) (commands : List Command),
    Holds (modifyGet (·.sharedFile name commands) : BuildM Command)
  ofAlign : Holds (modify align : BuildM PUnit)
  /-- An error is thrown again once the selector has been popped. -/
  ofRecover : ∀ {α : Type} {step : BuildM α}, Holds step → Holds (tryCatch step fun error => do
    modify popSelector
    throw error)
  ofEmitBatch : ∀ (lines : List Line) (word : String) (inPlace : Bool),
    Last (modify (·.emitBatch lines word inPlace) : BuildM PUnit)
  andChange : ∀ {step : BuildM Unit} {change : Build → Build}, Last step →
    (∀ build : Build, build.SameWork (change build)) →
      Last (step >>= fun _ => (modify change : BuildM PUnit))

namespace Changing

open ArgumentM

variable {Holds Last : ∀ {α : Type}, BuildM α → Prop} (rules : Changing Holds Last)

include rules

theorem ofEmit (command : Command) : Last (emit command) :=
  rules.ofEmitBatch [.plain command] "" false

theorem ofEmitAll (commands : List Command) (word : String) : Last (emitAll commands word) :=
  rules.ofEmitBatch _ _ _

theorem ofAligned {step : BuildM Unit} (last : Last step) : Last (aligned step) :=
  rules.bindLast rules.ofAlign fun _ => rules.andChange last sameWork_popSelector

theorem ofEmitAllSelected (commands : List Command) (word : String) :
    Last (emitAllSelected commands word) :=
  rules.ofAligned (rules.ofEmitAll commands word)

theorem writing : Writing Holds Last where
  toUnconcerned := rules.toUnconcerned
  ofCounters := rules.ofCounters
  ofKeepTemporaries := rules.ofKeepTemporaries
  ofComputation := rules.ofComputation
  ofCall := rules.ofCall
  ofDeclare := rules.ofDeclare
  ofLimit := fun _ => rules.ofChange fun _ => by constructor <;> rfl
  ofEmitBatch := fun _ => rules.ofEmitBatch _
  ofEmitAllSelected := fun _ _ => rules.ofEmitAllSelected _
  ofEmitUnder := fun _ _ _ _ => rules.bindLast (rules.ofAddFrames _) fun _ => rules.ofEmitAll _ _

theorem ofRunOperation (tokens : List Token) : Last (runOperation tokens) :=
  rules.bindLast (rules.ofOfExcept _ _) fun assignment =>
    rules.bindLast (rules.ofCounters assignment.yields_commands) fun _ =>
      rules.ofEmitAllSelected _ _

theorem ofRunCall (tokens : List Token) : Last (runCall tokens) := by
  apply rules.bindLast (rules.ofOfExcept _ _)
  rintro ⟨name, arguments⟩
  apply rules.bindLast (rules.ofToOperands _); intro operands
  apply rules.ofGetLast fun _ _ => rfl; intro build
  apply rules.bindLast (rules.ofOrFail _ _); intro routine
  apply rules.checkLast
  exact rules.bindLast (rules.ofCounters (routine.yields_callCommands _ _)) fun _ =>
    rules.ofEmitAllSelected _ _

theorem ofDefineCounter (definition : Parameter) : Last (defineCounter definition) := by
  apply rules.bindLast (rules.ofCounters (.define trivial))
  intro _
  dsimp only
  split
  · exact rules.ofEmitAll _ _
  · apply rules.bindLast rules.ofAlign; intro _
    apply rules.bindLast (rules.ofRecover (rules.ofCounters (yields_assignOperand _ _ _)))
    intro commands
    exact rules.andChange (rules.ofEmitAll _ _) sameWork_popSelector

theorem ofDefineRoutine (name : String) (selector : Selector) (parameters : List Parameter) :
    Holds (defineRoutine name selector parameters) := by
  have added (routine : Routine) : Holds (addRoutine routine) := by
    apply rules.ofChangeGet
    intro build
    split <;> exact ⟨rfl, rfl, rfl, rfl, rfl, rfl, rfl, rfl, rfl⟩
  apply rules.ofGet fun _ _ => rfl; intro build
  apply rules.check
  exact rules.bind (added _) fun _ =>
    rules.ofChange fun _ => ⟨rfl, rfl, rfl, rfl, rfl, rfl, rfl, rfl, rfl⟩

theorem ofResultCounter (index : Nat) (kind : CounterKind) : Holds (resultCounter index kind) := by
  rw [resultCounter_eq]
  apply rules.ofGet fun _ _ => rfl; intro build
  apply rules.bind (rules.ofOrFail _ _); intro routine
  apply rules.bind (rules.ofOrFail _ _)
  rintro ⟨counter, isNew, changed⟩
  refine rules.bind (rules.ofChange fun _ => ?_) fun _ => ?_
  · exact ⟨rfl, rfl, rfl, rfl, rfl, rfl, rfl, rfl, rfl⟩
  cases isNew with
  | true =>
    exact rules.bind (rules.ofCounters (.define trivial)) fun _ =>
      rules.bind (rules.ofDeclare _) fun _ => rules.ofPure _
  | false => exact rules.ofPure _

theorem ofRunDefine : Over Last runDefine :=
  rules.seqLast (rules.ofState (fun _ _ => rfl) fun _ => rules.ofRead _) fun _ =>
    rules.liftLast (rules.ofDefineCounter _)

theorem ofRunInitialise : Over Last runInitialise :=
  rules.ofStateLast (fun _ _ => rfl) fun _ => rules.seqLast rules.ofTokens fun _ =>
    rules.seqLast (rules.lift (rules.ofOfExcept _ _)) fun _ => rules.liftLast (rules.ofEmitBatch _ _ _)

theorem ofRunRoutine : Over Holds runRoutine :=
  rules.seq (rules.ofNext? _) fun _ => rules.seq (rules.ofNext _) fun _ =>
    rules.seq rules.ofTokens fun _ => rules.seq (rules.lift (rules.writing.ofTakeParameters _ _)) fun _ =>
      rules.lift (rules.ofDefineRoutine _ _ _)

theorem ofRunResult : Over Last runResult :=
  rules.ofStateLast (fun _ _ => by rw [currentRoutine?_onto]) fun _ => rules.seqLast (rules.lift (rules.ofOrFail _ _)) fun _ =>
    rules.seqLast (rules.ofNext _) fun _ => rules.seqLast (rules.lift (rules.writing.ofResultKind _)) fun _ =>
      rules.seqLast (rules.lift (rules.ofResultCounter _ _)) fun _ =>
        rules.seqLast (rules.lift (rules.ofCounters (yields_assignOperand _ _ _))) fun _ =>
          rules.liftLast (rules.ofEmitAll _ _)

theorem ofRunSelect : Over Holds runSelect := by
  apply rules.seq (rules.ofNext _); intro selector
  apply rules.lift
  apply rules.ofChange
  intro build
  split <;> exact ⟨rfl, rfl, rfl, rfl, rfl, rfl, rfl, rfl, rfl⟩

theorem ofRunHalt : Last runHalt :=
  rules.bindLast (rules.ofShare _ _) fun _ => rules.andChange (rules.ofEmit _)
    fun _ => ⟨rfl, rfl, rfl, rfl, rfl, rfl, rfl, rfl, rfl⟩

theorem ofRunRemove : Over Last runRemove := by
  apply rules.seqLast (rules.lift (rules.ofShare _ _)); intro removal
  apply rules.seqLast (rules.ofNext? _); intro selector
  cases selector with
  | some selector => exact rules.liftLast (rules.ofEmit _)
  | none => exact rules.liftLast (rules.ofAligned (rules.ofEmit _))

/-- Every directive without a body is composed of the elementary steps. -/
theorem ofRunDirective {run : Runner} {directive : Directive}
    (bodiless : directive.governs = false) : Over Last (ArgumentM.runDirective run directive) := by
  by_cases notApart : directive.isApart = false
  · exact rules.writing.ofRunDirective bodiless notApart
  cases directive with
  | define => exact rules.ofRunDefine
  | initialise => exact rules.ofRunInitialise
  | result => exact rules.ofRunResult
  | select => exact rules.overLast rules.ofRunSelect
  | routine => exact rules.overLast rules.ofRunRoutine
  | halt => exact rules.liftLast rules.ofRunHalt
  | remove => exact rules.ofRunRemove
  | _ => exact absurd rfl notApart

end Changing

end BuildM

end ScriptPack
