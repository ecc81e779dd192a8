import ScriptPack.Proofs.ConditionCommands

/-!
Predicates of steps that composing preserves. Evaluating expressions and running directives are
composed of few elementary steps; what holds of these, and of a composed step whenever it holds of
the parts, holds of all of them.
-/

namespace ScriptPack

open Counter

variable {problem : Problem}

def final {ε σ α : Type} (step : EStateM ε σ α) (start : σ) : σ :=
  match step start with
  | .ok _ last => last
  | .error _ last => last

section

variable {ε σ α β : Type} {step : EStateM ε σ α} {next : α → EStateM ε σ β} {start last : σ}

theorem final_of_ok {value : α} (done : step start = .ok value last) : final step start = last := by
  rw [final, done]

theorem final_of_error {error : ε} (failed : step start = .error error last) :
    final step start = last := by
  rw [final, failed]

theorem final_bind_of_ok {value : α} (done : step start = .ok value last) :
    final (step >>= next) start = final (next value) last := by
  unfold final
  rw [bind_apply_of_ok done]

theorem final_bind_of_error {error : ε} (failed : step start = .error error last) :
    final (step >>= next) start = last := by
  unfold final
  rw [bind_apply_of_error failed]

/-- What the first step leads to and the second one keeps. -/
theorem final_bind {motive : σ → Prop} (first : motive (final step start))
    (second : ∀ value middle, step start = .ok value middle → motive middle →
      motive (final (next value) middle)) : motive (final (step >>= next) start) := by
  cases outcome : step start with
  | ok value middle =>
    rw [final_bind_of_ok outcome]
    exact second value middle outcome (final_of_ok outcome ▸ first)
  | error error middle =>
    rw [final_bind_of_error outcome]
    exact final_of_error outcome ▸ first

end

/-! ## Steps -/

namespace BuildM

/-- Two predicates of steps that composing preserves: one of steps that others may follow, and one of
steps that come last. -/
structure Closed (Holds Last : ∀ {α : Type}, BuildM α → Prop) : Prop where
  ofPure : ∀ {α : Type} (value : α), Holds (pure value)
  ofThrow : ∀ {α : Type} (error : Error), Holds (throw error : BuildM α)
  /-- What is read of the state is the same on deeper stacks. -/
  ofGet : ∀ {α : Type} {next : Build → BuildM α},
    (∀ build ground, next (build.onto ground) = next build) → (∀ build, Holds (next build)) →
    Holds (get >>= next)
  ofGetLast : ∀ {α : Type} {next : Build → BuildM α},
    (∀ build ground, next (build.onto ground) = next build) → (∀ build, Last (next build)) →
    Last (get >>= next)
  bind : ∀ {α β : Type} {step : BuildM α} {next : α → BuildM β}, Holds step →
    (∀ value, Holds (next value)) → Holds (step >>= next)
  bindLast : ∀ {α β : Type} {step : BuildM α} {next : α → BuildM β}, Holds step →
    (∀ value, Last (next value)) → Last (step >>= next)
  mapLast : ∀ {α β : Type} {step : BuildM α} {f : α → β}, Last step →
    Last (step >>= fun value => pure (f value))
  last : ∀ {α : Type} {step : BuildM α}, Holds step → Last step

namespace Closed

variable {Holds Last : ∀ {α : Type}, BuildM α → Prop} {α : Type}

section

variable (rules : Closed Holds Last)

include rules

theorem ofFail (problem : Problem) : Holds (fail problem : BuildM α) :=
  rules.ofGet (fun _ _ => rfl) fun _ => rules.ofThrow _

theorem ofOrFail (problem : Problem) (found : Option α) : Holds (orFail problem found) := by
  cases found with
  | none => exact rules.ofFail problem
  | some value => exact rules.ofPure value

theorem ofOfExcept {ε : Type} (problem : ε → Problem) (outcome : Except ε α) :
    Holds (ofExcept problem outcome) := by
  cases outcome with
  | error error => exact rules.ofFail (problem error)
  | ok value => exact rules.ofPure value

/-- Steps that others may follow are a case of steps that come last. -/
theorem self : Closed Holds Holds :=
  { rules with
    ofGetLast := rules.ofGet
    bindLast := rules.bind
    mapLast := fun holds => rules.bind holds fun _ => rules.ofPure _
    last := id }

theorem checkLast {next : PUnit → BuildM α} {condition : Prop} [Decidable condition]
    (last : Last (next ⟨⟩)) : Last (if condition then fail problem >>= next else next ⟨⟩) := by
  split
  · exact rules.bindLast (rules.ofFail _) fun _ => last
  · exact last

theorem check {next : PUnit → BuildM α} {condition : Prop} [Decidable condition]
    (holds : Holds (next ⟨⟩)) : Holds (if condition then fail problem >>= next else next ⟨⟩) :=
  rules.self.checkLast holds

theorem ofToOperands (tokens : List Token) : Holds (toOperands tokens) := by
  unfold toOperands
  induction tokens with
  | nil => exact rules.ofPure _
  | cons token rest ih =>
    rw [List.mapM_cons]
    exact rules.bind (rules.ofOrFail _ _) fun _ => rules.bind ih fun _ => rules.ofPure _

theorem ofRequireFeature (feature : Feature) : Holds (requireFeature feature) := by
  apply rules.ofGet fun _ _ => rfl
  intro build
  split
  · exact rules.ofPure _
  · exact rules.ofFail _

theorem ofFindFile (file : String) : Holds (findFile file) :=
  rules.ofGet (fun _ _ => rfl) fun _ => rules.ofOrFail _ _

theorem ofReadFile (file path : String) : Holds (readFile file path) :=
  rules.ofGet (fun _ _ => rfl) fun _ => rules.ofOfExcept _ _

end

end Closed

/-! Evaluating expressions and conditions. -/

namespace Closed

variable {Holds Last : ∀ {α : Type}, BuildM α → Prop} (rules : Closed Holds Last)
  (computes : ∀ {α : Type} {computation : CounterM α} {holds : α → Prop},
    computation.Yields holds → Holds (counters computation))
  (emits : ∀ commands word, Holds (modify (·.emitAligned commands word) : BuildM PUnit))

include rules computes emits

theorem ofEmitComputation {computation : CounterM (List Command)} {holds : List Command → Prop}
    (yields : computation.Yields holds) (word : String) : Holds (emitComputation computation word) :=
  rules.bind (computes yields) fun _ => emits _ _

theorem ofEvaluateCall (name : String) (arguments : List Operand) :
    Holds (evaluateCall name arguments) := by
  apply rules.ofGet fun _ _ => rfl; intro build
  apply rules.bind (rules.ofOrFail _ _); intro routine
  apply rules.check
  apply rules.bind (rules.ofOrFail _ _); intro result
  apply rules.bind (rules.ofEmitComputation computes emits (routine.yields_callCommands _ _) _); intro _
  apply rules.bind (computes (.temporary trivial)); intro copy
  exact rules.bind (rules.ofEmitComputation computes emits (yields_assign _ _ _ _) _)
    fun _ => rules.ofPure _

end Closed

/-- A predicate that composing preserves, and that holds of evaluating one operation. -/
structure Combining (Holds : ∀ {α : Type}, BuildM α → Prop) : Prop where
  ofPure : ∀ {α : Type} (value : α), Holds (pure value)
  bind : ∀ {α β : Type} {step : BuildM α} {next : α → BuildM β}, Holds step →
    (∀ value, Holds (next value)) → Holds (step >>= next)
  ofEvaluatePair : ∀ left op right, Holds (evaluatePair left op right)

namespace Combining

variable {Holds : ∀ {α : Type}, BuildM α → Prop} (rules : Combining Holds)

include rules

theorem ofEvaluateTier (high : Bool) (tokens : List Token) : Holds (evaluateTier high tokens) := by
  fun_induction evaluateTier high tokens with
  | case1 left operator right rest leftOperand op rightOperand start ih =>
    exact rules.bind (rules.ofEvaluatePair leftOperand op rightOperand) ih
  | case2 left operator right rest start ih => exact rules.bind ih fun _ => rules.ofPure _
  | case3 tokens short => exact rules.ofPure _

theorem ofEvaluateTiers (tokens : List Token) : Holds (evaluateTiers tokens) :=
  rules.bind (rules.ofEvaluateTier true tokens) fun products =>
    rules.ofEvaluateTier false products

theorem ofReplaceGroup (seen : List Token) (outside : Option (List Token)) (tokens : List Token) :
    Holds (replaceGroup seen outside tokens) := by
  induction tokens generalizing seen outside with
  | nil => exact rules.ofPure _
  | cons token rest ih =>
    rw [replaceGroup.eq_def]
    dsimp only
    split
    · exact ih _ _
    · apply rules.bind (rules.ofEvaluateTiers _)
      intro values
      split
      · exact rules.ofPure _
      · exact ih _ _
    · exact ih _ _

theorem ofEvaluateGroups (steps : Nat) (tokens : List Token) :
    Holds (evaluateGroups steps tokens) := by
  induction steps generalizing tokens with
  | zero => exact rules.ofPure _
  | succ steps ih =>
    apply rules.bind (rules.ofReplaceGroup [] none tokens)
    rintro ⟨others, replaced⟩
    cases replaced with
    | false => exact rules.ofPure _
    | true => exact ih others

theorem ofEvaluateArithmetic (tokens : List Token) : Holds (evaluateArithmetic tokens) :=
  rules.bind (rules.ofEvaluateGroups _ tokens) fun flat => rules.ofEvaluateTiers flat

end Combining

namespace Closed

variable {Holds Last : ∀ {α : Type}, BuildM α → Prop} (rules : Closed Holds Last)
  (pairs : ∀ left op right, Holds (evaluatePair left op right))
  (ofCall : ∀ name arguments, Holds (evaluateCall name arguments))

include rules pairs

theorem ofEvaluateArithmetic (tokens : List Token) : Holds (evaluateArithmetic tokens) :=
  Combining.ofEvaluateArithmetic ⟨rules.ofPure, rules.bind, pairs⟩ tokens

include ofCall

theorem ofEvaluateCalls (tokens : List Token) : Holds (evaluateCalls tokens) := by
  fun_induction evaluateCalls tokens with
  | case1 => exact rules.ofPure _
  | case2 first name line inner isRoutine unclosed => exact rules.ofFail _
  | case3 first name line inner isRoutine arguments after split argumentsIh afterIh =>
    apply rules.bind argumentsIh; intro evaluated
    apply rules.bind (rules.ofEvaluateArithmetic pairs _); intro values
    apply rules.bind (rules.ofToOperands _); intro operands
    apply rules.bind (ofCall _ _); intro result
    exact rules.bind afterIh fun _ => rules.ofPure _
  | case4 first rest notCall ih => exact rules.bind ih fun _ => rules.ofPure _

theorem ofPrepare (statement : Statement) : Holds (prepare statement) :=
  rules.ofGet (fun _ _ => rfl) fun _ => rules.bind (rules.ofOfExcept _ _) fun _ =>
    rules.bind (rules.ofEvaluateCalls pairs ofCall _) fun _ => rules.ofEvaluateArithmetic pairs _

end Closed

/-- A closed predicate of the elementary steps by which expressions and conditions are evaluated. -/
structure Evaluating (Holds Last : ∀ {α : Type}, BuildM α → Prop) : Prop
    extends Closed Holds Last where
  ofCounters : ∀ {α : Type} {computation : CounterM α} {holds : α → Prop},
    computation.Yields holds → Holds (counters computation)
  ofKeepTemporaries : Holds (modifyScoreboard (·.keepTemporaries))
  ofComputation : ∀ {computation : CounterM (List Command)}, computation.Yields AreLocal →
    ∀ word, Holds (emitComputation computation word)
  ofCall : ∀ name arguments, Holds (evaluateCall name arguments)

namespace Evaluating

variable {Holds Last : ∀ {α : Type}, BuildM α → Prop} (rules : Evaluating Holds Last)

include rules

theorem ofAssign (left : Counter) (op : Option ArithOp) (right : Counter) (word : String) :
    Holds (emitComputation (assign selfTarget left op right) word) :=
  rules.ofComputation (yields_assign _ _ _ _) word

theorem ofLowerInto (result left : Counter) (op : ArithOp) (right : Counter) :
    Holds (lowerInto result left op right) :=
  rules.bind (rules.ofAssign _ _ _ _) fun _ => rules.ofAssign _ _ _ _

theorem ofEvaluatePair (left : Operand) (op : ArithOp) (right : Operand) :
    Holds (evaluatePair left op right) := by
  cases left with
  | literal left =>
    cases right with
    | literal right => exact rules.bind (rules.ofOfExcept _ _) fun _ => rules.ofPure _
    | counter right =>
      apply rules.bind (rules.ofCounters (.get _)); intro right
      apply rules.bind (rules.ofCounters (CounterM.yields_temporaryFor _)); intro result
      apply rules.bind (rules.ofComputation (.pure (areLocal_setLiteral _ _ _)) _); intro _
      exact rules.bind (rules.ofAssign _ _ _ _) fun _ => rules.ofPure _
  | counter left =>
    cases right with
    | literal right =>
      apply rules.bind (rules.ofCounters (.get _)); intro left
      apply rules.bind (rules.ofCounters (CounterM.yields_temporaryFor _)); intro held
      apply rules.bind (rules.ofComputation (.pure (areLocal_setLiteral _ _ _)) _); intro _
      apply rules.bind (rules.ofCounters (.temporary trivial)); intro result
      exact rules.bind (rules.ofLowerInto _ _ _ _) fun _ => rules.ofPure _
    | counter right =>
      apply rules.bind (rules.ofCounters (.get _)); intro left
      apply rules.bind (rules.ofCounters (.get _)); intro right
      apply rules.bind (rules.ofCounters (.temporary trivial)); intro result
      exact rules.bind (rules.ofLowerInto _ _ _ _) fun _ => rules.ofPure _

theorem ofPrepare (statement : Statement) : Holds (prepare statement) :=
  rules.toClosed.ofPrepare rules.ofEvaluatePair rules.ofCall statement

/-! Conditions. -/

theorem ofTallies {α : Type} {step : BuildM α} {result : α → Prop} (tallies : Tallies .any step result) :
    Holds step := by
  induction tallies with
  | pure _ => exact rules.ofPure _
  | fail problem => exact rules.ofFail problem
  | counters draws => exact rules.ofCounters draws
  | keep => exact rules.ofKeepTemporaries
  | bind _ _ first second => exact rules.bind first second
  | mono _ _ ih => exact ih

theorem ofLowerChain (chain : List Comparison) : Holds (lowerChain chain) :=
  rules.ofGet (fun _ _ => rfl) fun _ => rules.ofTallies (tallies_lowerOnto_any _ chain)

end Evaluating

/-- A predicate of the steps by which conditions end: they guard what comes next, unless there is
nothing, by a lowered chain that fits. -/
structure Guarding (Holds Last : ∀ {α : Type}, BuildM α → Prop) (Fits : LoweredChain → Prop) : Prop where
  ofFail : ∀ problem, Last (fail problem : BuildM Unit)
  ofGet : ∀ {next : Build → BuildM Unit}, (∀ build ground, next (build.onto ground) = next build) →
    (∀ build, Last (next build)) → Last (get >>= next)
  bind : ∀ {α : Type} {step : BuildM α} {next : α → BuildM Unit}, Holds step →
    (∀ value, Last (next value)) → Last (step >>= next)
  ofRemember : ∀ {next : PUnit → BuildM Unit} (tokens : List Token), Last (next ⟨⟩) →
    Last ((modify (·.rememberCondition tokens) : BuildM PUnit) >>= next)
  ofEmitKeeping : ∀ {line : Line}, line.command.called? = none →
    Holds (modify (·.emitKeeping line) : BuildM PUnit)
  ofEmitSetup : ∀ {lowered}, Fits lowered → Holds (emitSetup lowered)
  ofLowerChain : ∀ {chain} {next : LoweredChain → BuildM Unit}, chain ≠ [] →
    (∀ lowered, Fits lowered → Last (next lowered)) → Last (lowerChain chain >>= next)
  ofSkipEmptyBody : ∀ {next : BuildM Unit}, Last next →
    Last (skipEmptyBody >>= fun skipped => if skipped = true then pure () else next)
  ofGuardNext : ∀ {lowered}, Fits lowered → Last (guardNext lowered)

namespace Guarding

variable {Holds Last Other : ∀ {α : Type}, BuildM α → Prop} {Fits : LoweredChain → Prop}
  (guards : Guarding Holds Last Fits)

include guards

theorem check {next : PUnit → BuildM Unit} {condition : Prop} [Decidable condition]
    (last : ¬condition → Last (next ⟨⟩)) :
    Last (if condition then fail problem >>= next else next ⟨⟩) := by
  split
  · exact guards.ofFail problem
  · next holds => exact last holds

theorem ofRunChain (chain : List Comparison) : Last (runChain chain) := by
  unfold runChain
  apply guards.check; intro notEmpty
  apply guards.ofSkipEmptyBody
  exact guards.ofLowerChain (mt List.isEmpty_iff.2 notEmpty) fun _ => guards.ofGuardNext

variable (rules : Evaluating Holds Other)

include rules

theorem ofRunNegatedChain (chain : List Comparison) : Last (runNegatedChain chain) := by
  rcases chain with _ | ⟨first, _ | ⟨second, rest⟩⟩
  · exact guards.ofFail _
  · unfold runNegatedChain
    exact guards.ofRunChain _
  · apply guards.ofSkipEmptyBody
    apply guards.ofGet fun _ _ => rfl; intro build
    apply guards.bind (rules.ofCounters (.temporary trivial)); intro failed
    apply guards.bind rules.ofKeepTemporaries; intro _
    apply guards.bind (guards.ofEmitKeeping rfl); intro _
    apply guards.ofLowerChain (List.cons_ne_nil _ _); intro lowered fits
    apply guards.bind (guards.ofEmitSetup fits); intro _
    exact guards.bind (guards.ofEmitKeeping rfl) fun _ => guards.ofRunChain _

theorem ofRunCondition (tokens : List Token) : Last (runCondition tokens) := by
  apply guards.ofRemember
  apply guards.bind rules.ofKeepTemporaries; intro _
  apply guards.ofGet fun _ _ => rfl; intro build
  exact guards.check fun _ => guards.bind (rules.ofOfExcept _ _) guards.ofRunChain

theorem ofRunOtherwise : Last runOtherwise := by
  apply guards.ofGet fun _ _ => rfl; intro build
  apply guards.bind (rules.ofOrFail _ _); intro tokens
  exact guards.check fun _ => guards.bind (rules.ofOfExcept _ _) (guards.ofRunNegatedChain rules)

end Guarding

end BuildM

/-! ## Arguments -/

def ArgumentM.Over (Holds : ∀ {α : Type}, BuildM α → Prop) {α : Type} (step : ArgumentM α) : Prop :=
  ∀ tokens, Holds (step.run tokens)

namespace BuildM.Closed

open ArgumentM

variable {Holds Last : ∀ {α : Type}, BuildM α → Prop} {α β : Type}

section

variable (rules : Closed Holds Last)

include rules

theorem seqLast {step : ArgumentM α} {next : α → ArgumentM β} (first : Over Holds step)
    (second : ∀ value, Over Last (next value)) : Over Last (step >>= next) :=
  fun tokens => rules.bindLast (first tokens) fun (value, rest) => second value rest

theorem seq {step : ArgumentM α} {next : α → ArgumentM β} (first : Over Holds step)
    (second : ∀ value, Over Holds (next value)) : Over Holds (step >>= next) :=
  rules.self.seqLast first second

theorem overLast {step : ArgumentM α} (holds : Over Holds step) : Over Last step :=
  fun tokens => rules.last (holds tokens)

theorem liftLast {step : BuildM α} (last : Last step) : Over Last (liftM step : ArgumentM α) :=
  fun _ => rules.mapLast last

theorem lift {step : BuildM α} (holds : Holds step) : Over Holds (liftM step : ArgumentM α) :=
  rules.self.liftLast holds

theorem overPure (value : α) : Over Holds (pure value) :=
  fun _ => rules.ofPure _

theorem refusal (problem : Problem) : Over Holds (liftM (BuildM.fail problem : BuildM α)) :=
  rules.lift (rules.ofFail problem)

theorem requireLast {next : PUnit → ArgumentM α} {condition : Prop} [Decidable condition]
    (last : Over Last (next ⟨⟩)) : Over Last
      (if condition then liftM (BuildM.fail problem : BuildM PUnit) >>= next else next ⟨⟩) := by
  split
  · exact rules.seqLast (rules.refusal _) fun _ => last
  · exact last

theorem require {next : PUnit → ArgumentM α} {condition : Prop} [Decidable condition]
    (holds : Over Holds (next ⟨⟩)) : Over Holds
      (if condition then liftM (BuildM.fail problem : BuildM PUnit) >>= next else next ⟨⟩) :=
  rules.self.requireLast holds

theorem ofTokens : Over Holds (get : ArgumentM (List Token)) :=
  fun _ => rules.ofPure _

theorem ofStateLast {next : Build → ArgumentM α}
    (same : ∀ build ground, next (build.onto ground) = next build)
    (last : ∀ build, Over Last (next build)) : Over Last (getThe Build >>= next) := by
  intro tokens
  change Last (get >>= fun build => (next build).run tokens)
  exact rules.ofGetLast (fun build ground => by rw [same]) fun build => last build tokens

theorem ofState {next : Build → ArgumentM α} (same : ∀ build ground, next (build.onto ground) = next build)
    (holds : ∀ build, Over Holds (next build)) : Over Holds (getThe Build >>= next) :=
  rules.self.ofStateLast same holds

theorem ofRead (reader : List Token → Except Problem (α × List Token)) :
    Over Holds (read reader) := by
  apply rules.seq rules.ofTokens
  intro tokens
  split
  · exact fun _ => rules.ofPure _
  · exact rules.refusal _

theorem ofNext (view : View α) : Over Holds (next view) :=
  rules.ofRead view.take

theorem ofNext? (view : View α) : Over Holds (next? view) :=
  fun _ => rules.ofPure _

theorem ofIsNext (view : View α) : Over Holds (isNext view) :=
  rules.seq rules.ofTokens fun _ => rules.overPure _

theorem ofPosition : Over Holds position :=
  rules.ofRead _

theorem ofPositionOrHere : Over Holds positionOrHere :=
  rules.seq (rules.ofNext? _) fun _ => rules.seq (rules.ofNext? _) fun _ =>
    rules.seq (rules.ofNext? _) fun _ => rules.overPure _

theorem ofName : Over Holds name :=
  rules.ofRead _

theorem ofWord? (word : String) : Over Holds (word? word) :=
  fun _ => rules.ofPure _

theorem ofLiterals : Over Holds literals :=
  rules.seq rules.ofTokens fun _ => rules.lift (rules.ofOfExcept _ _)

end

end BuildM.Closed

end ScriptPack
