import ScriptPack.Proofs.Composition

/-!
Variables that a template's call binds. The values before the call are saved one binding at a time
and given back in the opposite order, around a body that may do anything with the variables or fail.
Main result: after the body every bound name is as before the call and every other name as the body
left it.
-/

namespace ScriptPack

namespace Variables

variable (bindings : List (String × List Value)) (environment inner : Variables) (name : String)

/-- Some binding is for the variable `name`, with a dollar sign or without. -/
def IsBound : Prop :=
  ∃ binding ∈ bindings, label binding.1 = label name

instance : Decidable (IsBound bindings name) :=
  inferInstanceAs (Decidable (∃ binding ∈ bindings, label binding.1 = label name))

def lastBound? : Option (List Value) :=
  (bindings.reverse.find? fun binding => label binding.1 = label name).map Prod.snd

theorem get?_set (other : String) (values : List Value) :
    (environment.set other values).get? name =
      if label name = label other then some values else environment.get? name := by
  simp [get?, set]

theorem get?_put (other : String) (values : Option (List Value)) :
    (environment.put other values).get? name =
      if label name = label other then values else environment.get? name := by
  simp [get?, put]

theorem isBound_cons (binding : String × List Value) :
    IsBound (binding :: bindings) name ↔ label binding.1 = label name ∨ IsBound bindings name := by
  simp [IsBound]

theorem lastBound?_cons (binding : String × List Value) :
    lastBound? (binding :: bindings) name = (lastBound? bindings name).or
      (if label binding.1 = label name then some binding.2 else none) := by
  unfold lastBound?
  rw [List.reverse_cons, List.find?_append, Option.map_or]
  congr 1
  split <;> simp [*]

theorem get?_bind : (environment.bind bindings).1.get? name =
    (lastBound? bindings name).or (environment.get? name) := by
  induction bindings generalizing environment with
  | nil => rfl
  | cons binding rest ih =>
    have step := ih (environment.set binding.1 binding.2)
    rw [get?_set] at step
    rw [lastBound?_cons, Option.or_assoc]
    refine step.trans ?_
    by_cases same : label binding.1 = label name
    · rw [if_pos same, if_pos same.symm]
      rfl
    · rw [if_neg same, if_neg (Ne.symm same), Option.none_or]

theorem templates_bind : (environment.bind bindings).1.templates = environment.templates := by
  induction bindings generalizing environment with
  | nil => rfl
  | cons binding rest ih => exact ih _

-- Each saved value is the one before its own binding: for a repeated name only the first binding's
-- is the value before the call, and it is the last to be given back.
theorem get?_restore : (inner.restore (environment.bind bindings).2).get? name =
    if IsBound bindings name then environment.get? name else inner.get? name := by
  induction bindings generalizing environment with
  | nil => simp [bind, restore, IsBound]
  | cons binding rest ih =>
    have step := ih (environment.set binding.1 binding.2)
    rw [get?_set] at step
    rw [bind, restore, get?_put, step]
    by_cases same : label binding.1 = label name
    · rw [if_pos same.symm, if_pos ((isBound_cons _ _ _).2 (.inl same)), get?, get?, same]
    · simp only [isBound_cons, same, Ne.symm same, false_or, if_false]

theorem templates_restore (saved : List (String × Option (List Value))) :
    (inner.restore saved).templates = inner.templates := by
  induction saved with
  | nil => rfl
  | cons entry rest ih => exact ih

end Variables

open Variables

theorem VariableM.get_apply (name : String) (environment : Variables) :
    VariableM.get name environment = match environment.get name with
      | .ok values => .ok values environment
      | .error error => .error error environment := by
  have reads : (getThe Variables : VariableM Variables) environment = .ok environment environment := rfl
  rw [VariableM.get, bind_apply_of_ok reads]
  cases environment.get name <;> rfl

namespace BuildM

/-- The state in which a body runs that is called in `before`: only variables differ, and each bound
one has the values of its last binding. -/
structure Binds (bindings : List (String × List Value)) (before bound : Build) : Prop where
  others : bound = { before with environment := bound.environment }
  templates : bound.environment.templates = before.environment.templates
  values (name : String) : bound.environment.get? name =
    (lastBound? bindings name).or (before.environment.get? name)

/-- The state after a body that is called in `before` and ends in `inner`: bound variables are as
before the call, everything else is as the body left it. -/
structure Unbinds (bindings : List (String × List Value)) (before inner after : Build) : Prop where
  others : after = { inner with environment := after.environment }
  templates : after.environment.templates = inner.environment.templates
  values (name : String) : after.environment.get? name =
    if Variables.IsBound bindings name then before.environment.get? name
    else inner.environment.get? name

theorem binds_bind (bindings : List (String × List Value)) (before : Build) :
    Binds bindings before { before with environment := (before.environment.bind bindings).1 } where
  others := rfl
  templates := templates_bind bindings before.environment
  values := get?_bind bindings before.environment

theorem unbinds_restore (bindings : List (String × List Value)) (before inner : Build) :
    Unbinds bindings before inner { inner with
      environment := inner.environment.restore (before.environment.bind bindings).2 } where
  others := rfl
  templates := templates_restore inner.environment _
  values := get?_restore bindings before.environment inner.environment

/-! The arguments of a call are read before anything is bound. -/

theorem final_templateArgument (parameter : String) (token : Token) (before : Build) :
    final (templateArgument parameter token) before = before := by
  unfold templateArgument
  split
  case h_1 name _ =>
    rw [final, environment_eq, EStateM.run, VariableM.get_apply]
    cases before.environment.get name <;> rfl
  case h_4 => cases View.identifier.view? token.kind <;> rfl
  all_goals rfl

theorem templateArguments_cases (parameters : List String) (tokens : List Token) (before : Build) :
    (∃ error, templateArguments parameters tokens before = .error error before) ∨
      ∃ bindings, bindings.map Prod.fst = parameters ∧
        templateArguments parameters tokens before = .ok bindings before := by
  induction parameters generalizing tokens with
  | nil => exact .inr ⟨[], rfl, rfl⟩
  | cons parameter parameters ih =>
    cases tokens with
    | nil => exact .inl ⟨_, rfl⟩
    | cons token rest =>
      have read := final_templateArgument parameter token before
      cases found : templateArgument parameter token before with
      | error error after =>
        rw [final_of_error found] at read
        subst read
        exact .inl ⟨error, bind_apply_of_error found⟩
      | ok values after =>
        rw [final_of_ok found] at read
        subst read
        obtain ⟨error, failed⟩ | ⟨bindings, names, done⟩ := ih rest
        · exact .inl ⟨error, (bind_apply_of_ok found).trans (bind_apply_of_error failed)⟩
        · refine .inr ⟨(parameter, values) :: bindings, by rw [List.map_cons, names], ?_⟩
          exact (bind_apply_of_ok found).trans (bind_apply_of_ok done)

/-- With names bound, possibly the same one again, any body runs in a state where each has the values
last bound to it; whatever the body does and however it ends, every bound name is then as before and
every other one as the body left it. A call of a template fails where it is, or runs the template's
body in this way with its parameters bound. -/
theorem shadowed_variables_restored :
    (∀ (bindings : List (String × List Value)) (body : BuildM Unit) (before : Build),
      ∃ bound, Binds bindings before bound ∧ match body bound with
        | .ok _ inner => ∃ after, Unbinds bindings before inner after ∧
            withBindings bindings body before = .ok () after
        | .error error inner => ∃ after, Unbinds bindings before inner after ∧
            withBindings bindings body before = .error error after) ∧
      ∀ (run : List Statement → BuildM Unit) (name : String) (tokens : List Token) (before : Build),
        (∃ error, callTemplate run name tokens before = .error error before) ∨
          ∃ template bindings, before.environment.templates.get? name = some template ∧
            bindings.map Prod.fst = template.parameters ∧
            callTemplate run name tokens before = withBindings bindings (run template.body) before := by
  constructor
  · intro bindings body before
    refine ⟨_, binds_bind bindings before, ?_⟩
    have opened : withBindings bindings body before = always body (fun build => { build with
        environment := build.environment.restore (before.environment.bind bindings).2 })
        { before with environment := (before.environment.bind bindings).1 } := rfl
    rw [opened, always]
    cases body _ with
    | ok result inner => exact ⟨_, unbinds_restore bindings before inner, rfl⟩
    | error error inner => exact ⟨_, unbinds_restore bindings before inner, rfl⟩
  · intro run name tokens before
    have looked : callTemplate run name tokens before =
        (orFail (.unknownTemplate name) (before.environment.templates.get? name) >>= fun template =>
          templateArguments template.parameters tokens >>= fun bindings =>
            withBindings bindings (run template.body)) before := rfl
    cases known : before.environment.templates.get? name with
    | none => exact .inl ⟨_, looked.trans (by rw [known]; rfl)⟩
    | some template =>
      have opened : callTemplate run name tokens before = (templateArguments template.parameters tokens >>=
          fun bindings => withBindings bindings (run template.body)) before :=
        looked.trans (by rw [known]; rfl)
      obtain ⟨error, failed⟩ | ⟨bindings, names, done⟩ :=
        templateArguments_cases template.parameters tokens before
      · exact .inl ⟨error, opened.trans (bind_apply_of_error failed)⟩
      · exact .inr ⟨template, bindings, rfl, names, opened.trans (bind_apply_of_ok done)⟩

end BuildM

end ScriptPack
