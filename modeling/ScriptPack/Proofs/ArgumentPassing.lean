import ScriptPack.Proofs.RoutineCalls

/-!
The parameters of a call are assigned one after the other, each once: to its argument, or to its
default where the arguments end before. An argument that is a parameter assigned before is read with
its new score, and every other one as it was before the call.
-/

namespace ScriptPack

open List

open Routine (given passAll)

theorem Routine.passAll_other {board : Scoreboard} {scores : Scores}
    {given : List (Parameter × Operand)} {objective : String}
    (unlisted : objective ∉ given.map (·.1.counter.name)) :
    passAll board scores given objective = scores objective := by
  induction given generalizing scores with
  | nil => rfl
  | cons pair given ih =>
    obtain ⟨different, others⟩ := not_or.1 (mem_cons.not.1 unlisted)
    exact (ih others).trans (Scores.put_other different)

/-- After the assignments of a call, a parameter has the score that its argument had before, unless
the argument is a parameter assigned before: then it has the one that this parameter was given. -/
theorem arguments_passed_in_order {routine : Routine} {arguments : List Operand} {board : Scoreboard}
    (integer : ∀ pair ∈ given routine.parameters arguments,
      pair.1.counter.kind.isInteger = true ∧ pair.2.IsNumber board)
    (distinct : ((given routine.parameters arguments).map (·.1.counter.name)).Nodup) :
    ∃ assignments, routine.callCommands selfTarget arguments board =
        .ok (assignments ++ [.call routine.file]) board ∧
      ∀ calls scores, ∃ final, replayAll? calls assignments scores = some final ∧
        (∀ objective ∉ (given routine.parameters arguments).map (·.1.counter.name),
          final objective = scores objective) ∧
        ∀ earlier parameter operand later,
          given routine.parameters arguments = earlier ++ (parameter, operand) :: later →
          final parameter.counter.name =
            if operand.objective? board ∈ earlier.map (some ·.1.counter.name) then
              operand.valueIn board final
            else operand.valueIn board scores := by
  obtain ⟨assignments, assigns, replays⟩ := Routine.assignParameters_passes integer
  refine ⟨assignments, (CounterM.bind_of_ok assigns).trans rfl, fun calls scores =>
    ⟨_, replays calls scores, fun objective => Routine.passAll_other, ?_⟩⟩
  intro earlier parameter operand later isGiven
  rw [isGiven] at distinct ⊢
  rw [map_append, map_cons] at distinct
  obtain ⟨-, distinctLater, apart⟩ := nodup_append.1 distinct
  let middle := passAll board scores earlier
  have whole : passAll board scores (earlier ++ (parameter, operand) :: later) =
      passAll board (middle.put parameter.counter.name (operand.valueIn board middle)) later :=
    foldl_append
  rw [whole, Routine.passAll_other (nodup_cons.1 distinctLater).1, Scores.put_same]
  split
  · next reads =>
    -- what is assigned before is not assigned again
    refine (Operand.valueIn_congr fun objective isRead => ?_).symm
    rw [isRead] at reads
    obtain ⟨pair, member, isName⟩ := mem_map.1 reads
    have different := apart objective (mem_map.2 ⟨pair, member, Option.some.inj isName⟩)
    rw [Routine.passAll_other fun listed => different _ (mem_cons_of_mem _ listed) rfl,
      Scores.put_other (different _ mem_cons_self)]
  · next reads =>
    refine Operand.valueIn_congr fun objective isRead => Routine.passAll_other fun listed => ?_
    obtain ⟨pair, member, rfl⟩ := mem_map.1 listed
    exact reads (mem_map.2 ⟨pair, member, isRead.symm⟩)

namespace ArgumentPassing

def routine : Routine := .make "f" .self [⟨⟨"a", .int⟩, none⟩, ⟨⟨"b", .int⟩, none⟩]

def board : Scoreboard := (Assignment.defining ["a", "b"]).scoreboard

end ArgumentPassing

/-- For parameters `a` and `b`, the call `f(b, a)` leaves the score of `b` in both. -/
theorem arguments_passed_in_order_swapped :
    ∃ assignments, ArgumentPassing.routine.callCommands selfTarget [.counter "b", .counter "a"]
        ArgumentPassing.board = .ok (assignments ++ [.call "f"]) ArgumentPassing.board ∧
      ∀ calls scores, ∃ final, replayAll? calls assignments scores = some final ∧
        final "a" = scores "b" ∧ final "b" = scores "b" := by
  have found : ArgumentPassing.board.get? "a" = some ⟨"a", .int⟩ ∧
      ArgumentPassing.board.get? "b" = some ⟨"b", .int⟩ := by decide
  obtain ⟨assignments, computed, replay⟩ := @arguments_passed_in_order ArgumentPassing.routine
    [.counter "b", .counter "a"] ArgumentPassing.board (forall_mem_cons.2
      ⟨⟨rfl, _, found.2, rfl⟩, forall_mem_singleton.2 ⟨rfl, _, found.1, rfl⟩⟩) (by decide)
  refine ⟨assignments, computed, fun calls scores => ?_⟩
  obtain ⟨final, replayed, -, passed⟩ := replay calls scores
  have first := passed [] _ _ _ rfl
  have second := passed [_] _ _ [] rfl
  simp only [Operand.objective?, Operand.valueIn, Scoreboard.scoreOf, found] at first second
  exact ⟨final, replayed, first, second.trans first⟩

namespace Routine

variable {parameters : List Parameter} {arguments : List Operand} {parameter : Parameter}

theorem assignParameters_eq_given (target : String) (parameters : List Parameter)
    (arguments : List Operand) :
    assignParameters target parameters arguments = (do
      let assignments ← (given parameters arguments).mapM fun pair =>
        Counter.assignOperand target pair.1.counter pair.2
      return assignments.flatten) := by
  induction parameters generalizing arguments with
  | nil => rfl
  | cons parameter parameters ih =>
    cases arguments with
    | nil => cases isDefault : parameter.default <;> simp [assignParameters, given, ih, isDefault]
    | cons argument arguments => simp [assignParameters, given, ih]

theorem defaultsAreTrailing_cons :
    defaultsAreTrailing (parameter :: parameters) = true ↔
      if parameter.default.isSome then ∀ other ∈ parameters, other.default.isSome = true
      else defaultsAreTrailing parameters = true := by
  unfold defaultsAreTrailing
  rw [dropWhile_cons]
  cases isDefault : parameter.default <;> simp [isDefault]

theorem defaultsAreTrailing_append (trailing : defaultsAreTrailing parameters = true)
    (follows : ¬(parameter.default.isNone && parameters.any (·.default.isSome)) = true) :
    defaultsAreTrailing (parameters ++ [parameter]) = true := by
  induction parameters with
  | nil => cases isDefault : parameter.default <;> simp [defaultsAreTrailing, isDefault]
  | cons first parameters ih =>
    rw [cons_append, defaultsAreTrailing_cons]
    rw [defaultsAreTrailing_cons] at trailing
    cases isDefault : first.default with
    | none =>
      simp only [isDefault, Option.isSome_none, Bool.false_eq_true, if_false] at trailing ⊢
      exact ih trailing (by simpa [isDefault] using follows)
    | some operand =>
      simp only [isDefault, Option.isSome_some, if_true] at trailing ⊢
      have last : parameter.default.isSome = true := by
        simpa [isDefault, Option.isSome_iff_ne_none] using follows
      exact fun other member => (mem_append.1 member).elim (trailing other) fun isLast =>
        eq_of_mem_singleton isLast ▸ last

theorem defaultsAreTrailing_of_forall (all : ∀ parameter ∈ parameters, parameter.default.isSome = true) :
    defaultsAreTrailing parameters = true := by
  unfold defaultsAreTrailing
  exact all_eq_true.2 fun parameter member => all parameter ((dropWhile_sublist _).subset member)

/-- Where the defaults are trailing and no required argument is missing, every parameter is given
its argument or else its default. -/
theorem exists_operands (trailing : defaultsAreTrailing parameters = true)
    (enough : (parameters.filter (·.default.isNone)).length ≤ arguments.length) :
    ∃ operands : List Operand, operands.length = parameters.length ∧
      given parameters arguments = parameters.zip operands ∧
      ∀ (i : Nat) parameter, parameters[i]? = some parameter →
        operands[i]? = arguments[i]?.or (Parameter.default parameter) := by
  induction parameters generalizing arguments with
  | nil => exact ⟨[], rfl, rfl, fun i parameter found => by simp at found⟩
  | cons parameter parameters ih =>
    rw [defaultsAreTrailing_cons] at trailing
    have step : (∃ operand, arguments.head?.or parameter.default = some operand) ∧
        defaultsAreTrailing parameters = true ∧
        (parameters.filter (·.default.isNone)).length ≤ arguments.tail.length := by
      cases isDefault : parameter.default with
      | none =>
        -- a required parameter takes one of the arguments, which the later ones do not count on
        simp only [isDefault, Option.isSome_none, Bool.false_eq_true, if_false] at trailing
        rw [filter_cons_of_pos (by rw [isDefault]; rfl)] at enough
        cases arguments with
        | nil => cases enough
        | cons argument arguments => exact ⟨⟨argument, rfl⟩, trailing, Nat.le_of_succ_le_succ enough⟩
      | some operand =>
        simp only [isDefault, Option.isSome_some, if_true] at trailing
        have none : parameters.filter (·.default.isNone) = [] :=
          filter_eq_nil_iff.2 fun other member => by
            simpa [Option.isSome_iff_ne_none] using trailing other member
        refine ⟨?_, defaultsAreTrailing_of_forall trailing, none ▸ Nat.zero_le _⟩
        cases arguments <;> exact ⟨_, rfl⟩
    obtain ⟨⟨operand, isOperand⟩, trailing, enough⟩ := step
    obtain ⟨operands, length, isGiven, each⟩ := ih trailing enough
    refine ⟨operand :: operands, congrArg _ length, ?_, fun i other found => ?_⟩
    · rw [given, isOperand, isGiven]
      rfl
    · cases i with
      | zero =>
        cases found
        rw [getElem?_cons_zero, ← isOperand, head?_eq_getElem?]
      | succ i => rw [getElem?_cons_succ, each i other found, getElem?_tail]

end Routine

namespace BuildM

variable {before after : Build}

theorem trailing_takeParameters {parameters found : List Parameter} {tokens : List Token}
    (trailing : Routine.defaultsAreTrailing parameters = true)
    (taken : takeParameters parameters tokens before = .ok found after) :
    Routine.defaultsAreTrailing found = true ∧ after.routines = before.routines := by
  fun_induction takeParameters parameters tokens generalizing before with
  | case1 parameters tokens isNext ih =>
    rw [bind_of_ok (get_apply before)] at taken
    generalize isTaken : View.takeDefinition before.scoreboard tokens = outcome at taken
    obtain problem | ⟨parameter, rest⟩ := outcome
    · cases taken
    · dsimp only at taken
      split at taken
      · cases taken
      · rename_i follows
        obtain ⟨_, board, defines, taken⟩ := bind_counters_eq_ok_iff.1 taken
        have append := Routine.defaultsAreTrailing_append trailing follows
        obtain ⟨isTrailing, same⟩ := ih before parameter rest isTaken append
          ((bind_of_ok (modify_apply _ _)).symm.trans taken)
        exact ⟨isTrailing, same⟩
  | case2 parameters tokens isLast =>
    cases taken
    exact ⟨trailing, rfl⟩

theorem addRoutine_eq_ok (adds : addRoutine routine before = .ok index after) :
    after.routines = before.routines ++ [routine] ∨
      ∃ index, before.findRoutine? routine.name = some index ∧
        after.routines = before.routines.set index routine := by
  rw [addRoutine, modifyGet_apply] at adds
  cases found : before.findRoutine? routine.name with
  | none =>
    rw [found] at adds
    cases adds
    exact .inl rfl
  | some index =>
    rw [found] at adds
    cases adds
    exact .inr ⟨index, rfl, rfl⟩

theorem defineRoutine_eq_ok (defines : defineRoutine name selector parameters before = .ok () after) :
    ∃ index middle, addRoutine (.make name selector parameters) before = .ok index middle ∧
      after.routines = middle.routines := by
  unfold defineRoutine at defines
  rw [bind_of_ok (get_apply before)] at defines
  split at defines
  · cases defines
  · obtain ⟨index, middle, added, hooked⟩ := bind_eq_ok_iff.1 defines
    cases hooked
    exact ⟨index, middle, added, rfl⟩

end BuildM

/-- A definition adds a routine, or replaces the one of its name. A call of it with arguments for
all required parameters assigns each of its parameters once, in order: the argument at its place,
or its default where the arguments end before. -/
theorem each_parameter_assigned_once {tokens rest : List Token} {before after : Build}
    (defines : ArgumentM.runRoutine tokens before = .ok ((), rest) after) :
    ∃ routine : Routine, (after.routines = before.routines ++ [routine] ∨
        ∃ index, before.findRoutine? routine.name = some index ∧
          after.routines = before.routines.set index routine) ∧
      ∀ target arguments, routine.requiredCount ≤ arguments.length →
        ∃ operands : List Operand, operands.length = routine.parameters.length ∧
          (∀ (i : Nat) parameter, routine.parameters[i]? = some parameter →
            operands[i]? = arguments[i]?.or (Parameter.default parameter)) ∧
          routine.callCommands target arguments = (do
            let assignments ← (routine.parameters.zip operands).mapM fun (parameter, operand) =>
              Counter.assignOperand target parameter.counter operand
            return assignments.flatten ++ [.call routine.file]) := by
  obtain ⟨selector, _, _, selects, named⟩ := ArgumentM.bind_eq_ok_iff.1 defines
  obtain ⟨-, rfl⟩ := EStateM.Result.ok.inj selects
  obtain ⟨name, _, _, names, follows⟩ := ArgumentM.bind_eq_ok_iff.1 named
  obtain ⟨_, -, -, rfl⟩ := ArgumentM.next_eq_ok names
  obtain ⟨_, _, _, gets, takes⟩ := ArgumentM.bind_eq_ok_iff.1 follows
  cases gets
  obtain ⟨parameters, _, middle, taken, added⟩ := ArgumentM.bind_eq_ok_iff.1 takes
  obtain ⟨taken, rfl⟩ := ArgumentM.lift_eq_ok_iff.1 taken
  obtain ⟨trailing, same⟩ := BuildM.trailing_takeParameters (by rfl) taken
  obtain ⟨adds, -⟩ := ArgumentM.lift_eq_ok_iff.1 added
  refine ⟨.make name (selector.getD .self) parameters, ?_, fun target arguments enough => ?_⟩
  · obtain ⟨_, _, added, isAfter⟩ := BuildM.defineRoutine_eq_ok adds
    have kept := BuildM.addRoutine_eq_ok added
    unfold Build.findRoutine? at kept ⊢
    rwa [same, ← isAfter] at kept
  · obtain ⟨operands, length, isGiven, each⟩ := Routine.exists_operands trailing enough
    refine ⟨operands, length, each, ?_⟩
    change Routine.assignParameters target parameters arguments >>= _ = _
    rw [Routine.assignParameters_eq_given, isGiven, bind_assoc]
    rfl

namespace ArgumentPassing

def signature : List Token :=
  [.word "f", .openParen, .word "a", .word "b", .assign none, .literal (.int 2), .closeParen].map (⟨·, 1⟩)

def start : Build :=
  { Build.start {} "main" {} with upcoming := [⟨.openBlock 0, [], 1, ""⟩] }

end ArgumentPassing

/-- The call `f(1)` of a routine with the parameters `a` and `b = 2` assigns both. -/
theorem each_parameter_assigned_once_default :
    ∃ rest after, ArgumentM.runRoutine ArgumentPassing.signature ArgumentPassing.start =
        .ok ((), rest) after ∧ ∃ routine operands,
      after.routines = [routine] ∧ routine.parameters.map (·.counter.name) = ["a", "b"] ∧
      operands.length = 2 ∧ operands[0]? = some (.literal (.int 1)) ∧
      routine.callCommands selfTarget [.literal (.int 1)] = (do
        let assignments ← (routine.parameters.zip operands).mapM fun (parameter, operand) =>
          Counter.assignOperand selfTarget parameter.counter operand
        return assignments.flatten ++ [.call routine.file]) := by
  have defined : (match ArgumentM.runRoutine ArgumentPassing.signature ArgumentPassing.start with
      | .ok _ after => after.routines.map fun routine =>
          (routine.requiredCount, routine.parameters.map (·.counter.name))
      | .error _ _ => []) = [(1, ["a", "b"])] := by
    decide +kernel
  cases ran : ArgumentM.runRoutine ArgumentPassing.signature ArgumentPassing.start with
  | error error after =>
    rw [ran] at defined
    cases defined
  | ok result after =>
    rw [ran] at defined
    obtain ⟨routine, alone | ⟨_, absent, -⟩, assigns⟩ := each_parameter_assigned_once ran
    · dsimp only at defined
      rw [alone] at defined
      obtain ⟨required, names⟩ := Prod.mk.inj (cons.inj defined).1
      obtain ⟨operands, length, each, calls⟩ := assigns selfTarget [.literal (.int 1)] required.le
      obtain ⟨first, rest, isFirst, -, -⟩ := map_eq_cons_iff.1 names
      have two : routine.parameters.length = 2 := by simpa using congrArg List.length names
      refine ⟨_, after, rfl, routine, operands, alone, names, length.trans two, ?_, calls⟩
      exact each 0 first (by rw [isFirst]; rfl)
    · cases absent

end ScriptPack
