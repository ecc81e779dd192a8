import ScriptPack.Proofs.Steps

/-!
Computations on counters and the commands that they give. A computation looks counters up, asks for
temporaries and puts commands together that set, change and combine scores. What it does to the
scoreboard and what its commands may touch is proved here once, whatever is known of the counters that
it meets.
-/

namespace ScriptPack

open Counter CounterM List

/-! ## Commands on scores -/

/-- Which scores may be written and which may be read. -/
structure Access where
  writes : String → Prop
  reads : String → Prop

namespace Access

def any : Access :=
  ⟨fun _ => True, fun _ => True⟩

def Uses (access : Access) (score : String) : Prop :=
  access.writes score ∧ access.reads score

def Owns (access : Access) (scores : List String) : Prop :=
  ∀ score ∈ scores, access.Uses score

def Reads (access : Access) (scores : List String) : Prop :=
  ∀ score ∈ scores, access.reads score

variable {access : Access} {scores others : List String}

theorem Owns.reads (owns : access.Owns scores) : access.Reads scores :=
  fun score member => (owns score member).2

theorem owns_any : any.Owns scores :=
  fun _ _ => ⟨trivial, trivial⟩

theorem owns_append : access.Owns (scores ++ others) ↔ access.Owns scores ∧ access.Owns others :=
  forall_mem_append

end Access

/-- A command that sets, changes or combines scores of the target. -/
inductive Command.OnScores (target : String) (access : Access) : Command → Prop where
  | set {score : String} (value : Int32) (writes : access.writes score) :
      OnScores target access (.scoreSet target score value)
  | change {score : String} (amount : Int32) (writes : access.writes score) :
      OnScores target access (change target score amount)
  | combine {left right : String} (op : Option ArithOp) (writes : access.writes left)
      (reads : access.reads right) : OnScores target access (combine target left op right)

def AllOnScores (target : String) (access : Access) (commands : List Command) : Prop :=
  ∀ command ∈ commands, command.OnScores target access

section AllOnScores

variable {target : String} {access : Access} {command : Command} {commands others : List Command}

theorem allOnScores_nil : AllOnScores target access [] :=
  forall_mem_nil _

theorem allOnScores_cons : AllOnScores target access (command :: commands) ↔
    command.OnScores target access ∧ AllOnScores target access commands :=
  forall_mem_cons

theorem allOnScores_append : AllOnScores target access (commands ++ others) ↔
    AllOnScores target access commands ∧ AllOnScores target access others :=
  forall_mem_append

end AllOnScores

/-! ## Computations -/

namespace CounterM

/-- What holds of the counters that a computation looks up, gets as temporaries and defines, and of the
kinds that it asks temporaries of. -/
structure Sources where
  found : Counter → Prop
  fresh : Counter → Prop
  defined : Counter → Prop
  asked : CounterKind → Prop

def Sources.any : Sources :=
  ⟨fun _ => True, fun _ => True, fun _ => True, fun _ => True⟩

/-- Computations that look counters up, define some and ask for temporaries, with results of a kind.
What is known of a value does not decide how the computation goes on, only what its result is. -/
inductive Draws (sources : Sources) : {α : Type} → CounterM α → (α → Prop) → Prop where
  | pure {α : Type} {value : α} {holds : α → Prop} (isValue : holds value) :
      Draws sources (Pure.pure value) holds
  | throw {α : Type} {holds : α → Prop} (error : CounterError) :
      Draws sources (MonadExcept.throw error : CounterM α) holds
  | get (accessor : String) : Draws sources (get accessor) sources.found
  | define {counter : Counter} (isDefined : sources.defined counter) :
      Draws sources (define counter) fun _ => True
  | temporary {kind : CounterKind} (isAsked : sources.asked kind) :
      Draws sources (temporary kind) fun counter => sources.fresh counter ∧ counter.kind = kind
  | bind {α β : Type} {computation : CounterM α} {next : α → CounterM β} {holds : α → Prop}
      {result : β → Prop} (first : Draws sources computation holds)
      (second : ∀ value, Draws sources (next value) fun last => holds value → result last) :
      Draws sources (computation >>= next) result
  | mono {α : Type} {computation : CounterM α} {holds wider : α → Prop}
      (draws : Draws sources computation holds) (le : ∀ value, holds value → wider value) :
      Draws sources computation wider

/-- How scoreboards change on the way to the last one, and what is then known of the counters. -/
structure Sources.Sound (sources : Sources) (holds : Scoreboard → Prop)
    (leads : Scoreboard → Scoreboard → Prop) (last : Scoreboard) : Prop where
  refl : ∀ board, leads board board
  trans : ∀ {first second third}, leads first second → leads second third → leads first third
  get : ∀ {board accessor counter}, holds board → leads board last →
    board.get? accessor = some counter → sources.found counter
  temporary : ∀ {board kind}, sources.asked kind → holds board →
    holds (board.temporary kind).2 ∧ leads board (board.temporary kind).2 ∧
      (leads (board.temporary kind).2 last → sources.fresh (board.temporary kind).1)
  define : ∀ {board counter}, sources.defined counter → holds board →
    holds (board.addCounter counter) ∧ leads board (board.addCounter counter)

variable {sources : Sources} {holds : Scoreboard → Prop} {leads : Scoreboard → Scoreboard → Prop}
  {last : Scoreboard}

theorem Draws.of_ok {α : Type} {computation : CounterM α} {result : α → Prop}
    (draws : Draws sources computation result) (sound : sources.Sound holds leads last)
    {board later : Scoreboard} {value : α} (start : holds board)
    (ran : computation board = .ok value later) :
    holds later ∧ leads board later ∧ (leads later last → result value) := by
  induction draws generalizing board later with
  | pure isValue =>
    cases ran
    exact ⟨start, sound.refl _, fun _ => isValue⟩
  | throw error => cases ran
  | get accessor =>
    obtain ⟨found, rfl⟩ := get_eq_ok_iff.1 ran
    exact ⟨start, sound.refl _, fun ends => sound.get start ends found⟩
  | define isDefined =>
    obtain rfl := define_eq_ok ran
    obtain ⟨held, grown⟩ := sound.define isDefined start
    exact ⟨held, grown, fun _ => trivial⟩
  | temporary isAsked =>
    cases ran
    obtain ⟨held, grown, fresh⟩ := sound.temporary isAsked start
    exact ⟨held, grown, fun ends => ⟨fresh ends, rfl⟩⟩
  | bind _ _ first second =>
    obtain ⟨between, middle, ranFirst, ranSecond⟩ := bind_eq_ok_iff.1 ran
    obtain ⟨held, grown, isBetween⟩ := first start ranFirst
    obtain ⟨heldLast, grownLast, isResult⟩ := second between held ranSecond
    exact ⟨heldLast, sound.trans grown grownLast,
      fun ends => isResult ends (isBetween (sound.trans grownLast ends))⟩
  | mono _ le ih =>
    obtain ⟨held, grown, isValue⟩ := ih start ran
    exact ⟨held, grown, fun ends => le _ (isValue ends)⟩

end CounterM

/-! ## Assignments -/

def CounterKind.isSimple : CounterKind → Bool
  | .record _ _ => false
  | _ => true

namespace Counter

open CounterM (Sources Draws)

variable {sources : Sources} {access : Access} {target : String} {counter : Counter}

def ownScores (counter : Counter) : List String :=
  match counter.kind with
  | .decimal _ => [counter.whole, counter.part]
  | _ => [counter.name]

theorem name_mem_objectives (whole : counter.kind.isIntegerLike = true) :
    counter.name ∈ counter.objectives := by
  obtain ⟨name, kind⟩ := counter
  cases kind <;> first | exact mem_singleton_self _ | cases whole

theorem ownScores_eq (simple : counter.kind.isSimple = true) : counter.ownScores = counter.objectives := by
  obtain ⟨name, kind⟩ := counter
  cases kind <;> first | rfl | cases simple

theorem fieldObjectives_subset {name : String} {fields : List (String × String × CounterKind)}
    {field : String × String × CounterKind} (member : field ∈ fields) :
    objectivesOf (name ++ ":" ++ field.2.1) field.2.2 ⊆ fieldObjectives name fields := by
  induction fields with
  | nil => cases member
  | cons first rest ih =>
    rw [fieldObjectives]
    obtain rfl | member := mem_cons.1 member
    · exact subset_append_left _ _
    · exact Subset.trans (ih member) (subset_append_right _ _)

theorem objectives_subset_of_mem_fields {field : Counter} (member : field ∈ counter.fields) :
    field.objectives ⊆ counter.objectives := by
  obtain ⟨name, kind⟩ := counter
  cases kind with
  | record recordName fields =>
    obtain ⟨entry, isEntry, rfl⟩ := mem_map.1 member
    exact fieldObjectives_subset isEntry
  | int | time | decimal | bool => cases member

theorem allOnScores_setLiteral (writes : ∀ score ∈ counter.objectives, access.writes score)
    (literal : Value) : AllOnScores target access (counter.setLiteral target literal) := by
  obtain ⟨name, kind⟩ := counter
  have single (isOwn : access.writes name) (value : Int32) :
      AllOnScores target access [.scoreSet target name value] :=
    forall_mem_singleton.2 (.set value isOwn)
  cases kind with
  | int | time | bool =>
    have isOwn : access.writes name := writes name (mem_singleton_self _)
    cases literal <;> first | exact single isOwn _ | exact allOnScores_nil
  | decimal precision =>
    have both (whole part : Int32) : AllOnScores target access
        [.scoreSet target (⟨name, .decimal precision⟩ : Counter).whole whole,
          .scoreSet target (⟨name, .decimal precision⟩ : Counter).part part] :=
      allOnScores_cons.2 ⟨.set _ (writes _ mem_cons_self), forall_mem_singleton.2
        (.set _ (writes _ (mem_cons_of_mem _ (mem_singleton_self _))))⟩
    cases literal <;> first | exact both _ _ | exact allOnScores_nil
  | record recordName fields => exact allOnScores_nil

def Fills (target : String) (access : Access) (filled : String × List Command) : Prop :=
  access.Uses filled.1 ∧ AllOnScores target access filled.2

section

variable (asks : sources.asked .int)
  (owns : ∀ counter, sources.fresh counter → access.Owns counter.objectives)

include asks owns

theorem draws_scratch : Draws sources (temporary .int) fun counter =>
    access.Uses counter.name := by
  refine (Draws.temporary asks).mono ?_
  rintro ⟨name, kind⟩ ⟨fresh, rfl⟩
  exact owns _ fresh name (mem_singleton_self _)

theorem draws_constant (value : Int32) :
    Draws sources (constant target value) (Fills target access) :=
  (draws_scratch asks owns).bind fun _ => .pure fun isOwn =>
    ⟨isOwn, forall_mem_singleton.2 (.set value isOwn.1)⟩

theorem draws_toFixed (counter : Counter) (precision : Nat) (unit : String) :
    Draws sources (toFixed target counter precision unit) fun filled =>
      access.Reads counter.ownScores → access.reads unit → Fills target access filled := by
  obtain ⟨name, kind⟩ := counter
  refine (draws_scratch asks owns).bind fun fixed => ?_
  cases kind with
  | decimal own =>
    refine (draws_scratch asks owns).bind fun part => ?_
    let commands (scale : List Command) : List Command :=
      [combine target fixed.name none (whole ⟨name, .decimal own⟩),
        combine target fixed.name (some .mul) unit,
        combine target part.name none (Counter.part ⟨name, .decimal own⟩)] ++ scale ++
      [combine target fixed.name (some .add) part.name]
    have finished {scale : List Command} (isScale : access.Uses part.name →
        AllOnScores target access scale) (isPart : access.Uses part.name)
        (isFixed : access.Uses fixed.name)
        (reads : access.Reads (ownScores ⟨name, .decimal own⟩)) (isUnit : access.reads unit) :
        Fills target access (fixed.name, commands scale) := by
      have isWhole := reads _ mem_cons_self
      have isOwnPart := reads _ (mem_cons_of_mem _ (mem_singleton_self _))
      refine ⟨isFixed, ?_⟩
      simp only [commands, allOnScores_append, allOnScores_cons, allOnScores_nil, and_true]
      exact ⟨⟨⟨.combine _ isFixed.1 isWhole, .combine _ isFixed.1 isUnit,
        .combine _ isPart.1 isOwnPart⟩, isScale isPart⟩, .combine _ isFixed.1 isPart.2⟩
    have scaled (value : Int32) (op : ArithOp) : Draws sources (do
        let loaded ← constant target value
        pure (fixed.name, commands (loaded.2 ++ [combine target part.name (some op) loaded.1]))) fun filled =>
          access.Uses part.name →
          access.Uses fixed.name →
          access.Reads (ownScores ⟨name, .decimal own⟩) → access.reads unit →
            Fills target access filled :=
      (draws_constant asks owns value).bind fun _ => .pure fun fills => finished fun isPart =>
        allOnScores_append.2 ⟨fills.2, forall_mem_singleton.2 (.combine _ isPart.1 fills.1.2)⟩
    dsimp only
    split
    · exact .pure (finished fun _ => allOnScores_nil)
    · split
      · exact scaled _ _
      · exact scaled _ _
  | int | time | bool | record =>
    refine .pure fun isFixed reads isUnit => ⟨isFixed, ?_⟩
    exact allOnScores_cons.2 ⟨.combine _ isFixed.1 (reads _ (mem_singleton_self _)),
      forall_mem_singleton.2 (.combine _ isFixed.1 isUnit)⟩

theorem draws_fixedPoint (counter : Counter) (precision : Nat) :
    Draws sources (fixedPoint target counter precision) fun filled =>
      access.Reads counter.ownScores → Fills target access filled := by
  refine (draws_constant asks owns _).bind fun unit => ?_
  refine (draws_toFixed asks owns counter precision _).bind fun fixed => ?_
  refine .pure fun isFilled isUnit reads => ?_
  obtain ⟨isFixed, commands⟩ := isFilled reads isUnit.1.2
  exact ⟨isFixed, allOnScores_append.2 ⟨isUnit.2, commands⟩⟩

end

theorem Fills.append {filled : String × List Command} {commands : List Command}
    (fills : Fills target access filled) (isOn : AllOnScores target access commands) :
    AllOnScores target access (filled.2 ++ commands) :=
  allOnScores_append.2 ⟨fills.2, isOn⟩

theorem draws_fixedOperation {fixed unit : String} (op : Option ArithOp) (right : Counter)
    {load : CounterM (String × List Command)} {given : Prop}
    (loads : Draws sources load fun filled => given → Fills target access filled) :
    Draws sources (fixedOperation target fixed unit op right load) fun commands =>
      given → access.Reads right.ownScores → access.writes fixed → access.reads unit →
        AllOnScores target access commands := by
  have one (op : Option ArithOp) {score : String} (isFixed : access.writes fixed)
      (isScore : access.reads score) : AllOnScores target access [combine target fixed op score] :=
    forall_mem_singleton.2 (.combine op isFixed isScore)
  have both (op other : ArithOp) {first second : String} (isFixed : access.writes fixed)
      (isFirst : access.reads first) (isSecond : access.reads second) : AllOnScores target access
        [combine target fixed (some op) first, combine target fixed (some other) second] :=
    allOnScores_cons.2 ⟨.combine _ isFixed isFirst, one _ isFixed isSecond⟩
  obtain ⟨name, kind⟩ := right
  cases op with
  | none =>
    exact loads.bind fun _ => .pure fun fills isGiven _ isFixed _ =>
      (fills isGiven).append (one none isFixed (fills isGiven).1.2)
  | some op =>
    cases op with
    | add | sub | mod =>
      exact loads.bind fun _ => .pure fun fills isGiven _ isFixed _ =>
        (fills isGiven).append (one _ isFixed (fills isGiven).1.2)
    | mul =>
      cases kind with
      | decimal own =>
        exact loads.bind fun _ => .pure fun fills isGiven _ isFixed isUnit =>
          (fills isGiven).append (both _ _ isFixed (fills isGiven).1.2 isUnit)
      | int | time | bool | record =>
        exact .pure fun _ reads isFixed _ => one _ isFixed (reads _ (mem_singleton_self _))
    | div =>
      cases kind with
      | decimal own =>
        exact loads.bind fun _ => .pure fun fills isGiven _ isFixed isUnit =>
          (fills isGiven).append (both _ _ isFixed isUnit (fills isGiven).1.2)
      | int | time | bool | record =>
        exact .pure fun _ reads isFixed _ => one _ isFixed (reads _ (mem_singleton_self _))

section

variable (asks : ∀ kind : CounterKind, kind.isSimple = true → sources.asked kind)
  (owns : ∀ counter, sources.fresh counter → access.Owns counter.objectives)

include asks owns

theorem draws_assignFixed {precision : Nat} (left : String) (op : Option ArithOp) (right : Counter) :
    Draws sources (assignFixed target ⟨left, .decimal precision⟩ precision op right) fun commands =>
      access.Owns (objectivesOf left (.decimal precision)) → access.Reads right.ownScores →
        AllOnScores target access commands := by
  have asks := asks .int rfl
  refine (draws_constant asks owns _).bind fun unit => ?_
  refine (draws_toFixed asks owns _ precision _).bind fun fixed => ?_
  have loads : Draws sources (toFixed target right precision unit.1) fun filled =>
      access.reads unit.1 ∧ access.Reads right.ownScores → Fills target access filled :=
    (draws_toFixed asks owns right precision _).mono fun _ fills given => fills given.2 given.1
  refine (draws_fixedOperation op right loads).bind fun operation => ?_
  refine .pure fun isOperation isFixed isUnit isOwn reads => ?_
  obtain ⟨⟨writesFixed, readsFixed⟩, loads⟩ := isFixed (Access.Owns.reads isOwn) isUnit.1.2
  have operates := isOperation ⟨isUnit.1.2, reads⟩ reads writesFixed isUnit.1.2
  obtain ⟨whole, -⟩ := isOwn _ mem_cons_self
  obtain ⟨part, -⟩ := isOwn _ (mem_cons_of_mem _ (mem_singleton_self _))
  simp only [allOnScores_append, allOnScores_cons, allOnScores_nil, and_true]
  exact ⟨⟨⟨isUnit.2, loads⟩, operates⟩, .combine _ whole readsFixed, .combine _ whole isUnit.1.2,
    .combine _ part readsFixed, .combine _ part isUnit.1.2⟩

theorem draws_assignDecimal {precision : Nat} (left : String) (op : Option ArithOp) (right : Counter) :
    Draws sources (assignDecimal target ⟨left, .decimal precision⟩ precision op right) fun commands =>
      access.Owns (objectivesOf left (.decimal precision)) → access.Reads right.ownScores →
        AllOnScores target access commands := by
  obtain ⟨name, kind⟩ := right
  have whole (op : Option ArithOp) (isOwn : access.Owns (objectivesOf left (.decimal precision)))
      (reads : access.Reads [name]) : Command.OnScores target access
        (combine target (whole ⟨left, .decimal precision⟩) op name) :=
    .combine op (isOwn _ mem_cons_self).1 (reads _ (mem_singleton_self _))
  cases kind with
  | decimal own => exact draws_assignFixed asks owns left op _
  | int | time | bool | record =>
    cases op with
    | none =>
      refine .pure fun isOwn reads => allOnScores_cons.2 ⟨whole none isOwn reads, ?_⟩
      exact forall_mem_singleton.2 (.set 0 (isOwn _ (mem_cons_of_mem _ (mem_singleton_self _))).1)
    | some op =>
      cases op with
      | add | sub =>
        exact .pure fun isOwn reads => forall_mem_singleton.2 (whole (some _) isOwn reads)
      | mul | div | mod => exact draws_assignFixed asks owns left _ _

set_option linter.unusedSectionVars false in
mutual

theorem draws_assignKinds (op : Option ArithOp) (left : String) : (leftKind : CounterKind) →
    (right : Counter) → Draws sources (assignKinds target op left leftKind right) fun commands =>
      access.Owns (objectivesOf left leftKind) → access.Reads right.objectives →
        AllOnScores target access commands
  | .record name fields, ⟨rightName, rightKind⟩ => by
    unfold assignKinds
    cases rightKind with
    | record other otherFields =>
      dsimp only
      split
      · exact (draws_assignFields op left fields _).mono fun _ isOn isOwn reads =>
          isOn isOwn fun right member score inside =>
            reads score (objectives_subset_of_mem_fields member inside)
      · exact .throw _
    | int | time | bool | decimal => exact .throw _
  | .decimal precision, ⟨rightName, rightKind⟩ => by
    unfold assignKinds
    cases rightKind with
    | record other otherFields => exact .throw _
    | int | time | bool | decimal => exact draws_assignDecimal asks owns left op _
  | .int, ⟨rightName, rightKind⟩
  | .time, ⟨rightName, rightKind⟩
  | .bool, ⟨rightName, rightKind⟩ => by
    unfold assignKinds
    cases rightKind with
    | record other otherFields => exact .throw _
    | int | time | bool | decimal =>
      exact .pure fun isOwn reads => forall_mem_singleton.2
        (.combine op (isOwn _ (mem_singleton_self _)).1 (reads _ mem_cons_self))

theorem draws_assignFields (op : Option ArithOp) (left : String) :
    (fields : List (String × String × CounterKind)) → (rights : List Counter) →
      Draws sources (assignFields target op left fields rights) fun commands =>
        access.Owns (fieldObjectives left fields) → (∀ right ∈ rights, access.Reads right.objectives) →
          AllOnScores target access commands
  | (_, key, kind) :: rest, right :: rights => by
    unfold assignFields
    refine (draws_assignKinds op _ kind right).bind fun commands => ?_
    refine (draws_assignFields op left rest rights).bind fun others => ?_
    refine .pure fun isOthers isFirst isOwn reads => ?_
    obtain ⟨ownFirst, ownRest⟩ := Access.owns_append.1 isOwn
    obtain ⟨readsFirst, readsRest⟩ := forall_mem_cons.1 reads
    exact allOnScores_append.2 ⟨isFirst ownFirst readsFirst, isOthers ownRest readsRest⟩
  | [], _ => by
    unfold assignFields
    exact .pure fun _ _ => allOnScores_nil
  | _ :: _, [] => by
    unfold assignFields
    exact .pure fun _ _ => allOnScores_nil

end

/-- An assignment writes scores of the left counter and of temporaries, and reads those of both. -/
theorem draws_assign (left : Counter) (op : Option ArithOp) (right : Counter) :
    Draws sources (assign target left op right) fun commands => access.Owns left.objectives →
      access.Reads right.objectives → AllOnScores target access commands :=
  draws_assignKinds asks owns op left.name left.kind right

theorem draws_assignLiteral (left : Counter) (op : Option ArithOp) (literal : Value) :
    Draws sources (assignLiteral target left op literal) fun commands =>
      access.Owns left.objectives → AllOnScores target access commands := by
  obtain ⟨name, kind⟩ := left
  unfold assignLiteral
  cases op with
  | none => exact .pure fun isOwn => allOnScores_setLiteral (fun score member => (isOwn score member).1) _
  | some op =>
    have changed (integerLike : kind.isIntegerLike = true) (amount : Int32) :
        Draws sources (pure [change target name amount] : CounterM (List Command)) fun commands =>
          access.Owns (objectivesOf name kind) → AllOnScores target access commands := by
      refine .pure fun isOwn => forall_mem_singleton.2 (.change amount (isOwn name ?_).1)
      cases kind with
      | int | time | bool => exact mem_singleton_self _
      | decimal | record => cases integerLike
    have held (simple : kind.isSimple = true) : Draws sources (do
        let temporary ← temporary kind
        let commands ← assign target ⟨name, kind⟩ (some op) temporary
        return temporary.setLiteral target literal ++ commands) fun commands =>
          access.Owns (objectivesOf name kind) → AllOnScores target access commands := by
      refine (Draws.temporary (asks kind simple)).bind fun temporary => ?_
      refine (draws_assign asks owns _ _ _).bind fun commands => .pure fun isOn ⟨fresh, _⟩ isOwn => ?_
      have temporaryOwn := owns temporary fresh
      exact allOnScores_append.2 ⟨allOnScores_setLiteral
        (fun score member => (temporaryOwn score member).1) literal, isOn isOwn temporaryOwn.reads⟩
    cases kind with
    | record recordName fields => exact .throw _
    | int | time | bool | decimal =>
      dsimp only
      split
      · exact .throw _
      · split
        · exact .throw _
        · split
          · exact changed (And.right ‹_›) _
          · split
            · exact changed (And.right ‹_›) _
            · exact held rfl

variable (knows : ∀ counter, sources.found counter → access.Owns counter.objectives)

include knows

theorem draws_assignOperand (left : Counter) (operand : Operand) :
    Draws sources (assignOperand target left operand) fun commands =>
      access.Owns left.objectives → AllOnScores target access commands := by
  cases operand with
  | literal literal => exact draws_assignLiteral asks owns left none literal
  | counter accessor =>
    exact (Draws.get accessor).bind fun right => (draws_assign asks owns left none right).mono
      fun _ isOn found isOwn => isOn isOwn (knows right found).reads

end

end Counter

section

open CounterM (Sources Draws)

variable {sources : Sources} {access : Access} {target : String}
  (asks : ∀ kind : CounterKind, kind.isSimple = true → sources.asked kind)
  (owns : ∀ counter, sources.fresh counter → access.Owns counter.objectives)
  (knows : ∀ counter, sources.found counter → access.Owns counter.objectives)

include asks owns knows

theorem Assignment.draws_commands (assignment : Assignment) :
    Draws sources assignment.commands (AllOnScores selfTarget access) := by
  refine (Draws.get _).bind fun left => ?_
  split
  · exact (draws_assignLiteral asks owns left _ _).mono fun _ isOn found => isOn (knows left found)
  · exact (Draws.get _).bind fun right => (draws_assign asks owns left _ right).mono
      fun _ isOn found isLeft => isOn (knows left isLeft) (knows right found).reads

theorem Routine.draws_assignParameters (parameters : List Parameter) (arguments : List Operand) :
    Draws sources (assignParameters target parameters arguments) fun commands =>
      (∀ parameter ∈ parameters, access.Owns parameter.counter.objectives) →
        AllOnScores target access commands := by
  induction parameters generalizing arguments with
  | nil => exact .pure fun _ => allOnScores_nil
  | cons parameter parameters ih =>
    unfold assignParameters
    have continued (commands : List Command) : Draws sources (do
        return commands ++ (← assignParameters target parameters arguments.tail)) fun all =>
          (access.Owns parameter.counter.objectives → AllOnScores target access commands) →
          (∀ other ∈ parameter :: parameters, access.Owns other.counter.objectives) →
            AllOnScores target access all := by
      refine (ih _).bind fun others => .pure fun isOthers isOn isOwn => ?_
      obtain ⟨ownFirst, ownRest⟩ := forall_mem_cons.1 isOwn
      exact allOnScores_append.2 ⟨isOn ownFirst, isOthers ownRest⟩
    dsimp only
    split
    · exact (draws_assignOperand asks owns knows _ _).bind continued
    · exact (continued []).mono fun _ isOn => isOn fun _ => allOnScores_nil

/-- The commands of a call of a routine set its parameters, and call its file at last. -/
theorem Routine.draws_callCommands (routine : Routine) (arguments : List Operand) :
    Draws sources (routine.callCommands target arguments) fun commands =>
      ∃ sets, commands = sets ++ [.call routine.file] ∧
        ((∀ parameter ∈ routine.parameters, access.Owns parameter.counter.objectives) →
          AllOnScores target access sets) :=
  (draws_assignParameters asks owns knows _ _).bind fun sets => .pure fun isOn => ⟨sets, rfl, isOn⟩

end

end ScriptPack
