import ScriptPack.Proofs.CallResults
import ScriptPack.Proofs.ScoreCommands
import ScriptPack.Proofs.SelectorNames

/-!
Computations on counters name only scores that are declared. A counter is covered if each of its
scores is declared or does not look like a reserved one; a scoreboard is covered if all its counters
are and every declaration waits once for the top of the root file. Main results: asking for a
temporary declares its scores, and the commands of an assignment are covered in whatever way it is
made.
-/

namespace ScriptPack

open Command Counter CounterKind List Scoreboard Text

variable {counter : Counter} {kind : CounterKind} {precision : Nat}

/-! ## Commands -/

namespace Command

/-- The names that stand in the places of a command where the game looks for scores. -/
def scores : Command → List String
  | raw text | say text => names text
  | objectiveAdd objective | objectiveRemove objective => [objective]
  | scoreSet target objective _ | scoreAdd target objective _ | scoreRemove target objective _
  | scoreReset target objective => objective :: names target
  | operation target objective _ source other => [objective, other] ++ names target ++ names source
  | execute target _ command => names target ++ command.scores
  | tellraw target text | titleraw target _ text => names target ++ names text
  | titleTimes target _ _ _ | give target _ _ _ _ | teleport target _ | teleportRotated target _ _ _
  | teleportFacing target _ _ | kill target | tagAdd target _ | tagRemove target _
  | damage target _ _ | triggerEvent target _ => names target
  | teleportTo target other | teleportFacingEntity target _ other | damageBy target _ _ other =>
      names target ++ names other
  | call _ | setBlock .. | fill .. | fillReplace .. | loadStructure .. | loadPartOfStructure ..
  | summon .. => []

/-- The scores that a command creates; a given text may create whatever it names. -/
def creates : Command → List String
  | raw text => names text
  | objectiveAdd objective => [objective]
  | execute _ _ command => command.creates
  | _ => []

/-- The command names only declared ones of the reserved scores, and creates none of them. -/
structure IsCovered (declared : List String) (command : Command) : Prop where
  scores : CoversNames declared command.scores
  creates : ∀ name ∈ command.creates, ¬IsReservedScore name

theorem IsCovered.mono {declared later : List String} {command : Command}
    (covered : command.IsCovered declared) (grows : declared ⊆ later) : command.IsCovered later where
  scores := covered.scores.mono grows
  creates := covered.creates

theorem isCovered_call (declared : List String) (path : String) : (call path).IsCovered declared where
  scores := coversNames_nil
  creates := by simp [creates]

end Command

def CoversAll (declared : List String) (commands : List Command) : Prop :=
  ∀ command ∈ commands, command.IsCovered declared

section CoversAll

variable {declared later : List String} {command : Command} {commands others : List Command}

@[simp] theorem coversAll_nil : CoversAll declared [] := by
  simp [CoversAll]

@[simp] theorem coversAll_cons : CoversAll declared (command :: commands) ↔
    command.IsCovered declared ∧ CoversAll declared commands := by
  simp [CoversAll]

@[simp] theorem coversAll_append : CoversAll declared (commands ++ others) ↔
    CoversAll declared commands ∧ CoversAll declared others := by
  simp [CoversAll, or_imp, forall_and]

theorem CoversAll.mono (covered : CoversAll declared commands) (grows : declared ⊆ later) :
    CoversAll later commands :=
  fun command member => (covered command member).mono grows

end CoversAll

/-! ## Counters -/

/-- A score that is declared, or that no reserved name can be taken for. -/
def IsSettled (declared : List String) (objective : String) : Prop :=
  IsUnmarked objective.toList ∨ objective ∈ declared

section IsSettled

variable {declared later : List String} {objective : String}

theorem IsSettled.mono (settled : IsSettled declared objective) (grows : declared ⊆ later) :
    IsSettled later objective :=
  settled.imp_right (@grows objective)

theorem IsSettled.mem (settled : IsSettled declared objective) (reserved : IsReservedScore objective) :
    objective ∈ declared :=
  settled.resolve_left fun unmarked => not_isReservedScore unmarked reserved

end IsSettled

def IsKeyText (key : List Char) : Prop :=
  key.all Char.isLower = true

theorem isNameChar_of_isAlphanum {c : Char} (plain : c.isAlphanum = true) : isNameChar c = true := by
  refine isNameChar_iff.2 ⟨Bool.eq_false_iff.2 fun divides => ?_, ?_⟩
  · simp only [isDivider, contains_iff_mem, mem_cons, not_mem_nil, or_false] at divides
    obtain rfl | rfl | rfl | rfl | rfl | rfl | rfl | rfl | rfl | rfl := divides <;> cases plain
  · have := toNat_of_isAlphanum plain
    omega

theorem IsKeyText.isName {key : List Char} (isKey : IsKeyText key) : IsName key :=
  all_eq_true.2 fun c member => isNameChar_of_isAlphanum <|
    Bool.or_eq_true_iff.2 (.inl (Bool.or_eq_true_iff.2 (.inr (all_eq_true.1 isKey c member))))

theorem IsKeyText.isUnmarked {key : List Char} (isKey : IsKeyText key) : IsUnmarked key :=
  isUnmarked_of_not_mem fun member => absurd (all_eq_true.1 isKey '_' member) (by decide)

namespace CounterKind

mutual
/-- The keys of the fields are short names that do not look like reserved ones. -/
def IsPlain : CounterKind → Prop
  | .record _ fields => FieldsArePlain fields
  | .int | .time | .decimal _ | .bool => True

def FieldsArePlain : List (String × String × CounterKind) → Prop
  | [] => True
  | (_, key, kind) :: rest => IsKeyText key.toList ∧ kind.IsPlain ∧ FieldsArePlain rest
end

theorem fieldsArePlain_iff {fields : List (String × String × CounterKind)} :
    FieldsArePlain fields ↔ ∀ field ∈ fields, IsKeyText field.2.1.toList ∧ field.2.2.IsPlain := by
  induction fields with
  | nil => simp [FieldsArePlain]
  | cons field rest ih =>
    obtain ⟨name, key, kind⟩ := field
    simp [FieldsArePlain, ih, and_assoc]

end CounterKind

theorem RecordType.isKeyText_keyAt (count : Nat) : IsKeyText (keyAt count) := by
  have letter : ∀ index < 26, (Char.ofNat ('a'.toNat + index)).isLower = true := by decide
  induction count using Nat.strongRecOn with
  | _ count ih =>
    have last := letter (count % 26) (Nat.mod_lt count (by decide))
    rw [keyAt]
    split
    · simpa [IsKeyText] using last
    · have start : IsKeyText (keyAt (count / 26 - 1)) := ih (count / 26 - 1) (by omega)
      simp only [IsKeyText, all_append, all_cons, all_nil, Bool.and_true, Bool.and_eq_true]
      exact ⟨start, last⟩

theorem RecordType.isPlain_addField {record : RecordType} (plain : record.kind.IsPlain)
    (isPlain : kind.IsPlain) (name : String) : (record.addField name kind).kind.IsPlain := by
  have fields := fieldsArePlain_iff.1 plain
  refine fieldsArePlain_iff.2 fun field member => ?_
  obtain earlier | added := mem_append.1 member
  · exact fields field earlier
  · rw [mem_singleton.1 added]
    exact ⟨by simpa using isKeyText_keyAt record.fields.length, isPlain⟩

namespace Counter

mutual
variable {holds : List Char → Prop}

/-- What holds of a name and of every name that appends a key to one holds of all scores. -/
theorem forall_mem_objectivesOf
    (append : ∀ text key, holds text → IsKeyText key → holds (text ++ ':' :: key)) {name : String}
    (base : holds name.toList) : ∀ {kind : CounterKind}, kind.IsPlain →
      ∀ objective ∈ objectivesOf name kind, holds objective.toList
  | .int, _ | .time, _ | .bool, _ => by
    intro objective member
    rw [mem_singleton.1 member]
    exact base
  | .decimal _, _ => by
    intro objective member
    obtain rfl | member := mem_cons.1 member
    · simpa using append name.toList ['w'] base (by rfl)
    · rw [mem_singleton.1 member]
      simpa using append name.toList ['d'] base (by rfl)
  | .record _ fields, plain => forall_mem_fieldObjectives append base plain

theorem forall_mem_fieldObjectives
    (append : ∀ text key, holds text → IsKeyText key → holds (text ++ ':' :: key)) {name : String}
    (base : holds name.toList) : ∀ {fields : List (String × String × CounterKind)},
      FieldsArePlain fields →
      ∀ objective ∈ fieldObjectives name fields, holds objective.toList
  | [], _ => by
    intro objective member
    cases member
  | (_, key, kind) :: rest, plain => by
    intro objective member
    obtain ⟨isKey, isPlain, restPlain⟩ := plain
    obtain first | later := mem_append.1 member
    · have appended : holds (name ++ ":" ++ key).toList := by
        simpa using append name.toList key.toList base isKey
      exact forall_mem_objectivesOf append appended isPlain objective first
    · exact forall_mem_fieldObjectives append base restPlain objective later
end

theorem isName_objectives (isName : IsName counter.name.toList)
    (plain : counter.kind.IsPlain) : ∀ objective ∈ counter.objectives, IsName objective.toList := by
  refine forall_mem_objectivesOf (fun text key isName isKey => ?_) isName plain
  exact isName_append.2 ⟨isName, isName_cons.2 ⟨by decide, isKey.isName⟩⟩

theorem isUnmarked_objectives (unmarked : IsUnmarked counter.name.toList)
    (plain : counter.kind.IsPlain) : ∀ objective ∈ counter.objectives, IsUnmarked objective.toList := by
  refine forall_mem_objectivesOf (fun text key unmarked isKey => ?_) unmarked plain
  exact unmarked.append_cons (by decide) isKey.isUnmarked

/-- The scores of the counter are settled, and appending keys to them keeps them so. -/
structure IsCovered (declared : List String) (counter : Counter) : Prop where
  plain : counter.kind.IsPlain
  settled : ∀ objective ∈ counter.objectives, IsSettled declared objective

section

variable {declared later : List String} {counter : Counter}

theorem IsCovered.mono (covered : counter.IsCovered declared) (grows : declared ⊆ later) :
    counter.IsCovered later where
  plain := covered.plain
  settled := fun objective member => (covered.settled objective member).mono grows

theorem IsCovered.name (covered : counter.IsCovered declared)
    (whole : counter.kind.isIntegerLike = true) : IsSettled declared counter.name :=
  covered.settled _ (name_mem_objectives whole)

theorem isCovered_ofField {fields : List (String × String × CounterKind)} {recordName name : String}
    (covered : (⟨name, .record recordName fields⟩ : Counter).IsCovered declared)
    {field : String × String × CounterKind} (member : field ∈ fields) :
    (ofField name field.2.1 field.2.2).IsCovered declared where
  plain := (fieldsArePlain_iff.1 covered.plain field member).2
  settled := fun objective inside => covered.settled objective (fieldObjectives_subset member inside)

theorem IsCovered.field? (covered : counter.IsCovered declared) {name : String} {field : Counter}
    (found : counter.field? name = some field) : field.IsCovered declared := by
  obtain ⟨base, kind⟩ := counter
  cases kind with
  | record recordName fields =>
    obtain ⟨entry, isFound, rfl⟩ := Option.map_eq_some_iff.1 found
    exact isCovered_ofField covered (mem_of_find?_eq_some isFound)
  | int | time | decimal | bool => cases found

end

end Counter

/-! ## Steps -/

/-- States that know which scores are declared, and when all that they hold is covered. -/
class Declaring (σ : Type) where
  declared : σ → List String
  IsCovered : σ → Prop

/-- From covered states in which the `known` scores are declared, the step leads to covered ones. No
declaration is lost, and the result is one for the scores declared then. -/
def Upholds {ε σ α : Type} [Declaring σ] (known : List String) (step : EStateM ε σ α)
    (result : α → List String → Prop) : Prop :=
  ∀ ⦃before : σ⦄ ⦃value : α⦄ ⦃after : σ⦄, Declaring.IsCovered before →
    known ⊆ Declaring.declared before → step before = .ok value after →
    Declaring.IsCovered after ∧ Declaring.declared before ⊆ Declaring.declared after ∧
      result value (Declaring.declared after)

section Upholds

variable {ε σ α β : Type} [Declaring σ] {known later : List String} {step : EStateM ε σ α}
  {next : α → EStateM ε σ β} {middle result : α → List String → Prop} {last : β → List String → Prop}

theorem upholds_pure {value : α} (holds : ∀ declared, known ⊆ declared → result value declared) :
    Upholds known (pure value : EStateM ε σ α) result := by
  intro before value after covered knows ran
  cases ran
  exact ⟨covered, Subset.refl _, holds _ knows⟩

theorem upholds_throw (error : ε) : Upholds known (throw error : EStateM ε σ α) result := by
  intro before value after covered knows ran
  cases ran

theorem Upholds.bind (first : Upholds known step middle)
    (second : ∀ value later, known ⊆ later → middle value later → Upholds later (next value) last) :
    Upholds known (step >>= next) last := by
  intro before value after covered knows ran
  obtain ⟨middleValue, between, stepped, ran⟩ := bind_apply_eq_ok_iff.1 ran
  obtain ⟨coveredThen, grows, holds⟩ := first covered knows stepped
  obtain ⟨coveredLast, growsOn, holdsLast⟩ :=
    second middleValue _ (Subset.trans knows grows) holds coveredThen (Subset.refl _) ran
  exact ⟨coveredLast, Subset.trans grows growsOn, holdsLast⟩

theorem Upholds.imp (upholds : Upholds known step middle)
    (implies : ∀ value declared, known ⊆ declared → middle value declared → result value declared) :
    Upholds known step result := by
  intro before value after covered knows ran
  obtain ⟨coveredThen, grows, holds⟩ := upholds covered knows ran
  exact ⟨coveredThen, grows, implies value _ (Subset.trans knows grows) holds⟩

theorem Upholds.mono (upholds : Upholds known step result) (grows : known ⊆ later) :
    Upholds later step result :=
  fun _ _ _ covered knows ran => upholds covered (Subset.trans grows knows) ran

theorem upholds_get_bind {next : σ → EStateM ε σ β}
    (second : ∀ state : σ, Declaring.IsCovered state → known ⊆ Declaring.declared state →
      Upholds (Declaring.declared state) (next state) last) :
    Upholds known (get >>= next) last :=
  fun before _ _ covered knows ran => second before covered knows covered (Subset.refl _) ran

theorem upholds_modify {change : σ → σ}
    (upheld : ∀ state : σ, Declaring.IsCovered state → known ⊆ Declaring.declared state →
      Declaring.IsCovered (change state) ∧
        Declaring.declared state ⊆ Declaring.declared (change state)) :
    Upholds known (modify change : EStateM ε σ PUnit) fun _ _ => True := by
  intro before value after covered knows ran
  cases ran
  obtain ⟨coveredThen, grows⟩ := upheld before covered knows
  exact ⟨coveredThen, grows, trivial⟩

end Upholds

/-! ## Scoreboards -/

namespace Scoreboard

/-- Each declared score waits once for the top of the root file, and has a plain name; the counters
are covered, and the keys of records are plain. -/
structure IsCovered (board : Scoreboard) : Prop where
  head : board.pendingHead = board.declared.reverse.map .objectiveAdd
  nodup : board.declared.Nodup
  names : ∀ objective ∈ board.declared, IsName objective.toList
  counters : ∀ key counter, board.counters.get? key = some counter → counter.IsCovered board.declared
  records : ∀ key record, board.records.get? key = some record → record.kind.IsPlain

instance : Declaring Scoreboard where
  declared := declared
  IsCovered := IsCovered

variable {board : Scoreboard}

theorem isCovered_empty : IsCovered {} where
  head := rfl
  nodup := nodup_nil
  names := by simp
  counters := by simp
  records := by simp

namespace IsCovered

variable (covered : board.IsCovered)

include covered

theorem get? {accessor : String}
    (found : board.get? accessor = some counter) : counter.IsCovered board.declared := by
  unfold Scoreboard.get? at found
  split at found
  · cases found
    exact covered.counters _ _ ‹_›
  · obtain ⟨⟨base, field⟩, -, found⟩ := Option.bind_eq_some_iff.1 found
    obtain ⟨record, isRecord, found⟩ := Option.bind_eq_some_iff.1 found
    exact (covered.counters _ _ isRecord).field? found

theorem declareObjective {objective : String} (isName : IsName objective.toList) :
    (board.declareObjective objective).IsCovered ∧
      board.declared ⊆ (board.declareObjective objective).declared ∧
      objective ∈ (board.declareObjective objective).declared := by
  unfold Scoreboard.declareObjective
  split
  · rename_i found
    exact ⟨covered, Subset.refl _, contains_iff_mem.1 found⟩
  · rename_i absent
    have grows := subset_cons_self objective board.declared
    refine ⟨⟨?_, ?_, ?_, ?_, covered.records⟩, grows, mem_cons_self⟩
    · simp [covered.head]
    · exact nodup_cons.2 ⟨fun member => absent (contains_iff_mem.2 member), covered.nodup⟩
    · exact forall_mem_cons.2 ⟨isName, covered.names⟩
    · exact fun key counter found => (covered.counters key counter found).mono grows

theorem declareAll {objectives : List String}
    (areNames : ∀ objective ∈ objectives, IsName objective.toList) :
    (objectives.foldl Scoreboard.declareObjective board).IsCovered ∧
      board.declared ⊆ (objectives.foldl Scoreboard.declareObjective board).declared ∧
      objectives ⊆ (objectives.foldl Scoreboard.declareObjective board).declared := by
  induction objectives generalizing board with
  | nil => exact ⟨covered, Subset.refl _, nil_subset _⟩
  | cons objective rest ih =>
    obtain ⟨isName, areNames⟩ := forall_mem_cons.1 areNames
    obtain ⟨coveredFirst, grows, declared⟩ := covered.declareObjective isName
    obtain ⟨coveredLast, growsOn, restDeclared⟩ := ih coveredFirst areNames
    exact ⟨coveredLast, Subset.trans grows growsOn, cons_subset.2 ⟨growsOn declared, restDeclared⟩⟩

theorem declare {counter : Counter}
    (isName : IsName counter.name.toList) (plain : counter.kind.IsPlain) :
    (board.declare counter).IsCovered ∧ board.declared ⊆ (board.declare counter).declared ∧
      counter.IsCovered (board.declare counter).declared := by
  obtain ⟨coveredThen, grows, declared⟩ :=
    covered.declareAll (Counter.isName_objectives isName plain)
  exact ⟨coveredThen, grows, plain, fun objective member => .inr (declared member)⟩

theorem addCounter
    (isCovered : counter.IsCovered board.declared) : (board.addCounter counter).IsCovered := by
  refine { covered with counters := fun key other found => ?_ }
  rw [Scoreboard.addCounter, Table.get?_insert] at found
  split at found
  · cases found
    exact isCovered
  · exact covered.counters key other found

end IsCovered

theorem isName_numbered {name : String} (isName : IsName name.toList) (index : Nat) :
    IsName (name ++ toString index).toList := by
  rw [String.toList_append]
  refine isName_append.2 ⟨isName, all_eq_true.2 fun c member => isNameChar_of_isAlphanum ?_⟩
  simp [Char.isAlphanum, isDigit_of_mem_toString member]

end Scoreboard

namespace CounterM

variable {known : List String}

theorem upholds_get (accessor : String) :
    Upholds known (CounterM.get accessor) fun counter declared => counter.IsCovered declared := by
  refine upholds_get_bind fun board covered knows => ?_
  split
  · rename_i counter found
    have isCovered := Scoreboard.IsCovered.get? covered (Scoreboard.get_eq_ok_iff.1 found)
    exact upholds_pure fun _ grows => isCovered.mono grows
  · exact upholds_throw _

theorem upholds_define (isCovered : counter.IsCovered known) :
    Upholds known (define counter) fun _ _ => True := by
  rintro before ⟨⟩ after covered knows ran
  rw [define_eq_ok ran]
  exact ⟨IsCovered.addCounter covered (isCovered.mono knows), Subset.refl _, trivial⟩

theorem upholds_temporary (plain : kind.IsPlain) :
    Upholds known (temporary kind) fun counter declared =>
      counter.IsCovered declared ∧ counter.kind = kind := by
  intro before counter after covered knows ran
  rw [temporary_apply] at ran
  cases ran
  let numbered : Scoreboard := { before with nextTemporary := before.nextTemporary + 1 }
  have coveredFirst : numbered.IsCovered :=
    ⟨covered.head, covered.nodup, covered.names, covered.counters, covered.records⟩
  have isName := isName_numbered (by decide : IsName temporaryName.toList) before.nextTemporary
  obtain ⟨coveredThen, grows, declared⟩ := @IsCovered.declare numbered coveredFirst
    ⟨temporaryName ++ toString before.nextTemporary, kind⟩ isName plain
  exact ⟨coveredThen.addCounter declared, grows, declared, rfl⟩

theorem isPlain_ofLiteral? {literal : Value}
    (found : ofLiteral? literal = some kind) : kind.IsPlain := by
  cases literal <;> cases found <;> simp [IsPlain]

theorem upholds_temporaryFor (literal : Value) :
    Upholds known (temporaryFor literal) fun counter declared => counter.IsCovered declared := by
  unfold temporaryFor
  split
  · exact (upholds_temporary (isPlain_ofLiteral? ‹_›)).imp fun _ _ _ holds => holds.1
  · exact upholds_throw _

end CounterM

namespace Counter

open CounterM

variable {declared known : List String} {target : String}

section Commands

variable {left right objective : String}

section

variable (unmarked : IsUnmarked target.toList)

include unmarked

theorem coversNames_target : CoversNames declared (names target) :=
  coversText_of_isUnmarked unmarked

theorem isCovered_combine (op : Option ArithOp)
    (isLeft : IsSettled declared left) (isRight : IsSettled declared right) :
    (combine target left op right).IsCovered declared where
  scores := by
    simp only [combine, scores, coversNames_append, coversNames_cons, coversNames_nil, and_true]
    exact ⟨⟨⟨isLeft.mem, isRight.mem⟩, coversNames_target unmarked⟩, coversNames_target unmarked⟩
  creates := by simp [combine, creates]

theorem isCovered_scoreSet (settled : IsSettled declared objective)
    (value : Int32) : (scoreSet target objective value).IsCovered declared where
  scores := coversNames_cons.2 ⟨settled.mem, coversNames_target unmarked⟩
  creates := by simp [creates]

theorem isCovered_scoreAdd (settled : IsSettled declared objective)
    (value : Int32) : (scoreAdd target objective value).IsCovered declared where
  scores := coversNames_cons.2 ⟨settled.mem, coversNames_target unmarked⟩
  creates := by simp [creates]

theorem isCovered_change (settled : IsSettled declared objective)
    (amount : Int32) : (change target objective amount).IsCovered declared := by
  unfold change
  split
  · exact ⟨coversNames_cons.2 ⟨settled.mem, coversNames_target unmarked⟩, by simp [creates]⟩
  · exact isCovered_scoreAdd unmarked settled amount

end

theorem coversAll_initCommands (covered : counter.IsCovered declared) :
    CoversAll declared counter.initCommands := by
  intro command member
  obtain ⟨objective, isObjective, rfl⟩ := mem_map.1 member
  exact isCovered_scoreAdd (by decide) (covered.settled objective isObjective) 0

theorem coversAll_defineCommands (unmarked : IsUnmarked counter.name.toList)
    (plain : counter.kind.IsPlain) : CoversAll declared counter.defineCommands := by
  intro command member
  obtain ⟨objective, isObjective, rfl⟩ := mem_map.1 member
  have apart := not_isReservedScore (isUnmarked_objectives unmarked plain objective isObjective)
  exact ⟨coversNames_cons.2 ⟨fun reserved => absurd reserved apart, coversNames_nil⟩,
    by simpa [creates]⟩

def settling (declared : List String) : Access :=
  ⟨IsSettled declared, IsSettled declared⟩

theorem IsCovered.owns (covered : counter.IsCovered declared) :
    (settling declared).Owns counter.objectives :=
  fun objective member => ⟨covered.settled objective member, covered.settled objective member⟩

theorem coversAll_of_onScores (unmarked : IsUnmarked target.toList) {commands : List Command}
    (isOn : AllOnScores target (settling declared) commands) : CoversAll declared commands := by
  intro command member
  cases isOn command member with
  | set value settled => exact isCovered_scoreSet unmarked settled value
  | change amount settled => exact isCovered_change unmarked settled amount
  | combine op isLeft isRight => exact isCovered_combine unmarked op isLeft isRight

theorem coversAll_setLiteral (covered : counter.IsCovered declared)
    (unmarked : IsUnmarked target.toList) (literal : Value) :
    CoversAll declared (counter.setLiteral target literal) :=
  coversAll_of_onScores unmarked (@allOnScores_setLiteral (settling declared) target counter
    covered.settled literal)

end Commands

/-! ## Assignments -/

def covering (declared : List String) : Sources where
  found := IsCovered declared
  fresh := IsCovered declared
  defined := fun _ => False
  asked := fun kind => kind.isSimple = true

theorem sound_covering (last : Scoreboard) : (covering last.declared).Sound Scoreboard.IsCovered
    (fun board later => board.declared ⊆ later.declared) last where
  refl := fun _ => Subset.refl _
  trans := Subset.trans
  get := fun covered grows found => (covered.get? found).mono grows
  temporary := fun {board kind} simple covered => by
    have plain : kind.IsPlain := by cases kind <;> trivial
    obtain ⟨covers, grows, isCovered, -⟩ :=
      @upholds_temporary _ [] plain board _ _ covered (nil_subset _) (temporary_apply kind board)
    exact ⟨covers, grows, isCovered.mono⟩
  define := nofun

/-- What a computation gives when the counters that it meets are covered. -/
theorem upholds_of_draws {α : Type} {computation : CounterM α} {result : α → List String → Prop}
    (draws : ∀ declared,
      Draws (covering declared) computation fun value => known ⊆ declared → result value declared) :
    Upholds known computation result := by
  intro before value after covered knows ran
  obtain ⟨covers, grows, holds⟩ := (draws after.declared).of_ok (sound_covering after) covered ran
  exact ⟨covers, grows, holds (Subset.refl _) (Subset.trans knows grows)⟩

theorem covering_asks {declared : List String} (kind : CounterKind) (simple : kind.isSimple = true) :
    (covering declared).asked kind :=
  simple

theorem covering_owns {declared : List String} (counter : Counter)
    (covered : (covering declared).fresh counter) : (settling declared).Owns counter.objectives :=
  IsCovered.owns covered

section

variable (unmarked : IsUnmarked target.toList) {left : Counter}

include unmarked

/-- Assignments between covered counters are covered, and so are those of literals. -/
theorem upholds_assign (op : Option ArithOp) {right : Counter} (leftCovered : left.IsCovered known)
    (covered : right.IsCovered known) :
    Upholds known (assign target left op right) fun commands declared => CoversAll declared commands :=
  upholds_of_draws fun _ => (draws_assign covering_asks covering_owns left op right).mono
    fun _ isOn grows => coversAll_of_onScores unmarked
      (isOn (leftCovered.mono grows).owns (covered.mono grows).owns.reads)

theorem upholds_assignOperand (covered : left.IsCovered known) (operand : Operand) :
    Upholds known (assignOperand target left operand) fun commands declared =>
      CoversAll declared commands :=
  upholds_of_draws fun _ => (draws_assignOperand covering_asks covering_owns covering_owns left
    operand).mono fun _ isOn grows => coversAll_of_onScores unmarked (isOn (covered.mono grows).owns)

end

end Counter

theorem Assignment.upholds_commands {known : List String} (assignment : Assignment) :
    Upholds known assignment.commands fun commands declared => CoversAll declared commands :=
  upholds_of_draws fun _ => (draws_commands covering_asks covering_owns
    covering_owns assignment).mono fun _ isOn _ =>
      coversAll_of_onScores (by decide) isOn

namespace Routine

open CounterM

/-- The counters of a routine, for its parameters and its result, are covered. -/
structure IsCovered (declared : List String) (routine : Routine) : Prop where
  parameters : ∀ parameter ∈ routine.parameters, parameter.counter.IsCovered declared
  result : ∀ counter ∈ routine.result, counter.IsCovered declared

variable {declared known later : List String} {routine : Routine}

theorem IsCovered.mono (covered : routine.IsCovered declared) (grows : declared ⊆ later) :
    routine.IsCovered later where
  parameters := fun parameter member => (covered.parameters parameter member).mono grows
  result := fun counter member => (covered.result counter member).mono grows

theorem upholds_callCommands {target : String} (unmarked : IsUnmarked target.toList)
    (covered : routine.IsCovered known) (arguments : List Operand) :
    Upholds known (routine.callCommands target arguments) fun commands declared =>
      CoversAll declared commands := by
  refine upholds_of_draws fun declared => ?_
  refine (draws_callCommands covering_asks covering_owns covering_owns routine arguments).mono ?_
  rintro _ ⟨sets, rfl, isOn⟩ grows
  have owned := isOn fun parameter member =>
    IsCovered.owns ((covered.parameters parameter member).mono grows)
  exact coversAll_append.2 ⟨coversAll_of_onScores unmarked owned,
    coversAll_cons.2 ⟨isCovered_call declared routine.file, coversAll_nil⟩⟩

end Routine

end ScriptPack
