import ScriptPack.Proofs.Balance
import ScriptPack.Proofs.DeclaredDirectives
import ScriptPack.Proofs.Files

/-!
Every temporary score and every score for results is declared once, at the top of the root file. Main
result: in the pack of a run whose statements are ordinary, no command names a reserved score that is
not declared there, and no other command creates one.
-/

namespace ScriptPack

open ArgumentM Build BuildM CommandFile IsCovered List Nested Text

/-! ## Ordinary statements -/

instance : DecidablePred TokenKind.IsOrdinary
  | .literal (.text _) => inferInstanceAs (Decidable (IsUnmarked _))
  | .literal (.selector selector) => inferInstanceAs (Decidable selector.IsUnmarked)
  | .literal (.int _) | .literal (.float _) | .literal (.bool _) | .literal (.coord _)
  | .literal (.range _) | .literal (.json _) => .isTrue trivial
  | .word _ | .counter _ | .record _ | .template _ | .routine _ => inferInstanceAs (Decidable (IsName _))
  | .reference _ | .openParen | .closeParen | .arith _ | .assign _ | .compare _ | .both | .negation
  | .openBlock | .closeBlock => .isTrue trivial

instance : DecidablePred AreOrdinary :=
  fun _ => inferInstanceAs (Decidable (∀ _ ∈ _, _))

/-- A directive is run on ordinary tokens, and the names that it writes do not look like reserved
ones. What counts is what the tokens are when expressions in them have been evaluated. -/
def Statement.IsOrdinary (statement : Statement) (before : Build) : Prop :=
  match statement.kind, prepare statement (before.enter statement) with
  | .directive directive, .ok tokens ready => AreOrdinary tokens ∧
      ∀ name ∈ directive.writtenNames ready.scoreboard tokens, IsUnmarked name.toList
  | _, _ => True

instance (statement : Statement) (before : Build) : Decidable (statement.IsOrdinary before) := by
  unfold Statement.IsOrdinary
  split <;> infer_instance

namespace Build

variable {build : Build}

theorem IsCovered.enter (covered : build.IsCovered) (statement : Statement) :
    (build.enter statement).IsCovered :=
  (covered.withBoard covered.board.pushScope (Subset.refl _)).of_holdings rfl

theorem IsCovered.popScope (covered : build.IsCovered) :
    ({ build with scoreboard := build.scoreboard.popScope } : Build).IsCovered :=
  covered.withBoard covered.board.popScope build.scoreboard.declared_popScope

theorem isCovered_forScript (storage : FileTree) (options : Options) (file : String) :
    (forScript storage options file).IsCovered where
  board := Scoreboard.isCovered_empty
  routines := forall_mem_nil _
  file := coversLines_nil
  outerFiles := forall_mem_nil _
  finished := forall_mem_nil _
  head := rfl
  frames := forall_mem_nil _
  active := isUnmarked_self
  outerSelectors := forall_mem_nil _
  pending := by simp [forScript, start]
  blocks := forall_mem_nil _
  conditions := by simp [forScript, start]

end Build

namespace BuildM

variable {run : Runner} {known : List String} {statement : Statement}
  {before after : Build}

theorem requireFeature_eq_ok {feature : Feature} (ran : requireFeature feature before = .ok () after) :
    after = before := by
  unfold requireFeature at ran
  rw [bind_of_ok (get_apply before)] at ran
  split at ran <;> cases ran
  rfl

/-- A directive is run on its prepared tokens, in the state that preparing them leads to. -/
theorem prepared_of_runStatement_directive {directive : Directive}
    (isDirective : statement.kind = .directive directive)
    (ran : runStatement run statement before = .ok () after) :
    ∃ tokens ready rest, prepare statement before = .ok tokens ready ∧
      ArgumentM.runDirective run directive tokens ready = .ok ((), rest) after := by
  cases needed : directive.feature? with
  | none => exact runStatement_of_noFeature isDirective needed ran
  | some feature =>
    simp only [runStatement, isDirective, needed] at ran
    obtain ⟨⟨⟩, middle, required, continued⟩ := bind_eq_ok_iff.1 ran
    rw [requireFeature_eq_ok required] at continued
    obtain ⟨tokens, ready, prepared, directed⟩ := bind_eq_ok_iff.1 continued
    obtain ⟨rest, ranDirective⟩ := runDirective_eq_ok directed
    exact ⟨tokens, ready, rest, prepared, ranDirective⟩

section Runs

variable (runs : ∀ statements, Upholding (run statements))

include runs

theorem isCovered_runDirective {directive : Directive} {tokens rest : List Token}
    (covered : before.IsCovered) (ordinary : AreOrdinary tokens)
    (unmarked : ∀ name ∈ directive.writtenNames before.scoreboard tokens, IsUnmarked name.toList)
    (ran : ArgumentM.runDirective run directive tokens before = .ok ((), rest) after) :
    after.IsCovered ∧ before.scoreboard.declared ⊆ after.scoreboard.declared := by
  have refl := Subset.refl before.scoreboard.declared
  by_cases isDefine : directive = .define
  · subst isDefine
    obtain ⟨last, grows, -⟩ := upholds_define covered.board ordinary unmarked covered refl ran
    exact ⟨last, grows⟩
  · by_cases isTag : directive = .tag
    · subst isTag
      obtain ⟨last, grows, -⟩ :=
        upholds_tag before.scoreboard ordinary unmarked covered refl ran
      exact ⟨last, grows⟩
    · obtain ⟨last, grows, -⟩ :=
        upholds_runDirective runs ⟨isDefine, isTag⟩ ordinary covered refl ran
      exact ⟨last, grows⟩

theorem isCovered_runStatement (covered : before.IsCovered) (ordinary : statement.IsOrdinary before)
    (ran : runStatement run statement (before.enter statement) = .ok () after) :
    after.IsCovered ∧ before.scoreboard.declared ⊆ after.scoreboard.declared := by
  have entered := covered.enter statement
  cases kind : statement.kind with
  | openBlock size =>
    rw [runStatement_open kind] at ran
    cases ran
    obtain ⟨opened, same⟩ := entered.openBlock size
    exact ⟨opened, by rw [same]; exact Subset.refl _⟩
  | closeBlock =>
    obtain ⟨closed, same⟩ := entered.closeBlock? ((runStatement_close_eq_ok_iff kind).1 ran)
    exact ⟨closed, by rw [same]; exact Subset.refl _⟩
  | unknown =>
    simp only [runStatement, kind] at ran
    cases ran
  | operation =>
    simp only [runStatement, kind] at ran
    have upholds : UpholdsUnit before.scoreboard.declared (prepare statement >>= runOperation) :=
      (upholds_prepare statement _).bind fun tokens _ _ _ => upholds_runOperation tokens
    obtain ⟨last, grows, -⟩ := upholds entered (Subset.refl _) ran
    exact ⟨last, grows⟩
  | call =>
    simp only [runStatement, kind] at ran
    have upholds : UpholdsUnit before.scoreboard.declared (prepare statement >>= runCall) :=
      (upholds_prepare statement _).bind fun tokens _ _ _ => upholds_runCall tokens
    obtain ⟨last, grows, -⟩ := upholds entered (Subset.refl _) ran
    exact ⟨last, grows⟩
  | directive directive =>
    obtain ⟨tokens, ready, rest, prepared, directed⟩ := prepared_of_runStatement_directive kind ran
    rw [Statement.IsOrdinary, kind, prepared] at ordinary
    obtain ⟨isReady, grows, -⟩ := upholds_prepare statement _ entered (Subset.refl _) prepared
    obtain ⟨last, growsOn⟩ := isCovered_runDirective runs isReady ordinary.1 ordinary.2 directed
    exact ⟨last, Subset.trans grows growsOn⟩

variable {alarm : Error}

theorem upholds_watchScoped (statement : Statement) : UpholdsUnit known
    (watchScoped alarm (fun statement before _ => statement.IsOrdinary before) run statement) := by
  rintro before ⟨⟩ after covered knows watched
  obtain ⟨ran, ordinary⟩ := watchScoped_eq_ok_iff.1 watched
  obtain ⟨middle, reached, inside, reaches, rfl⟩ := runScoped_eq_ok_iff.1 ran
  obtain ⟨isMiddle, grows⟩ := isCovered_runStatement runs covered ordinary inside
  have checks : UpholdsUnit [] checkReachable := upholds_checkReachable
  obtain ⟨isReached, growsOn, -⟩ := checks isMiddle.popScope (nil_subset _) reaches
  obtain ⟨settled, same⟩ := settlePops isReached
  refine ⟨settled, ?_, trivial⟩
  change before.scoreboard.declared ⊆ reached.settlePops.scoreboard.declared
  rw [same]
  exact Subset.trans grows (Subset.trans middle.scoreboard.declared_popScope growsOn)

theorem upholds_watchUpcoming (steps : Nat) : UpholdsUnit known
    (watchUpcoming alarm (fun statement before _ => statement.IsOrdinary before) run steps) := by
  induction steps generalizing known with
  | zero => exact upholds_pure fun _ _ => trivial
  | succ steps ih =>
    refine upholds_takeStatement?.bind fun found _ _ _ => ?_
    cases found with
    | none => exact upholds_pure fun _ _ => trivial
    | some statement => exact (upholds_watchScoped runs statement).bind fun _ _ _ _ => ih

end Runs

variable {alarm : Error}

/-- What the run of a list of ordinary statements preserves, at every depth. -/
theorem upholds_watchSection (depth : Nat) (statements : List Statement) : Upholding
    (watchSection alarm (fun statement before _ => statement.IsOrdinary before) depth statements) := by
  induction depth generalizing statements with
  | zero => exact fun _ => upholds_fail _
  | succ depth ih =>
    rintro known before ⟨⟩ after covered knows watched
    obtain ⟨ended, ran, rfl⟩ := watchSection_eq_ok_iff.1 watched
    have inside : ({ before with
        upcoming := statements
        scoreboard := before.scoreboard.pushScope } : Build).IsCovered :=
      (withBoard covered (board covered).pushScope (Subset.refl _)).of_holdings rfl
    obtain ⟨isEnded, grows, -⟩ :=
      @upholds_watchUpcoming _ [] ih alarm statements.length _ _ _ inside (nil_subset _) ran
    exact ⟨of_holdings (popScope isEnded) rfl,
      Subset.trans grows ended.scoreboard.declared_popScope, trivial⟩

theorem upholds_watchScript (options : Options) (statements : List Statement) : UpholdsUnit known
    (watchScript alarm (fun statement before _ => statement.IsOrdinary before) options statements) := by
  refine (upholding.ofApplyOptions options known).bind fun _ later _ _ => ?_
  have listed : UpholdsUnit later (modify fun build => { build with upcoming := statements }) :=
    upholds_still fun _ => rfl
  exact listed.bind fun _ _ _ _ => upholds_watchUpcoming (upholds_watchSection greatestDepth) _

end BuildM

/-! ## The pack -/

namespace Build

variable {build : Build}

theorem IsCovered.finishFiles (covered : build.IsCovered) : build.finishFiles.IsCovered := by
  have repeated (count : Nat) : (Nat.repeat Build.popFile count build).IsCovered := by
    induction count with
    | zero => exact covered
    | succ count ih => exact ih.popFile
  exact repeated _

/-- The commands of the pack are those that declare scores, at the top of its root file, and covered
ones. -/
theorem IsCovered.finish_files (covered : build.IsCovered) :
    ∃ root objectives rest, build.finish.files = root.declaring objectives :: rest ∧ objectives.Nodup ∧
      ∀ file ∈ root :: rest, CoversLines objectives file.lines := by
  have finished := covered.finishFiles
  have grows : build.finishFiles.scoreboard.declared ⊆ build.finishFiles.scoreboard.declared.reverse :=
    fun _ member => mem_reverse.2 member
  refine ⟨build.finishFiles.file, build.finishFiles.scoreboard.declared.reverse,
    build.finishFiles.pack.files, ?_, nodup_reverse.2 finished.board.nodup, ?_⟩
  · rw [build.finish_files.1, finished.board.head, finished.head, append_nil, map_map]
    rfl
  · exact forall_mem_cons.2 ⟨finished.file.mono grows,
      fun file member => (finished.finished file member).mono grows⟩

end Build

def Line.creates (score : String) (line : Line) : Bool :=
  line.command.creates.contains score

theorem countP_creates_declaring {objectives : List String} (nodup : objectives.Nodup) {score : String}
    (declared : score ∈ objectives) :
    (objectives.map fun name => Line.plain (.objectiveAdd name)).countP (Line.creates score) = 1 := by
  rw [countP_map, ← count_eq_one_of_mem nodup declared, count]
  refine countP_congr fun name _ => ?_
  change [name].contains score = true ↔ (name == score) = true
  rw [contains_iff_mem, mem_singleton, beq_iff_eq]
  exact eq_comm

theorem countP_creates_covered {declared : List String} {lines : List Line}
    (covered : CoversLines declared lines) {score : String} (reserved : IsReservedScore score) :
    lines.countP (Line.creates score) = 0 := by
  refine countP_eq_zero.2 fun line member created => ?_
  exact (covered line member).command.creates score (contains_iff_mem.1 created) reserved

/-- A script whose statements are ordinary runs as it does unwatched. Whatever reserved score a command
of its pack names is among the declarations at the top of the root file, and the declaration there is
the only command that creates it. -/
theorem reserved_scores_declared_once {alarm : Error} {storage : FileTree} {options : Options}
    {file : String} {statements : List Statement} {last : Build}
    (ran : watchScript alarm (fun statement before _ => statement.IsOrdinary before) options statements
      (.forScript storage options file) = .ok () last) :
    runScript options statements (.forScript storage options file) = .ok () last ∧
    ∃ (root : CommandFile) (objectives : List String) (rest : List CommandFile),
      last.finish.files = root.declaring objectives :: rest ∧
      ∀ file ∈ last.finish.files, ∀ line ∈ file.lines, ∀ score ∈ line.scores, IsReservedScore score →
        score ∈ objectives ∧
        (last.finish.files.flatMap CommandFile.lines).countP (Line.creates score) = 1 := by
  have level := Build.level_forScript storage options file
  refine ⟨runScript_of_watchScript level rfl ran, ?_⟩
  have start := Build.isCovered_forScript storage options file
  obtain ⟨covered, -⟩ :=
    @upholds_watchScript [] alarm options statements _ _ _ start (nil_subset _) ran
  obtain ⟨root, objectives, rest, files, nodup, covers⟩ := Build.IsCovered.finish_files covered
  refine ⟨root, objectives, rest, files, ?_⟩
  rw [files]
  obtain ⟨rootCovered, restCovered⟩ := forall_mem_cons.1 covers
  have declares : ∀ file ∈ root.declaring objectives :: rest, ∀ line ∈ file.lines,
      CoversNames objectives line.scores := by
    refine forall_mem_cons.2 ⟨?_, fun file member line inside =>
      (restCovered file member line inside).scores⟩
    refine forall_mem_append.2 ⟨?_, fun line inside => (rootCovered line inside).scores⟩
    refine forall_mem_map.2 fun name declared => ?_
    exact coversNames_cons.2 ⟨fun _ => declared, coversNames_nil⟩
  intro file member line inside score named reserved
  have declared := declares file member line inside score named reserved
  have others : CoversLines objectives (rest.flatMap lines) := by
    intro line inside
    obtain ⟨file, isFile, inside⟩ := mem_flatMap.1 inside
    exact restCovered file isFile line inside
  refine ⟨declared, ?_⟩
  rw [flatMap_cons, declaring, countP_append, countP_append,
    countP_creates_declaring nodup declared, countP_creates_covered rootCovered reserved,
    countP_creates_covered others reserved]

/-! A script with decimals, a routine that returns a value, and a message under two conditions. -/

namespace Returning

open Nested (statement)

def script : List Statement := [
  statement (.directive .define) [.word "decimal", .literal (.int 2), .word "x"],
  statement (.directive .define) [.word "a", .assign none, .literal (.int 3)],
  statement (.directive .routine) [.word "f"],
  statement (.openBlock 1) [],
  statement (.directive .result) [.word "a", .arith .add, .literal (.int 1)],
  statement .closeBlock [],
  statement .operation [.word "x", .assign (some .add), .word "a"],
  statement (.directive .condition) [.word "a", .compare .gt, .literal (.int 1), .both, .word "x",
    .compare .gt, .literal (.int 2)],
  statement (.directive (.print true)) [.literal (.text "now \x7ba\x7d")],
  statement .operation [.word "a", .assign none, .word "f", .openParen, .closeParen, .arith .add,
    .literal (.int 2)]]

def naming (score : String) (outcome : EStateM.Result Error Build Unit) : Bool :=
  match outcome with
  | .ok _ last => last.finish.files.any fun file => file.lines.any fun line => line.scores.contains score
  | .error _ _ => false

theorem exists_ok_of_naming {score : String} {outcome : EStateM.Result Error Build Unit}
    (names : naming score outcome = true) : ∃ last, outcome = .ok () last ∧
      ∃ file ∈ last.finish.files, ∃ line ∈ file.lines, score ∈ line.scores := by
  cases outcome with
  | ok value last =>
    obtain ⟨file, isFile, names⟩ := any_eq_true.1 names
    obtain ⟨line, isLine, names⟩ := any_eq_true.1 names
    exact ⟨last, rfl, file, isFile, line, isLine, contains_iff_mem.1 names⟩
  | error error last => cases names

theorem script_names_result : naming "_mcc_rv0" (watchScript (.io "")
    (fun statement before _ => statement.IsOrdinary before) {} script start) = true := by
  decide +kernel

end Returning

/-- The score for the result of the routine is read where the routine is called. -/
theorem reserved_scores_declared_once_returning :
    ∃ last, watchScript (.io "") (fun statement before _ => statement.IsOrdinary before) {}
        Returning.script Nested.start = .ok () last ∧
      runScript {} Returning.script Nested.start = .ok () last ∧
      ∃ (root : CommandFile) (objectives : List String) (rest : List CommandFile),
        last.finish.files = root.declaring objectives :: rest ∧ "_mcc_rv0" ∈ objectives ∧
        (last.finish.files.flatMap CommandFile.lines).countP (Line.creates "_mcc_rv0") = 1 := by
  obtain ⟨last, ran, file, isFile, line, isLine, named⟩ :=
    Returning.exists_ok_of_naming Returning.script_names_result
  obtain ⟨runs, root, objectives, rest, files, once⟩ := reserved_scores_declared_once ran
  obtain ⟨declared, created⟩ := once file isFile line isLine "_mcc_rv0" named (by decide)
  exact ⟨last, ran, runs, root, objectives, rest, files, declared, created⟩

/-- The name after `define` may be an expression. Its value is a temporary, which is then declared a
second time, in the body of the root file. -/
example : (match runScript {} [
      statement (.directive .define) [.word "int", .word "a"],
      statement (.directive .define) [.word "int", .word "a", .arith .add, .literal (.int 1)]]
      start with
    | .ok _ last => (last.finish.files.flatMap lines).countP (Line.creates "_mcc_tmp1")
    | .error _ _ => 0) = 2 := by
  decide +kernel

end ScriptPack
