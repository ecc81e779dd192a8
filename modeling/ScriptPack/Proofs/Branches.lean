import ScriptPack.Proofs.Chains

/-!
An `if` and its `else`, each with one assignment. The condition is tested before the first
assignment, and its negation again after it, on the scores as they are then. So the second
assignment runs where the condition has come to fail, be it through the first one.
-/

namespace ScriptPack

open Assignment Build BuildM Comparison List Operand Question TokenKind

open Clause (toComparison)

def TokenKind.isArithmetic : TokenKind → Bool
  | arith _ | openParen | closeParen => true
  | _ => false

namespace BuildM

section

variable {tokens : List Token} (plain : ∀ token ∈ tokens, token.kind.isArithmetic = false)
  (build : Build)

include plain

theorem evaluateTier_of_plain (high : Bool) :
    evaluateTier high tokens build = .ok tokens build := by
  fun_induction evaluateTier high tokens with
  | case1 left operator right rest leftOperand op rightOperand start ih =>
    have notOperator := plain operator (by simp)
    cases kind : operator.kind with
    | arith op =>
      rw [kind] at notOperator
      contradiction
    | _ => simp [tierStart?, kind] at start
  | case2 left operator right rest start ih =>
    rw [bind_of_ok (ih (forall_mem_cons.1 plain).2)]
    rfl
  | case3 tokens short => rfl

theorem replaceGroup_of_plain (seen : List Token) (outside : Option (List Token)) :
    replaceGroup seen outside tokens build = .ok (seen.reverse ++ tokens, false) build := by
  induction tokens generalizing seen with
  | nil =>
    rw [append_nil]
    rfl
  | cons token rest ih =>
    obtain ⟨first, others⟩ := forall_mem_cons.1 plain
    have passes : replaceGroup seen outside (token :: rest) =
        replaceGroup (token :: seen) outside rest := by
      cases kind : token.kind with
      | openParen | closeParen =>
        rw [kind] at first
        contradiction
      | _ => simp [replaceGroup, kind]
    rw [passes, ih others, reverse_cons, append_assoc]
    rfl

/-- There is nothing to evaluate without operators and parentheses. -/
theorem evaluateArithmetic_of_plain : evaluateArithmetic tokens build = .ok tokens build := by
  have groups : evaluateGroups (tokens.length + 1) tokens build = .ok tokens build := by
    rw [evaluateGroups, bind_of_ok (replaceGroup_of_plain plain build [] none)]
    rfl
  unfold evaluateArithmetic evaluateTiers
  rw [bind_of_ok groups, bind_of_ok (evaluateTier_of_plain plain build true),
    evaluateTier_of_plain plain build false]

end

end BuildM

theorem Operand.IsHeld.binds {build : Build} {operand : Operand}
    (held : operand.IsHeld build.scoreboard) :
    build.BindsPlainly operand.written operand.kind ∧ operand.kind.isArithmetic = false := by
  cases operand with
  | literal value =>
    refine ⟨⟨?_, by simp [kind]⟩, rfl⟩
    cases value with
    | int | bool => exact fun _ _ => rfl
    | _ => cases held
  | counter accessor =>
    obtain ⟨counter, holds⟩ := held
    exact ⟨⟨binds_counter holds.names, by simp [kind]⟩, rfl⟩

/-- A literal is compared as it is if it is not rounded. -/
theorem Value.compared_of_isScore {literal : Value} (isScore : literal.isScore = true) :
    literal.precision = 0 ∧ ∃ number, literal.comparedAs? = some number ∧
      ((Number.Binary.ofInt32 literal.score : Number.Single).roundInt32 = literal.score →
        number.roundInt32 = literal.score) := by
  cases literal with
  | int value => exact ⟨rfl, _, rfl, id⟩
  | bool value => exact ⟨rfl, _, rfl, fun _ => by cases value <;> decide⟩
  | _ => cases isScore

theorem Scoreboard.Holds.isOld {board : Scoreboard} {accessor : String} {counter : Counter}
    (holds : board.Holds accessor counter) (limit : Nat) : counter.IsOld limit :=
  Counter.isOld_of_isIntegerLike holds.simple fun scratch => holds.name_free scratch.isReserved

namespace Clause

/-- What the tokens of a clause are bound to is not arithmetic. -/
theorem IsHeld.binds {build : Build} {clause : Clause} (held : clause.IsHeld build.scoreboard) :
    Forall₂ (fun kind bound => build.BindsPlainly kind bound ∧ bound.isArithmetic = false)
      (clause.parts written id) (clause.parts kind id) := by
  obtain ⟨negations, left, comparison⟩ := clause
  obtain ⟨leftHeld, others⟩ := forall_mem_cons.1 held.operands
  refine rel_append (forall₂_same.2 fun kind member => ?_) (.cons leftHeld.binds ?_)
  · rw [eq_of_mem_replicate member]
    exact ⟨⟨fun _ _ => rfl, by simp⟩, rfl⟩
  · rcases comparison with _ | ⟨op, other⟩
    · exact .nil
    · exact .cons ⟨⟨fun _ _ => rfl, by simp⟩, rfl⟩ (.cons (others other mem_cons_self).binds .nil)

section

variable {board later : Scoreboard} {scores : Scores} {clause : Clause} (held : clause.IsHeld board)

include held

theorem IsHeld.grow (grows : board.Grows later) :
    clause.IsHeld later ∧ clause.toComparison later = clause.toComparison board := by
  obtain ⟨negations, _, comparison⟩ := clause
  obtain ⟨⟨accessor, rfl⟩, operands⟩ := held
  refine ⟨⟨⟨accessor, rfl⟩, fun operand member => ?_⟩, ?_⟩
  · have operandHeld := operands operand member
    cases operand with
    | literal value => exact operandHeld
    | counter accessor =>
      obtain ⟨counter, holds⟩ := operandHeld
      exact ⟨counter, holds.grow grows⟩
  · obtain ⟨counter, holds⟩ := operands _ mem_cons_self
    have same : later.counterOf accessor = board.counterOf accessor := by
      rw [holds.names.finds.counterOf_eq, (holds.grow grows).names.finds.counterOf_eq]
    simp only [toComparison, counterIn, same]

theorem IsHeld.isSettled : (clause.toComparison board).IsSettled board := by
  obtain ⟨negations, _, comparison⟩ := clause
  obtain ⟨⟨accessor, rfl⟩, operands⟩ := held
  obtain ⟨⟨counter, holds⟩, others⟩ := forall_mem_cons.1 operands
  have old := holds.isOld board.nextTemporary
  simp only [toComparison, counterIn, holds.names.finds.counterOf_eq]
  rcases comparison with _ | ⟨op, literal | accessor⟩
  · exact old.name holds.simple
  · obtain ⟨-, number, compared, -⟩ := Value.compared_of_isScore (others _ mem_cons_self)
    exact ⟨old, by rw [compared]; rfl⟩
  · obtain ⟨right, rightHolds⟩ := others _ mem_cons_self
    exact isSettled_counter old rightHolds.names.finds (rightHolds.isOld _) op _

/-- Where the scores are exact, the frame of a clause tests what it says, and so does the frame of
its negation. -/
theorem IsHeld.passes_eq (isExact : clause.IsExact board scores) :
    (clause.toComparison board).passes board scores = clause.holds (valueIn board scores) ∧
      (clause.toComparison board).HasTruth scores ∧ (clause.toComparison board).IsInside := by
  obtain ⟨negations, _, comparison⟩ := clause
  obtain ⟨⟨accessor, rfl⟩, operands⟩ := held
  obtain ⟨⟨counter, holds⟩, others⟩ := forall_mem_cons.1 operands
  have simple := holds.simple
  simp only [toComparison, counterIn, holds.names.finds.counterOf_eq, Question.holds]
  simp only [IsExact, valueIn, holds.names.scoreOf_eq] at isExact ⊢
  rcases comparison with _ | ⟨op, literal | accessor⟩
  · exact ⟨flag_passes isExact _, isExact, trivial⟩
  · obtain ⟨places, number, compared, rounds⟩ := Value.compared_of_isScore (others _ mem_cons_self)
    obtain ⟨rounded, inside⟩ := isExact
    refine ⟨passes_literal simple _ places compared (rounds rounded) inside, trivial, ?_⟩
    change op.saturates (counter.constantFor literal) = false
    rwa [Counter.constantFor_of_isIntegerLike simple places compared, rounds rounded]
  · obtain ⟨right, rightHolds⟩ := others _ mem_cons_self
    simp only [rightHolds.names.scoreOf_eq] at isExact ⊢
    exact ⟨passes_counter simple _ rightHolds.names isExact.1 isExact.2, trivial, trivial⟩

end

section

variable {board : Scoreboard} {scores : Scores} {clauses : List Clause}
  (held : ∀ clause ∈ clauses, clause.IsHeld board)

include held

theorem isSettled_toComparison :
    ∀ comparison ∈ clauses.map (toComparison board), comparison.IsSettled board := by
  intro comparison member
  obtain ⟨clause, clauseMember, rfl⟩ := mem_map.1 member
  exact (held clause clauseMember).isSettled

/-- Where the scores are exact, the frames test the clauses, and those of an `else` their
negation. -/
theorem tests_eq (isExact : ∀ clause ∈ clauses, clause.IsExact board scores) :
    let chain := clauses.map (toComparison board)
    let holds := clauses.all (holds (valueIn board scores))
    passAll board chain scores = holds ∧ failAny board chain scores = !holds := by
  intro chain holds
  have each : ∀ clause ∈ clauses, _ := fun clause member =>
    (held clause member).passes_eq (isExact clause member)
  have all : passAll board chain scores = holds := by
    rw [passAll, all_map, Bool.eq_iff_iff, all_eq_true, all_eq_true]
    refine forall₂_congr fun clause member => ?_
    exact Bool.eq_iff_iff.1 (each clause member).1
  refine ⟨all, ?_⟩
  rw [failAny_eq (isSettled_toComparison held)
    (forall_mem_map.2 fun clause member => (each clause member).2.1)
    (forall_mem_map.2 fun clause member => (each clause member).2.2), all]

end

end Clause

namespace BuildM

variable {run : Runner} {statement : Statement} {before : Build}
  {clauses : List Clause}

theorem prepare_clauses (noCall : statement.kind ≠ .call)
    (spelled : statement.tokens.map Token.kind = joined written id clauses)
    (held : ∀ clause ∈ clauses, clause.IsHeld before.scoreboard) :
    ∃ tokens, tokens.map Token.kind = joined kind id clauses ∧
      prepare statement before = .ok tokens before := by
  have binds : Forall₂ _ (joined written id clauses) _ :=
    forall₂_joined ⟨⟨fun _ _ => rfl, by simp⟩, rfl⟩
      (forall₂_same.2 fun clause member => (held clause member).binds)
  rw [← spelled] at binds
  obtain ⟨tokens, isBound, boundKinds, noRoutine⟩ := bindTokens_plainly (binds.imp fun _ _ => And.left)
  have plain := ((forall₂_and_left _ _).1 (Forall₂.flip (binds.imp fun _ _ both => both.symm))).1
  refine ⟨tokens, boundKinds, ?_⟩
  rw [prepare_of_bound noCall isBound noRoutine]
  exact evaluateArithmetic_of_plain (forall_mem_map.1 (boundKinds ▸ plain)) before

end BuildM

def replayIf? (calls : Calls) (holds : Bool) (commands : List Command) (scores : Scores) :
    Option Scores :=
  if holds then replayAll? calls commands scores else some scores

/-- Where calls run the files, the lines do what the commands do where the test holds, once they
have prepared temporaries from a number on. -/
def PerformsIf (limit : Nat) (test : Scores → Bool) (commands : List Command) (lines : List Line)
    (files : List CommandFile) (prepare : Scores → Scores) : Prop :=
  (∀ scores, Scores.AgreesOff limit scores (prepare scores)) ∧
    ∀ calls, Runs calls files → ∀ scores, replayLines? calls lines scores =
      replayIf? calls (test scores) commands (prepare scores)

theorem Tests.performs {limit next : Nat} {test : Scores → Bool} {commands : List Command}
    {lines body : List Line} {frames : List Frame} {files : List CommandFile}
    (tests : Tests limit next lines frames test) (performs : Performs frames commands body files) :
    ∃ prepare, PerformsIf limit test commands (lines ++ body) files prepare := by
  choose prepare replayed agrees admits using tests.replay
  refine ⟨prepare, agrees, fun calls runs scores => ?_⟩
  rw [replayLines?_append, replayed, Option.bind_some,
    performs calls runs (prepare scores) (test scores) (admits scores), replayIf?]

def Build.afterBody (build : Build) (statement : Statement) (lines : List Line)
    (files : List CommandFile) (session : Session) (board : Scoreboard) : Build :=
  { build.grown lines files session board with
    line := statement.line
    source := statement.source
    frames := []
    pendingPops := []
    unreachable := none }

namespace BuildM

variable {run : Runner} {before after : Build}

/-- The assignment after a condition, where a test of the scores has been prepared. -/
theorem runScoped_body {guard body : Statement} {lines : List Line} {frames : List Frame}
    {board : Scoreboard} {unreachable : Option Nat} {limit : Nat} {test : Scores → Bool}
    (isOperation : body.kind = .operation) (callsNothing : body.CallsNothing before)
    (noPops : before.pendingPops = []) (tests : Tests limit board.nextTemporary lines frames test)
    (ran : runScoped run body (before.beforeBody guard lines frames board unreachable) =
      .ok () after) :
    ∃ commands written files session later prepare,
      after = before.afterBody body written files session later ∧
      before.session.Generates session files ∧ board.Extends later ∧
      PerformsIf limit test commands written files prepare ∧
      ∀ alone : Build, (before.setBoard board).Alike alone → alone.IsUnguarded →
        body.WritesAlone run alone commands := by
  obtain ⟨commands, bodyLines, files, session, later, rfl, performs, generates, extension, -,
    alone⟩ := @runScoped_operation run body (before.beforeBody guard lines frames board unreachable)
      after _ _ isOperation (bindsNoRoutine_of_callsNothing callsNothing) rfl tests.stable
      (congrArg (1 :: ·) noPops) rfl ran
  obtain ⟨prepare, performsIf⟩ := tests.performs performs
  refine ⟨commands, lines ++ bodyLines, files, session, later, prepare, ?_, generates, extension,
    performsIf, fun build alike => alone build ⟨alike.scoreboard, alike.environment,
      alike.routines⟩⟩
  simp [afterBody, grown, beforeBody, CommandFile.append]

end BuildM

/-- An `if` and its `else`, each with an assignment without calls. The second assignment runs where
the condition fails on the scores that the first one has left, so both run where it has made the
condition fail. -/
theorem branches_replay {run : List Statement → BuildM Unit}
    {condition first otherwise second : Statement} {rest : List Statement} {clauses : List Clause}
    {before after : Build} (isCondition : condition.kind = .directive .condition)
    (spelled : condition.tokens.map Token.kind = Question.joined Operand.written id clauses)
    (nonempty : clauses ≠ []) (held : ∀ clause ∈ clauses, clause.IsHeld before.scoreboard)
    (isFirst : first.kind = .operation) (firstCalls : first.CallsNothing before)
    (isOtherwise : otherwise.kind = .directive .otherwise) (noTokens : otherwise.tokens = [])
    (isSecond : second.kind = .operation) (secondCalls : second.CallsNothing before)
    (unguarded : before.IsUnguarded)
    (upcoming : before.upcoming = condition :: first :: otherwise :: second :: rest)
    (compiled : BuildM.runUpcoming run 4 before = .ok () after) :
    let board := before.scoreboard
    let chain := clauses.map (Clause.toComparison board)
    ∃ (firstBoard secondBoard : Scoreboard) (firstCommands secondCommands : List Command)
      (enterFirst enterSecond : Scores → Scores) (lines : List Line) (files : List CommandFile),
      (board.Extends firstBoard ∧ first.WritesAlone run (before.setBoard firstBoard) firstCommands) ∧
      (board.Extends secondBoard ∧
        second.WritesAlone run (before.setBoard secondBoard) secondCommands) ∧
      (∀ scores, Scores.AgreesOff board.nextTemporary scores (enterFirst scores) ∧
        Scores.AgreesOff board.nextTemporary scores (enterSecond scores)) ∧
      after.file = before.file.append lines ∧ after.pack.files = before.pack.files ++ files ∧
      (∀ depth scores,
        let calls := Pack.calls after.pack.files (depth + 1)
        replayLines? calls lines scores =
          (replayIf? calls (Comparison.passAll board chain scores) firstCommands
            (enterFirst scores)).bind fun middle =>
          replayIf? calls (Comparison.failAny board chain middle) secondCommands
            (enterSecond middle)) ∧
      ∀ scores, (∀ clause ∈ clauses, clause.IsExact board scores) →
        let holds := clauses.all (Question.holds (Operand.valueIn board scores))
        Comparison.passAll board chain scores = holds ∧
          Comparison.failAny board chain scores = !holds := by
  intro board chain
  have inline {build : Build} {statement : Statement} {others : List Statement}
      (next : build.upcoming = statement :: others) (isOperation : statement.kind = .operation) :
      build.nextBlockSize? = none := by
    simp [Build.nextBlockSize?, next, Statement.size?, isOperation]
  have someChain : chain ≠ [] := fun empty => nonempty (map_eq_nil_iff.1 empty)
  have settled := Clause.isSettled_toComparison held
  -- what is read is what is spelled, with whatever temporaries there are
  have isChain {later : Scoreboard} {tokens : List Token} {found : List Comparison}
      (grows : board.Grows later)
      (kinds : tokens.map Token.kind = joined kind id clauses)
      (read : readChain later false tokens = .ok found) : found = chain := by
    rw [← readChain_clauses nonempty
      (fun clause member => ((held clause member).grow grows).1) kinds read]
    exact map_congr_left fun clause member => ((held clause member).grow grows).2
  obtain ⟨started, ranCondition, continued⟩ := runUpcoming_cons upcoming compiled
  let start := { before with upcoming := first :: otherwise :: second :: rest }
  have firstInline : start.nextBlockSize? = none := inline rfl isFirst
  obtain ⟨tokens, prepared, found, prepares, read, guarded⟩ :=
    @runScoped_condition start run condition started unguarded.self unguarded.noFrames
      (.inl firstInline) ranCondition isCondition
  have grows := (Scoreboard.keeps_pushScope board).grows
  obtain ⟨bound, kinds, preparesPlainly⟩ :=
    @prepare_clauses condition (start.enter condition) clauses (by simp [isCondition])
      spelled fun clause member => ((held clause member).grow grows).1
  obtain ⟨rfl, rfl⟩ := EStateM.Result.ok.inj (prepares.symm.trans preparesPlainly)
  have growsKept := grows.trans (Scoreboard.grows_keepTemporaries board.pushScope)
  obtain rfl := isChain growsKept kinds read
  obtain ⟨guardLines, frames, firstBoard, _, rfl, firstExtends, firstTests⟩ :=
    guarded [] (.refl _) board growsKept someChain settled
  rw [@Build.atBody_of_inline (start.rememberCondition tokens) firstInline] at continued
  obtain ⟨passed, ranFirst, continued⟩ := runUpcoming_cons rfl continued
  let between := { before with upcoming := otherwise :: second :: rest }.rememberCondition tokens
  obtain ⟨firstCommands, firstLines, firstFiles, session, middleBoard, enterFirst, rfl, generates,
    middleExtends, firstPerforms, firstAlone⟩ :=
    @runScoped_body run between passed condition first _ _ _ _ _ _ isFirst firstCalls
      unguarded.noPops firstTests ranFirst
  obtain ⟨restarted, ranOtherwise, continued⟩ := runUpcoming_cons rfl continued
  let middle := { between.afterBody first firstLines firstFiles session middleBoard with
    upcoming := second :: rest }
  have secondInline : middle.nextBlockSize? = none := inline rfl isSecond
  have extension : board.Extends middleBoard := firstExtends.trans middleExtends
  have remembered : middle.lastCondition? = some tokens := by
    change ((before.lastConditions.insert before.depth tokens).get? before.depth) = some tokens
    simp
  obtain ⟨found, read, guarded⟩ :=
    @runScoped_otherwise middle run otherwise restarted unguarded.self rfl (.inl secondInline)
      ranOtherwise isOtherwise noTokens tokens remembered
  have growsMiddle := extension.grows.trans (Scoreboard.keeps_pushScope middleBoard).grows
  obtain rfl := isChain growsMiddle kinds read
  obtain ⟨otherLines, otherFrames, secondBoard, _, rfl, secondExtends, secondTests⟩ :=
    guarded board growsMiddle someChain settled
  rw [Build.atBody_of_inline secondInline] at continued
  obtain ⟨finished, ranSecond, continued⟩ := runUpcoming_cons rfl continued
  let last := { middle with upcoming := rest }
  obtain ⟨secondCommands, secondLines, secondFiles, lastSession, lastBoard, enterSecond, rfl,
    generatesLast, lastExtends, secondPerforms, secondAlone⟩ :=
    @runScoped_body run last finished otherwise second _ _ _ _ _ _ isSecond secondCalls
      rfl secondTests ranSecond
  cases continued
  have alone (counters : Scoreboard) : (before.setBoard counters).IsUnguarded :=
    ⟨unguarded.self, unguarded.noFrames, unguarded.noPops, unguarded.isReachable⟩
  have filesEqual : (before.pack.files ++ firstFiles) ++ secondFiles =
      before.pack.files ++ (firstFiles ++ secondFiles) := append_assoc _ _ _
  refine ⟨firstBoard, secondBoard, firstCommands, secondCommands, enterFirst, enterSecond,
    firstLines ++ secondLines, firstFiles ++ secondFiles,
    ⟨firstExtends, firstAlone _ ⟨rfl, rfl, rfl⟩ (alone _)⟩,
    ⟨extension.trans secondExtends, secondAlone _ ⟨rfl, rfl, rfl⟩ (alone _)⟩,
    fun scores => ⟨firstPerforms.1 scores, (secondPerforms.1 scores).mono extension.next_le⟩,
    CommandFile.append_append _ _ _, filesEqual, ?_, fun scores => Clause.tests_eq held⟩
  intro depth scores calls
  have runs : Runs calls (firstFiles ++ secondFiles) := by
    have added := Pack.runs_calls (generates.trans generatesLast).distinct before.pack.files depth
    rwa [← filesEqual] at added
  rw [replayLines?_append, firstPerforms.2 calls runs.of_append.1]
  congr 1
  funext reached
  rw [secondPerforms.2 calls runs.of_append.2]

namespace Branches

def clause : Clause := ⟨0, .counter "a", some (.eq, .literal (.int 1))⟩

def program : List Statement :=
  [⟨.directive .condition, (clause.parts written id).map fun kind => ⟨kind, 1⟩, 1, ""⟩,
    statementOf "a" none (.product (.factor (.leaf (.number 5)))),
    ⟨.directive .otherwise, [], 1, ""⟩,
    statementOf "b" none (.product (.factor (.leaf (.number 2))))]

def start : Build :=
  { defining ["a", "b"] with upcoming := program }

def scoreAfter (outcome : EStateM.Result Error Build Unit) (scores : Scores) (objective : String) :
    Option Int32 :=
  match outcome with
  | .ok _ after =>
      (replayLines? (Pack.calls after.pack.files 1) after.file.lines scores).map (· objective)
  | .error _ _ => none

end Branches

/-- From `a = 1`, the assignment of the `if` makes its condition fail, and both run. -/
theorem branches_replay_both :
    let outcome := BuildM.runUpcoming (fun _ => pure ()) 4 Branches.start
    let ones : Scores := fun objective => if objective = "a" then 1 else 0
    Branches.scoreAfter outcome ones "a" = some 5 ∧ Branches.scoreAfter outcome ones "b" = some 2 ∧
      ∃ after firstCommands secondCommands, ∃ enterFirst enterSecond : Scores → Scores,
        outcome = .ok () after ∧
        let calls := Pack.calls after.pack.files 1
        replayLines? calls after.file.lines ones =
          (replayAll? calls firstCommands (enterFirst ones)).bind fun middle =>
            replayIf? calls
              (!Branches.clause.holds (Operand.valueIn Branches.start.scoreboard middle))
              secondCommands (enterSecond middle) := by
  intro outcome ones
  have success : succeeds outcome = true := by decide +kernel
  obtain ⟨_, after, ran⟩ := exists_ok_of_succeeds success
  have held : ∀ clause ∈ [Branches.clause], clause.IsHeld Branches.start.scoreboard := by
    refine forall_mem_singleton.2 ⟨⟨"a", rfl⟩, forall_mem_cons.2 ⟨?_, ?_⟩⟩
    · exact ⟨⟨"a", .int⟩, by decide, rfl, by decide, by decide⟩
    · exact forall_mem_singleton.2 rfl
  have callsNothing (accessor : String) (value : Int32) : (Assignment.statementOf accessor none
      (.product (.factor (.leaf (.number value))))).CallsNothing Branches.start := by
    refine forall_mem_cons.2 ⟨⟨nofun, fun _ _ => rfl⟩, ?_⟩
    refine forall_mem_cons.2 ⟨⟨nofun, nofun⟩, forall_mem_singleton.2 ⟨nofun, nofun⟩⟩
  obtain ⟨firstBoard, secondBoard, firstCommands, secondCommands, enterFirst, enterSecond, lines,
    files, -, -, -, written, -, replay, exactly⟩ :=
    branches_replay rfl rfl (cons_ne_nil _ _) held rfl (callsNothing "a" 5) rfl rfl rfl
      (callsNothing "b" 2) ⟨rfl, rfl, rfl, rfl⟩ rfl ran
  refine ⟨by decide +kernel, by decide +kernel, after, firstCommands, secondCommands, enterFirst,
    enterSecond, ran, ?_⟩
  have tested (scores : Scores) :=
    exactly scores (forall_mem_singleton.2 ⟨by decide, rfl⟩)
  have passed : Branches.clause.holds (valueIn Branches.start.scoreboard ones) = true := by
    decide
  have replayed := replay 0 ones
  simp only [(tested _).1, (tested _).2, all_cons, all_nil, Bool.and_true, passed] at replayed
  rw [written]
  exact replayed

end ScriptPack
