import ScriptPack.Proofs.Questions

/-!
An assignment under a condition. The condition and the assignment may be over any integer
expressions, and the assignment may stand in a block of its own. Its commands are executed where
the condition holds for the scores at the start, and otherwise nothing but temporaries changes.
-/

namespace ScriptPack

open Assignment Atom Build BuildM CommandFile Comparison List Phrase Question Scoreboard Scores

theorem CommandFile.append_plain_inj {file : CommandFile} {first second : List Command}
    (same : file.append (first.map .plain) = file.append (second.map .plain)) : first = second := by
  have injective : Function.Injective Line.plain := fun _ _ equal => congrArg Line.command equal
  exact map_injective_iff.2 injective (append_cancel_left (congrArg lines same))

section

variable {board later : Scoreboard} {atom : Atom} (held : atom.IsHeld board)
  (extension : board.Extends later)

include held extension

theorem Atom.IsHeld.extend : atom.IsHeld later := by
  cases atom with
  | number value => trivial
  | counter accessor =>
    obtain ⟨counter, holds⟩ := held
    exact ⟨counter, holds.extend extension⟩

theorem Atom.IsHeld.value_extend {limit : Nat} {scores middle : Scores}
    (agrees : AgreesOff limit scores middle) :
    value later middle atom = value board scores atom := by
  cases atom with
  | number value => rfl
  | counter accessor =>
    obtain ⟨counter, holds⟩ := held
    change later.scoreOf middle accessor = board.scoreOf scores accessor
    rw [holds.names.scoreOf_eq, (holds.extend extension).names.scoreOf_eq]
    exact agrees _ fun scratch => holds.name_free scratch.isReserved

end

theorem Quantity.IsHeld.grow {board later : Scoreboard} {quantity : Quantity}
    (held : quantity.IsHeld board) (grows : board.Grows later) : quantity.IsHeld later := by
  intro accessor isCounter
  obtain ⟨counter, holds⟩ := held accessor isCounter
  exact ⟨counter, holds.grow grows⟩

namespace BuildM

variable {run : Runner} {before after : Build}

theorem runScoped_questions {condition : Statement}
    {questions : List (Question (Expression Atom .sum))} {answers : List (Question Quantity)}
    {scores : Scores} (isCondition : condition.kind = .directive .condition)
    (spelled : condition.tokens.map Token.kind =
      (phrases questions).flatMap (kinds written))
    (nonempty : questions ≠ [])
    (held : ∀ question ∈ questions, ∀ e ∈ question.operands, ∀ atom ∈ e.leaves,
      atom.IsHeld before.scoreboard)
    (self : before.active = .self) (noFrames : before.frames = []) (one : before.HasOneNext)
    (answered : Forall₂ (fun question answer =>
      question.answer? before.scoreboard scores = some answer) questions answers)
    (isExact : ∀ answer ∈ answers, answer.IsExact)
    (ran : runScoped run condition before = .ok () after) :
    ∃ tokens lines frames board unreachable,
      after = (before.rememberCondition tokens).atBody.beforeBody condition lines frames board
        unreachable ∧
      before.scoreboard.Extends board ∧ Frame.AreStable board.nextTemporary frames ∧
      ∃ middle, (∀ calls, replayLines? calls lines scores = some middle) ∧
        AgreesOff before.scoreboard.nextTemporary scores middle ∧
        Frame.admitAll? middle frames = some (answers.all (holds Quantity.value)) := by
  let entered := before.enter condition
  obtain ⟨tokens, prepared, chain, prepares, read, guarded⟩ :=
    runScoped_condition self noFrames one ran isCondition
  -- the operands are evaluated without frames
  have phrasesHeld : ∀ phrase ∈ phrases questions, phrase.IsHeld entered.scoreboard := by
    refine forall_mem_joined ?_ rfl (fun _ => rfl) rfl
    exact fun question member e operand atom leaf => (held question member e operand atom leaf).pushScope
  obtain ⟨evaluation, lowers, replay⟩ := prepare_spelled (by simp [isCondition])
    spelled phrasesHeld self noFrames prepares
  have quantities : quantity entered.scoreboard scores = quantity before.scoreboard scores := by
    funext atom
    rw [quantity, quantity]
    exact congrArg (fun value => Quantity.mk (value atom) atom.source)
      (value_pushScope before.scoreboard scores)
  obtain ⟨evaluated, reaches, denote⟩ := replay scores (joined .quantity .mark answers) (by
    rw [quantities]
    exact forall₂_joined rfl (answered.imp fun _ _ => parts_of_answer?))
  -- with the temporaries kept, the tokens are read as comparisons
  have keeps := (keeps_pushScope before.scoreboard).keepTemporaries lowers.board
  have operandsHeld : ∀ answer ∈ answers, ∀ quantity ∈ answer.operands,
      quantity.IsHeld prepared.scoreboard.keepTemporaries := fun answer member quantity operand =>
    (isHeld_of_answers answered held answer member quantity operand).grow keeps.grows
  have answersSome : answers ≠ [] := by
    rintro rfl
    cases answered
    exact nonempty rfl
  have answersRead := readChain_answers answersSome operandsHeld isExact
    (forall₂_map_left_iff.2 (denote.imp fun _ _ denotes =>
      denotes.grow (grows_keepTemporaries _) (.refl _ _))) read
  obtain ⟨settled, passes⟩ := passAll_of_answers answersRead
  have chainSome : chain ≠ [] := by
    rintro rfl
    cases answersRead
    exact answersSome rfl
  -- the frames of the comparisons are put around the body
  obtain ⟨lines, frames, board, unreachable, rfl, extension, tests⟩ :=
    guarded evaluation lowers _ (.refl _) chainSome settled
  obtain ⟨middle, replayed, agrees, admits⟩ := tests.replay evaluated
  refine ⟨tokens, evaluation.map .plain ++ lines, frames, board, unreachable, rfl, extension,
    tests.stable, middle, ?_, ?_, ?_⟩
  · intro calls
    rw [replayLines?_append, replayLines?_plain, reaches.replayed, Option.bind_some, replayed]
  · exact reaches.agrees.agreesOff.trans (agrees.mono lowers.board.next_le)
  · rw [admits, passes]

end BuildM

namespace BuildM

variable {run : Runner} {statement : Statement} {before after : Build}

theorem runScoped_closeBlock (closes : statement.kind = .closeBlock)
    {blocks : List (List BlockAction)} (openBlocks : before.openBlocks = [] :: blocks)
    (ran : runScoped run statement before = .ok () after) :
    after.file = before.file ∧ after.pack = before.pack := by
  obtain ⟨middle, unreachable, ranInside, rfl⟩ := runScoped_eq_ok ran
  simp only [runStatement, closes] at ranInside
  rw [bind_of_ok (get_apply _)] at ranInside
  obtain ⟨closed, isClosed, continued⟩ := bind_orFail_eq_ok_iff.1 ranInside
  have inside : (before.enter statement).openBlocks = [] :: blocks := openBlocks
  simp only [closeBlock?, inside, foldl_nil, Option.some.injEq] at isClosed
  cases continued
  rw [settlePops_file, settlePops_pack, ← isClosed]
  exact ⟨rfl, rfl⟩

/-- The assignment has written its lines under the frames, after others. In every state in which names
mean the same, it writes its commands without frames. -/
def PerformsAfter (run : List Statement → BuildM Unit) (statement : Statement) (before : Build)
    (frames : List Frame) (lines : List Line) (after : Build) : Prop :=
  ∃ commands written files session, after.file = before.file.append (lines ++ written) ∧
    after.pack.files = before.pack.files ++ files ∧ before.session.Generates session files ∧
    Performs frames commands written files ∧
    ∀ other : Build, before.Alike other → other.active = .self → other.frames = [] →
      ∃ last, runStatement run statement (other.enter statement) = .ok () last ∧
        last.file = other.file.append (commands.map .plain)

theorem runScoped_performs (isOperation : statement.kind = .operation)
    (noRoutine : statement.BindsNoRoutine (before.enter statement)) (self : before.active = .self)
    (stable : Frame.AreStable before.scoreboard.nextTemporary before.frames)
    (ran : runScoped run statement before = .ok () after) :
    (after.upcoming = before.upcoming ∧ after.openBlocks = before.openBlocks) ∧
    PerformsAfter run statement before before.frames [] after := by
  obtain ⟨middle, unreachable, ranInside, rfl⟩ := runScoped_eq_ok ran
  obtain ⟨commands, lines, files, session, board, frames, rfl, performs, generates, -, same⟩ :=
    @runStatement_performs run statement (before.enter statement) middle isOperation noRoutine self
      stable ranInside
  obtain ⟨_, _, _, _, _, settled⟩ := settlePops_eq (leave
    { (before.enter statement).grown lines files session board with frames } unreachable)
  rw [settled]
  refine ⟨⟨rfl, rfl⟩, commands, lines, files, session, rfl, rfl, generates, performs, ?_⟩
  intro other alike otherSelf noFrames
  have entered : (before.enter statement).Alike (other.enter statement) :=
    ⟨congrArg pushScope alike.scoreboard, alike.environment, alike.routines⟩
  exact ⟨_, same (other.enter statement) entered otherSelf noFrames, rfl⟩

theorem runUpcoming_body {guard : Statement} {body rest : List Statement} {steps : Nat}
    {lines : List Line} {frames : List Frame} {board : Scoreboard}
    {unreachable : Option Nat} (isBody : statement.IsBody steps body)
    (isOperation : statement.kind = .operation)
    (noRoutine : statement.BindsNoRoutine ((before.setBoard board).enter statement))
    (stable : Frame.AreStable board.nextTemporary frames) (upcoming : before.upcoming = body ++ rest)
    (ran : runUpcoming run steps
      (before.atBody.beforeBody guard lines frames board unreachable) = .ok () after) :
    PerformsAfter run statement (before.setBoard board) frames lines after := by
  have performed {next : List Statement} {blocks : List (List BlockAction)} {passed : Build}
      (ranBody : runScoped run statement { before.beforeBody guard lines frames board unreachable with
        upcoming := next
        openBlocks := blocks } = .ok () passed) :
      (passed.upcoming = next ∧ passed.openBlocks = blocks) ∧
      PerformsAfter run statement (before.setBoard board) frames lines passed := by
    obtain ⟨next, commands, written, files, session, file, packFiles, generates, performs, alone⟩ :=
      runScoped_performs isOperation (by exact noRoutine) rfl (by exact stable) ranBody
    refine ⟨next, commands, written, files, session, ?_, packFiles, generates, performs,
      fun build alike => alone build ⟨alike.scoreboard, alike.environment, alike.routines⟩⟩
    rw [file]
    exact append_append _ _ _
  cases isBody with
  | inline isSingle =>
    have plain : before.nextBlockSize? ≠ some 1 := by
      simp [nextBlockSize?, upcoming, isSingle]
    rw [atBody, if_neg plain] at ran
    obtain ⟨passed, ranBody, ⟨⟩⟩ := runUpcoming_cons (by exact upcoming) ran
    exact (performed ranBody).2
  | @block opening closing opens closes =>
    have isBlock : before.nextBlockSize? = some 1 := by
      simp [nextBlockSize?, upcoming, opens]
    rw [atBody, if_pos isBlock, upcoming] at ran
    obtain ⟨passed, ranBody, continued⟩ := runUpcoming_cons rfl ran
    obtain ⟨⟨next, blocks⟩, passes⟩ := performed ranBody
    obtain ⟨closed, ranClosing, ⟨⟩⟩ := runUpcoming_cons next continued
    obtain ⟨file, pack⟩ := @runScoped_closeBlock run closing
      { passed with upcoming := rest } _ closes _ blocks ranClosing
    rwa [PerformsAfter, file, pack]

end BuildM

theorem Statement.bindsNoRoutine_of_spelled {statement : Statement} {build : Build}
    {phrases : List (Phrase Atom)}
    (spelled : statement.tokens.map Token.kind = phrases.flatMap (kinds written))
    (held : ∀ phrase ∈ phrases, phrase.IsHeld build.scoreboard) : statement.BindsNoRoutine build := by
  intro tokens bound
  obtain ⟨plain, isBound, -, noRoutine⟩ := bindTokens_plainly (spelled ▸ Phrase.binds_flatMap held)
  cases isBound.symm.trans bound
  exact noRoutine

theorem Scores.agreesOff_of_put {limit : Nat} {scores final : Scores} {objective : String}
    {value : Int32} (stored : final objective = value)
    (kept : ∀ other, other ≠ objective → ¬IsScratch limit other →
      final other = scores other) : AgreesOff limit (scores.put objective value) final := by
  intro other old
  by_cases same : other = objective
  · rw [same, stored, put_same]
  · rw [kept other same old, put_other same]

/-- An assignment alone, seen from any scores that differ in temporaries only. -/
theorem Assigns.agreesOff {limit later : Nat} {objective : String} {commands : List Command}
    {scores middle final : Scores} {result : Int32} (le : limit ≤ later)
    (agrees : AgreesOff limit scores middle)
    (assigns : Assigns later objective commands middle final result) :
    AgreesOff limit (scores.put objective result) final := by
  refine agreesOff_of_put assigns.stored fun other different old => ?_
  rw [assigns.kept other different ?_, agrees other old]
  rintro index bound rfl
  exact old (isScratch_temporaryObjective (le.trans bound))

/-- An assignment under a condition. Where the condition holds, the scores end as the assignment
alone leaves them, and otherwise none but temporaries change. -/
theorem guarded_assignment_replay {run : List Statement → BuildM Unit}
    {condition statement : Statement} {body rest : List Statement} {steps : Nat}
    {questions : List (Question (Expression Atom .sum))} {answers : List (Question Quantity)}
    {accessor : String} {target : Counter} {op : Option ArithOp} {e : Expression Atom .sum}
    {before after : Build} {scores : Scores}
    (isCondition : condition.kind = .directive .condition)
    (asks : condition.tokens.map Token.kind =
      (Question.phrases questions).flatMap (Phrase.kinds Atom.written))
    (nonempty : questions ≠ [])
    (asksHeld : ∀ question ∈ questions, ∀ operand ∈ question.operands, ∀ atom ∈ operand.leaves,
      atom.IsHeld before.scoreboard)
    (isOperation : statement.kind = .operation)
    (spelled : statement.tokens.map Token.kind =
      .word accessor :: .assign op :: e.kinds Atom.written)
    (holds : before.scoreboard.Holds accessor target) (integer : target.kind.isInteger = true)
    (operands : ∀ atom ∈ e.leaves, atom.IsHeld before.scoreboard)
    (isBody : statement.IsBody steps body) (self : before.active = .self)
    (noFrames : before.frames = [])
    (upcoming : before.upcoming = condition :: (body ++ rest))
    (compiled : BuildM.runUpcoming run (steps + 1) before = .ok () after)
    (answered : List.Forall₂ (fun question answer =>
      question.answer? before.scoreboard scores = some answer) questions answers)
    (isExact : ∀ answer ∈ answers, answer.IsExact) :
    let limit := before.scoreboard.nextTemporary
    ∃ lines files, after.file = before.file.append lines ∧
      after.pack.files = before.pack.files ++ files ∧ ∀ depth,
      let calls := Pack.calls after.pack.files (depth + 1)
      (answers.all (Question.holds Quantity.value) = true → ∀ value result,
        e.value (Atom.value before.scoreboard scores) = some value →
        assigned op (scores target.name) value = some result →
        ∃ final, replayLines? calls lines scores = some final ∧
          Scores.AgreesOff limit (scores.put target.name result) final ∧
          ∀ commands, statement.WritesAlone run before commands →
            ∃ alone, replayAll? calls commands scores = some alone ∧
              Scores.AgreesOff limit alone final) ∧
      (answers.all (Question.holds Quantity.value) = false →
        ∃ final, replayLines? calls lines scores = some final ∧
          Scores.AgreesOff limit scores final) := by
  intro limit
  obtain ⟨started, ranCondition, continued⟩ := runUpcoming_cons upcoming compiled
  let entered := { before with upcoming := body ++ rest }
  have one : entered.HasOneNext := isBody.nextBlockSize? rfl
  obtain ⟨tokens, lines, frames, board, unreachable, rfl, extension, stable, middle, replayed, agrees,
    admits⟩ := @runScoped_questions run entered started condition questions answers scores
      isCondition asks nonempty asksHeld self noFrames one answered isExact ranCondition
  have operandsHeld : ∀ atom ∈ e.leaves, atom.IsHeld board :=
    fun atom member => (operands atom member).extend extension
  have noRoutine : statement.BindsNoRoutine
      (((entered.rememberCondition tokens).setBoard board).enter statement) :=
    Statement.bindsNoRoutine_of_spelled (spelled.trans (kinds_phrases ..).symm)
      (phrases_isHeld (holds.extend extension).pushScope
        fun atom member => (operandsHeld atom member).pushScope)
  obtain ⟨commands, written, files, session, file, packFiles, generates, performs, alone⟩ :=
    runUpcoming_body isBody isOperation noRoutine stable rfl continued
  refine ⟨lines ++ written, files, file, packFiles, fun depth => ?_⟩
  intro calls
  have runs : Runs calls files := by
    have added := Pack.runs_calls generates.distinct before.pack.files depth
    rwa [← show after.pack.files = before.pack.files ++ files from packFiles] at added
  have whole : replayLines? calls (lines ++ written) scores =
      if answers.all (Question.holds Quantity.value) then replayAll? calls commands middle else some middle := by
    rw [replayLines?_append, replayed, Option.bind_some, performs calls runs middle _ admits]
  refine ⟨fun passes value result valued computed => ?_, fun fails => ?_⟩
  · have valuedMiddle : e.value (Atom.value board middle) = some value := by
      rw [← valued]
      exact Expression.value_congr fun atom member =>
        (operands atom member).value_extend extension agrees
    have computedMiddle : assigned op (middle target.name) value = some result := by
      rw [agrees _ fun scratch => holds.name_free scratch.isReserved]
      exact computed
    obtain ⟨last, ranAlone, lastFile⟩ := alone (before.setBoard board) ⟨rfl, rfl, rfl⟩ self noFrames
    obtain ⟨_, written, -, assigns⟩ := @runStatement_assigns run statement
      (before.setBoard board) last accessor target op e isOperation spelled self noFrames
      (holds.extend extension) integer operandsHeld ranAlone
    cases CommandFile.append_plain_inj (lastFile.symm.trans written)
    obtain ⟨final, assigns⟩ := assigns middle value result valuedMiddle computedMiddle
    have agreesFinal := assigns.agreesOff extension.next_le agrees
    refine ⟨final, ?_, agreesFinal, fun commands writes => ?_⟩
    · rw [whole, passes]
      exact assigns.replayed calls
    · obtain ⟨_, ran, file, -⟩ := writes
      obtain ⟨last, unreachable, ranInside, rfl⟩ := runScoped_eq_ok ran
      obtain ⟨_, written, -, assigns⟩ := runStatement_assigns isOperation spelled self noFrames
        holds integer operands ranInside
      cases CommandFile.append_plain_inj (file.symm.trans ((Build.settlePops_file _).trans written))
      obtain ⟨last, assignsAlone⟩ := assigns scores value result valued computed
      refine ⟨last, assignsAlone.replayed calls, fun objective old => ?_⟩
      rw [agreesFinal objective old, assignsAlone.agreesOff le_rfl (.refl _ _) objective old]
  · refine ⟨middle, ?_, agrees⟩
    rw [whole, fails]
    rfl

namespace GuardedAssignment

def questions : List (Question (Expression Atom .sum)) :=
  [⟨0, .product (.factor (.leaf (.counter "f"))), none⟩,
    ⟨0, .product (.times (.factor (.leaf (.counter "a"))) .mul (.refl true) (.leaf (.number 2))),
      some (.gt, .product (.factor (.leaf (.counter "b"))))⟩]

def conditionOf (questions : List (Question (Expression Atom .sum))) : Statement where
  kind := .directive .condition
  tokens := ((phrases questions).flatMap (kinds written)).map fun kind => ⟨kind, 1⟩
  line := 1
  source := ""

def start : Build :=
  { Chains.having [⟨"r", .int⟩, ⟨"a", .int⟩, ⟨"b", .int⟩, ⟨"f", .bool⟩] with
    upcoming := [conditionOf questions, ⟨.openBlock 1, [], 1, ""⟩,
      statementOf "r" (some .sub) sample, ⟨.closeBlock, [], 1, ""⟩] }

def scores (flag : Int32) : Scores := fun objective =>
  if objective = "f" then flag else if objective = "r" then 9 else 3

def answers (flag : Int32) : List (Question Quantity) :=
  [⟨0, ⟨flag, .counter "f"⟩, none⟩, ⟨0, ⟨6, .computed⟩, some (.gt, ⟨3, .counter "b"⟩)⟩]

theorem isHeld_sample {accessor : String} (member : accessor ∈ ["r", "a", "b", "f"]) :
    ∃ counter, start.scoreboard.Holds accessor counter := by
  simp only [mem_cons, not_mem_nil, or_false] at member
  rcases member with rfl | rfl | rfl | rfl
  · exact ⟨⟨"r", .int⟩, by decide, rfl, by decide, by decide⟩
  · exact ⟨⟨"a", .int⟩, by decide, rfl, by decide, by decide⟩
  · exact ⟨⟨"b", .int⟩, by decide, rfl, by decide, by decide⟩
  · exact ⟨⟨"f", .bool⟩, by decide, rfl, by decide, by decide⟩

end GuardedAssignment

open GuardedAssignment

/-- With the flag set, the remainder of `(3 + 7) * 3` by 4 is subtracted from 9. Without it, nothing
is. -/
theorem guarded_assignment_replay_remainder :
    ∃ after, BuildM.runUpcoming (fun _ => pure ()) 3 GuardedAssignment.start = .ok () after ∧
      (∃ final, replayLines? (Pack.calls after.pack.files 1) after.file.lines
        (GuardedAssignment.scores 1) = some final ∧ final "r" = 7) ∧
      ∃ final, replayLines? (Pack.calls after.pack.files 1) after.file.lines
        (GuardedAssignment.scores 0) = some final ∧ final "r" = 9 := by
  have success : succeeds (runUpcoming (fun _ => pure ()) 3 start) = true := by decide +kernel
  obtain ⟨_, after, ran⟩ := exists_ok_of_succeeds success
  have asksHeld : ∀ question ∈ questions, ∀ operand ∈ question.operands,
      ∀ atom ∈ operand.leaves, atom.IsHeld start.scoreboard := by
    simp only [questions, Question.operands, Expression.leaves, mem_cons,
      cons_append, nil_append, not_mem_nil, or_false, forall_eq_or_imp, forall_eq]
    exact ⟨⟨isHeld_sample (by simp), by simp⟩, ⟨isHeld_sample (by simp), trivial⟩,
      isHeld_sample (by simp)⟩
  have operands : ∀ atom ∈ sample.leaves, atom.IsHeld start.scoreboard := by
    simp only [sample, Expression.leaves, cons_append, nil_append,
      mem_cons, not_mem_nil, or_false, forall_eq_or_imp, forall_eq]
    exact ⟨isHeld_sample (by simp), trivial, isHeld_sample (by simp), trivial⟩
  have target : start.scoreboard.Holds "r" ⟨"r", .int⟩ :=
    ⟨by decide, rfl, by decide, by decide⟩
  have old (limit : Nat) : ¬Scoreboard.IsScratch limit "r" :=
    fun scratch => target.name_free scratch.isReserved
  have replay (flag : Int32) (known : flag = 0 ∨ flag = 1) := @guarded_assignment_replay _ _ _ _ [] _
    questions (answers flag) _ _ _ _ _ after
    (scores flag) rfl rfl (cons_ne_nil _ _) asksHeld rfl rfl target rfl operands
    (.block rfl rfl) rfl rfl rfl ran
    (.cons (by rcases known with rfl | rfl <;> decide)
      (.cons (by rcases known with rfl | rfl <;> decide) .nil))
    (by
      simp only [answers, mem_cons, not_mem_nil, or_false, forall_eq_or_imp, forall_eq]
      exact ⟨known, by decide, by decide⟩)
  refine ⟨after, ran, ?_, ?_⟩
  · obtain ⟨lines, files, file, -, outcome⟩ := replay 1 (.inr rfl)
    obtain ⟨final, replayed, agrees, -⟩ := (outcome 0).1 (by decide) 2 7 (by decide) (by decide)
    refine ⟨final, by rw [file]; exact replayed, ?_⟩
    rw [agrees "r" (old _)]
    decide
  · obtain ⟨lines, files, file, -, outcome⟩ := replay 0 (.inl rfl)
    obtain ⟨final, replayed, agrees⟩ := (outcome 0).2 (by decide)
    refine ⟨final, by rw [file]; exact replayed, ?_⟩
    rw [agrees "r" (old _)]
    decide

/-- `if a < b` and `r = t` for a counter with the name of a temporary in another case. The condition
holds, but under it `t` is read as the temporary with the difference of `a` and `b`, and alone it is
not. -/
theorem guarded_assignment_taken_for_temporary :
    let less : Question (Expression Atom .sum) :=
      ⟨0, .product (.factor (.leaf (.counter "a"))),
        some (.lt, .product (.factor (.leaf (.counter "b"))))⟩
    let assignment := Assignment.statementOf "r" none (.product (.factor (.leaf (.counter "_MCC_TMP0"))))
    let scores : Scores := fun objective =>
      if objective = "_MCC_TMP0" then 7 else if objective = "b" then 3 else 1
    let start := Assignment.defining ["a", "b", "r", "_MCC_TMP0"]
    let guarded := { start with upcoming := [GuardedAssignment.conditionOf [less], assignment] }
    let alone := { start with upcoming := [assignment] }
    (less.answer? start.scoreboard scores).map (Question.holds Quantity.value) = some true ∧
      Branches.scoreAfter (BuildM.runUpcoming (fun _ => pure ()) 2 guarded) scores "r" = some (-2) ∧
      Branches.scoreAfter (BuildM.runUpcoming (fun _ => pure ()) 1 alone) scores "r" = some 7 := by
  decide +kernel

end ScriptPack
