import Mathlib.Data.List.Nodup
import ScriptPack.Proofs.Lowering
import ScriptPack.Proofs.Writes

/-!
Batches of commands under frames. A batch of one command stands under the frames in place; a larger
one goes into a generated file, and the call of the file stands under the frames. Either way a
replay does what the commands do where the frames let the entity through, and nothing elsewhere.
Generated files have names of their own, so that each call runs the file it was written for.
-/

namespace ScriptPack

open CommandFile Line List Pack

variable {files : List CommandFile}

/-- Of two beginnings of a text, one is the other one with some of the rest behind it. -/
theorem Text.append_eq_append {first second other rest : String} (same : first ++ second = other ++ rest) :
    ∃ between, (other = first ++ between ∧ second = between ++ rest) ∨
      (first = other ++ between ∧ rest = between ++ second) := by
  have texts := congrArg String.toList same
  rw [String.toList_append, String.toList_append, append_eq_append_iff] at texts
  obtain ⟨between, isOther, isSecond⟩ | ⟨between, isFirst, isRest⟩ := texts
  · exact ⟨.ofList between, .inl ⟨String.toList_inj.1 (by simpa using isOther),
      String.toList_inj.1 (by simpa using isSecond)⟩⟩
  · exact ⟨.ofList between, .inr ⟨String.toList_inj.1 (by simpa using isFirst),
      String.toList_inj.1 (by simpa using isRest)⟩⟩

namespace Session

variable {number : Nat}

def count (session : Session) (word : String) : Nat :=
  (session.generated.get? word).getD 0

def generatedPath (word : String) (number : Nat) : String :=
  generatedFolder ++ "/" ++ (word ++ toString number)

/-- Words without digits. A number after such a word can be told from it. -/
def IsPlain (word : String) : Prop :=
  (word.toList.all fun c => !c.isDigit) = true

instance (word : String) : Decidable (IsPlain word) :=
  inferInstanceAs (Decidable (_ = true))

theorem exists_last_digit (word : String) {digits rest : String} (nonempty : digits ≠ "")
    (isNumber : toString number = digits ++ rest) :
    ∃ c ∈ (word ++ digits).toList.getLast?, c.isDigit = true := by
  have someDigit : digits.toList ≠ [] := by simpa using nonempty
  refine ⟨digits.toList.getLast someDigit, ?_, ?_⟩
  · simp [getLast?_append, getLast?_eq_some_getLast someDigit]
  · apply Text.isDigit_of_mem_toString
    rw [isNumber, String.toList_append]
    exact mem_append_left _ (getLast_mem someDigit)

theorem IsPlain.eq_empty {word digits rest : String} (plain : IsPlain (word ++ digits))
    (isNumber : toString number = digits ++ rest) : digits = "" := by
  by_contra nonempty
  obtain ⟨c, isLast, digit⟩ := exists_last_digit word nonempty isNumber
  simpa [digit] using all_eq_true.1 plain c (mem_of_mem_getLast? isLast)

theorem generatedPath_inj {word other : String} {otherNumber : Nat} (plain : IsPlain word)
    (otherPlain : IsPlain other)
    (same : generatedPath word number = generatedPath other otherNumber) :
    word = other ∧ number = otherNumber := by
  have names : word ++ toString number = other ++ toString otherNumber := by
    unfold generatedPath at same
    exact (String.append_right_inj _).1 same
  have words : word = other := by
    obtain ⟨digits, ⟨rfl, isNumber⟩ | ⟨rfl, isNumber⟩⟩ := Text.append_eq_append names
    · rw [otherPlain.eq_empty isNumber, String.append_empty]
    · rw [plain.eq_empty isNumber, String.append_empty]
  subst words
  exact ⟨rfl, Text.toString_inj.1 ((String.append_right_inj _).1 names)⟩

/-- The names of `files` have been generated between the two sessions. -/
structure Generates (session later : Session) (files : List CommandFile) : Prop where
  le : ∀ word, session.count word ≤ later.count word
  numbered : ∀ file ∈ files, ∃ word number, IsPlain word ∧
    file.path = generatedPath word number ∧ session.count word ≤ number ∧
      number < later.count word
  distinct : (files.map path).Nodup

theorem Generates.refl (session : Session) : Generates session session [] :=
  ⟨fun _ => le_rfl, fun _ member => absurd member not_mem_nil, nodup_nil⟩

theorem Generates.trans {first second third : Session} {others : List CommandFile}
    (early : Generates first second files) (late : Generates second third others) :
    Generates first third (files ++ others) where
  le := fun word => (early.le word).trans (late.le word)
  numbered := by
    refine forall_mem_append.2 ⟨fun file member => ?_, fun file member => ?_⟩
    · obtain ⟨word, number, plain, path, lower, upper⟩ := early.numbered file member
      exact ⟨word, number, plain, path, lower, upper.trans_le (late.le word)⟩
    · obtain ⟨word, number, plain, path, lower, upper⟩ := late.numbered file member
      exact ⟨word, number, plain, path, (early.le word).trans lower, upper⟩
  distinct := by
    rw [map_append, nodup_append]
    refine ⟨early.distinct, late.distinct, ?_⟩
    rintro path earlyMember other lateMember rfl
    obtain ⟨file, member, filePath⟩ := mem_map.1 earlyMember
    obtain ⟨otherFile, otherMember, otherPath⟩ := mem_map.1 lateMember
    obtain ⟨word, number, plain, named, -, upper⟩ := early.numbered file member
    obtain ⟨otherWord, otherNumber, otherPlain, otherNamed, lower, -⟩ :=
      late.numbered otherFile otherMember
    have same : generatedPath word number = generatedPath otherWord otherNumber := by
      rw [← named, ← otherNamed, filePath, otherPath]
    obtain ⟨rfl, rfl⟩ := generatedPath_inj plain otherPlain same
    omega

theorem count_generateName (session : Session) (word other : String) :
    (session.generateName word).2.count other =
      session.count other + if other = word then 1 else 0 := by
  by_cases same : other = word
  · subst same
    simp [generateName, count]
  · simp [generateName, count, same]

theorem generates_generateName (session : Session) {word : String} (plain : IsPlain word)
    (lines : List Line) :
    Generates session (session.generateName word).2
      [.generated (session.generateName word).1 lines] where
  le := fun other => by
    rw [count_generateName]
    exact Nat.le_add_right _ _
  numbered := by
    refine forall_mem_singleton.2 ⟨word, session.count word, plain, rfl, le_rfl, ?_⟩
    rw [count_generateName, if_pos rfl]
    exact Nat.lt_succ_self _
  distinct := nodup_singleton _

end Session

def Runs (calls : Calls) (files : List CommandFile) : Prop :=
  ∃ inner, ∀ file ∈ files, ∀ scores, calls file.path scores = replayLines? inner file.lines scores

theorem Runs.of_append {calls : Calls} {others : List CommandFile}
    (runs : Runs calls (files ++ others)) : Runs calls files ∧ Runs calls others := by
  obtain ⟨inner, runs⟩ := runs
  obtain ⟨first, second⟩ := forall_mem_append.1 runs
  exact ⟨⟨inner, first⟩, ⟨inner, second⟩⟩

/-- Files that were added last, under paths of their own, are those that their paths name. -/
theorem Pack.runs_calls (distinct : (files.map path).Nodup) (earlier : List CommandFile)
    (depth : Nat) : Runs (calls (earlier ++ files) (depth + 1)) files := by
  refine ⟨calls (earlier ++ files) depth, fun file member scores => ?_⟩
  have found : fileAt? (earlier ++ files) file.path = some file := by
    unfold fileAt?
    rw [reverse_append, find?_append]
    have here : files.reverse.find? (fun other => other.path == file.path) = some file := by
      have unique : ∀ other ∈ files, other.path = file.path → other = file :=
        fun other otherMember => inj_on_of_nodup_map distinct otherMember member
      cases search : files.reverse.find? (fun other => other.path == file.path) with
      | none =>
        have missing := find?_eq_none.1 search file (mem_reverse.2 member)
        simp at missing
      | some other =>
        have same := find?_some search
        rw [unique other (mem_reverse.1 (mem_of_find?_eq_some search)) (by simpa using same)]
    rw [here, Option.some_or]
  simp only [calls, found, Option.bind_some]

/-- Replayed where calls run the files, the lines do what the commands do if the frames let the
entity through, and nothing if they do not. -/
def Performs (frames : List Frame) (commands : List Command) (lines : List Line)
    (files : List CommandFile) : Prop :=
  ∀ calls, Runs calls files → ∀ scores admitted, Frame.admitAll? scores frames = some admitted →
    replayLines? calls lines scores =
      if admitted then replayAll? calls commands scores else some scores

def Frame.AreStable (limit : Nat) (frames : List Frame) : Prop :=
  ∀ scores later, Scores.AgreesOff limit scores later →
    Frame.admitAll? later frames = Frame.admitAll? scores frames

theorem performs_nil (frames : List Frame) : Performs frames [] [] [] := by
  intro calls _ scores admitted _
  cases admitted <;> rfl

theorem performs_plain (commands : List Command) : Performs [] commands (commands.map .plain) [] := by
  intro calls _ scores admitted admits
  cases admits
  exact replayLines?_plain calls commands scores

theorem performs_line (frames : List Frame) (command : Command) :
    Performs frames [command] [(plain command).within frames] [] := by
  intro calls _ scores admitted admits
  have framed : ((plain command).within frames).frames = frames := append_nil frames
  rw [replayLines?_cons, replay?, framed, admits]
  cases admitted with
  | true => rfl
  | false => rfl

theorem performs_call {allowed : String → Prop} (frames : List Frame) {commands : List Command}
    (writes : AllWrite allowed commands) {file : CommandFile}
    (lines : file.lines = commands.map .plain) :
    Performs frames commands [(plain file.call).within frames] [file] := by
  intro calls ⟨inner, runs⟩ scores admitted admits
  have called : replayAll? calls [file.call] scores = replayAll? calls commands scores := by
    rw [replayAll?_singleton]
    calc calls file.path scores = replayLines? inner file.lines scores :=
          runs file mem_cons_self scores
      _ = replayAll? inner commands scores := by rw [lines, replayLines?_plain]
      _ = replayAll? calls commands scores := writes.replayAll?_eq inner calls scores
  rw [performs_line frames file.call calls ⟨inner, by simp⟩ scores admitted admits, called]

/-- As long as commands write scratch only, the frames decide alike before and after them. -/
theorem Performs.append {limit : Nat} {frames : List Frame} {commands others : List Command}
    {lines otherLines : List Line} {otherFiles : List CommandFile}
    (stable : Frame.AreStable limit frames)
    (writes : AllWrite (Scoreboard.IsScratch limit) commands)
    (first : Performs frames commands lines files)
    (second : Performs frames others otherLines otherFiles) :
    Performs frames (commands ++ others) (lines ++ otherLines) (files ++ otherFiles) := by
  intro calls runs scores admitted admits
  obtain ⟨runsFirst, runsSecond⟩ := runs.of_append
  rw [replayLines?_append, first calls runsFirst scores admitted admits, replayAll?_append]
  cases admitted with
  | false => exact second calls runsSecond scores false admits
  | true =>
    cases replayed : replayAll? calls commands scores with
    | none => simp
    | some middle =>
      have agrees : Scores.AgreesOff limit scores middle := writes.agrees replayed
      have admitsLater := (stable scores middle agrees).trans admits
      simpa [replayed] using second calls runsSecond middle true admitsLater

namespace Build

/-- The state when lines, generated files and counters have been added. -/
def grown (build : Build) (lines : List Line) (files : List CommandFile) (session : Session)
    (board : Scoreboard) : Build :=
  { build with
    file := build.file.append lines
    pack := { build.pack with files := build.pack.files ++ files }
    session
    scoreboard := board }

theorem grown_nil (build : Build) : build.grown [] [] build.session build.scoreboard = build := by
  simp [grown, append]

theorem grown_grown (build : Build) (lines others : List Line) (files otherFiles : List CommandFile)
    (session next : Session) (board later : Scoreboard) :
    (build.grown lines files session board).grown others otherFiles next later =
      build.grown (lines ++ others) (files ++ otherFiles) next later := by
  simp [grown, append]

section

variable {allowed : String → Prop} {commands : List Command} {word : String}

theorem emitBatchKeeping_plain (build : Build) (writes : AllWrite allowed commands)
    (plain : Session.IsPlain word) :
    ∃ lines files session, build.emitBatchKeeping (commands.map .plain) word =
        build.grown lines files session build.scoreboard ∧
      Performs build.frames commands lines files ∧ build.session.Generates session files := by
  rcases commands with _ | ⟨first, _ | ⟨second, rest⟩⟩
  · exact ⟨[], [], build.session, build.grown_nil.symm, performs_nil _, .refl _⟩
  · refine ⟨_, [], build.session, ?_, performs_line build.frames first, .refl _⟩
    simp [emitBatchKeeping, emitKeeping, write, grown]
  · by_cases noFrames : build.frames = []
    · refine ⟨_, [], build.session, ?_, noFrames ▸ performs_plain _, .refl _⟩
      simp [emitBatchKeeping, noFrames, write, grown]
    · have generates := build.session.generates_generateName plain
        ((first :: second :: rest).map Line.plain)
      refine ⟨_, _, _, ?_, performs_call build.frames writes rfl, generates⟩
      simp [emitBatchKeeping, noFrames, factorOut, generatedFile, addFile, emitKeeping, write,
        grown]

theorem emitBatch_plain (build : Build) (writes : AllWrite allowed commands)
    (plain : Session.IsPlain word) :
    ∃ lines files session frames, build.emitBatch (commands.map .plain) word false =
        { build.grown lines files session build.scoreboard with frames } ∧
      Performs build.frames commands lines files ∧ build.session.Generates session files := by
  obtain ⟨lines, files, session, grown, performs, generates⟩ :=
    build.emitBatchKeeping_plain writes plain
  refine ⟨lines, files, session, if (commands.map Line.plain).isEmpty then build.frames else [], ?_,
    performs, generates⟩
  rw [emitBatch_eq, if_neg Bool.false_ne_true, grown]

end

end Build

open Build Counter CounterM Scoreboard

variable {build : Build} {counter : Counter}

/-- Commands that are written together, and the word that a file of them is named after. -/
structure Batch where
  commands : List Command
  word : String

/-- Commands of a computation that writes temporaries from a number on. -/
structure Batch.IsScratch (limit : Nat) (batch : Batch) : Prop where
  plain : Session.IsPlain batch.word
  writes : AllWrite (Scoreboard.IsScratch limit) batch.commands

namespace Build

def setBoard (build : Build) (board : Scoreboard) : Build :=
  { build with scoreboard := board }

def keepBatches (build : Build) (batches : List Batch) : Build :=
  batches.foldl (fun build batch => build.emitAligned batch.commands batch.word) build

theorem emitAligned_setBoard (build : Build) (board : Scoreboard) (commands : List Command)
    (word : String) :
    (build.setBoard board).emitAligned commands word =
      (build.emitAligned commands word).setBoard board := by
  unfold emitAligned
  rcases commands with _ | ⟨first, _ | ⟨second, rest⟩⟩
  · rfl
  · rfl
  · by_cases noFrames : build.frames = []
    · simp [emitBatchKeeping, noFrames, write, setBoard]
    · simp [emitBatchKeeping, noFrames, factorOut, generatedFile, emitKeeping, write, setBoard]

theorem keepBatches_setBoard (build : Build) (board : Scoreboard) (batches : List Batch) :
    (build.setBoard board).keepBatches batches =
      (build.keepBatches batches).setBoard board := by
  induction batches generalizing build with
  | nil => rfl
  | cons batch batches ih =>
    unfold keepBatches at ih ⊢
    rw [foldl_cons, foldl_cons, emitAligned_setBoard, ih]

theorem keepBatches_append (build : Build) (batches others : List Batch) :
    build.keepBatches (batches ++ others) = (build.keepBatches batches).keepBatches others :=
  foldl_append

theorem emitAligned_self (self : build.active = .self) (commands : List Command) (word : String) :
    build.emitAligned commands word = build.emitBatchKeeping (commands.map .plain) word := by
  have unaligned : Selector.self.alignment = [] := by decide
  rw [emitAligned, self, unaligned]
  rfl

theorem keepBatches_grown {limit : Nat} (self : build.active = .self)
    (stable : Frame.AreStable limit build.frames) {batches : List Batch}
    (scratch : ∀ batch ∈ batches, batch.IsScratch limit) :
    ∃ lines files session, build.keepBatches batches =
        build.grown lines files session build.scoreboard ∧
      Performs build.frames (batches.flatMap Batch.commands) lines files ∧
      build.session.Generates session files := by
  induction batches generalizing build with
  | nil => exact ⟨[], [], build.session, build.grown_nil.symm, performs_nil _, .refl _⟩
  | cons batch batches ih =>
    obtain ⟨first, others⟩ := forall_mem_cons.1 scratch
    obtain ⟨lines, files, session, emitted, performs, generates⟩ :=
      emitBatchKeeping_plain build first.writes first.plain
    let next := build.grown lines files session build.scoreboard
    obtain ⟨laterLines, laterFiles, later, kept, performsLater, generatesLater⟩ :=
      @ih next self stable others
    refine ⟨lines ++ laterLines, files ++ laterFiles, later, ?_, ?_, generates.trans generatesLater⟩
    · have step : build.keepBatches (batch :: batches) = next.keepBatches batches := by
        unfold keepBatches
        rw [foldl_cons, emitAligned_self self, emitted]
      rw [step, kept, grown_grown]
      rfl
    · exact performs.append stable first.writes performsLater

theorem keepBatches_noFrames (self : build.active = .self)
    (noFrames : build.frames = []) (batches : List Batch) :
    build.keepBatches batches =
      build.write ((batches.flatMap Batch.commands).map .plain) := by
  induction batches generalizing build with
  | nil => simp [keepBatches, write, append]
  | cons batch batches ih =>
    have emitted : build.emitAligned batch.commands batch.word =
        build.write (batch.commands.map .plain) := by
      rw [emitAligned_self self, emitBatchKeeping_of_noFrames noFrames]
    have step : build.keepBatches (batch :: batches) =
        (build.write (batch.commands.map .plain)).keepBatches batches := by
      unfold keepBatches
      rw [foldl_cons, emitted]
    rw [step, @ih (build.write (batch.commands.map .plain)) self noFrames]
    simp [write, append]

end Build

namespace BuildM

variable {α β : Type} {limit : Nat} {board : Scoreboard}

/-- In every state with these counters the step fails, or in every one it succeeds with the same
result, the same counters and the same batches, all of them scratch. -/
def Uniform (limit : Nat) (board : Scoreboard) (step : BuildM α)
    (post : α → Scoreboard → Prop) : Prop :=
  (∃ value later batches, post value later ∧ board.Extends later ∧
    (∀ batch ∈ batches, batch.IsScratch limit) ∧ ∀ build : Build, build.scoreboard = board →
      step build = .ok value ((build.keepBatches batches).setBoard later)) ∨
  ∀ build : Build, build.scoreboard = board → ∃ error after, step build = .error error after

theorem uniform_pure {post : α → Scoreboard → Prop} {value : α} (holds : post value board) :
    Uniform limit board (pure value) post :=
  .inl ⟨value, board, [], holds, .refl board, forall_mem_nil _, by rintro build rfl; rfl⟩

theorem Uniform.bind {step : BuildM α} {next : α → BuildM β} {middle : α → Scoreboard → Prop}
    {post : β → Scoreboard → Prop} (first : Uniform limit board step middle)
    (second : ∀ value later, middle value later → board.Extends later →
      Uniform limit later (next value) post) :
    Uniform limit board (step >>= next) post := by
  rcases first with ⟨value, later, batches, holds, extension, scratch, runs⟩ | fails
  · rcases second value later holds extension with
      ⟨result, last, others, holdsLast, extensionLast, scratchOthers, runsLast⟩ | fails
    · refine .inl ⟨result, last, batches ++ others, holdsLast, extension.trans extensionLast,
        forall_mem_append.2 ⟨scratch, scratchOthers⟩, ?_⟩
      intro build same
      rw [bind_of_ok (runs build same), runsLast _ rfl, keepBatches_setBoard, keepBatches_append]
      rfl
    · refine .inr fun build same => ?_
      obtain ⟨error, after, failed⟩ :=
        fails ((build.keepBatches batches).setBoard later) rfl
      exact ⟨error, after, (bind_of_ok (runs build same)).trans failed⟩
  · refine .inr fun build same => ?_
    obtain ⟨error, after, failed⟩ := fails build same
    refine ⟨error, after, ?_⟩
    change EStateM.bind step next build = _
    rw [EStateM.bind, failed]

theorem uniform_counters {computation : CounterM α} {post : α → Scoreboard → Prop}
    (spec : ∀ value later, computation board = .ok value later →
      post value later ∧ board.Extends later) :
    Uniform limit board (counters computation) post := by
  cases outcome : computation board with
  | ok value later =>
    obtain ⟨holds, extension⟩ := spec value later outcome
    refine .inl ⟨value, later, [], holds, extension, forall_mem_nil _, ?_⟩
    rintro build rfl
    rw [counters_of_ok outcome]
    rfl
  | error error later =>
    refine .inr ?_
    rintro build rfl
    exact ⟨_, _, by rw [counters_eq, outcome]⟩

theorem uniform_ofExcept {ε : Type} {problem : ε → Problem} (outcome : Except ε α) :
    Uniform limit board (ofExcept problem outcome) fun value _ => outcome = .ok value := by
  cases outcome with
  | ok value => exact uniform_pure rfl
  | error error => exact .inr fun build _ => ⟨_, build, rfl⟩

theorem uniform_emitComputation {computation : CounterM (List Command)} {word : String}
    (plain : Session.IsPlain word)
    (spec : ∀ commands later, computation board = .ok commands later →
      board.Extends later ∧ AllWrite (IsScratch limit) commands) :
    Uniform limit board (emitComputation computation word) fun _ _ => True := by
  have computed : Uniform limit board (counters computation)
      fun commands _ => AllWrite (IsScratch limit) commands :=
    uniform_counters fun commands later done => (spec commands later done).symm
  refine computed.bind ?_
  intro commands later writes _
  refine .inl ⟨(), later, [⟨commands, word⟩], trivial, .refl later,
    forall_mem_singleton.2 ⟨plain, writes⟩, ?_⟩
  rintro build rfl
  exact congrArg (EStateM.Result.ok ()) (emitAligned_setBoard build build.scoreboard commands word)

theorem uniform_get (accessor : String) :
    Uniform limit board (counters (get accessor)) fun _ _ => True := by
  refine uniform_counters fun counter later done => ⟨trivial, ?_⟩
  rw [(get_eq_ok_iff.1 done).2]
  exact .refl board

def IsTemporaryFrom (limit : Nat) (counter : Counter) (_ : Scoreboard) : Prop :=
  ∃ index, limit ≤ index ∧ counter.name = temporaryObjective index

theorem uniform_setLiteral (temporary : IsTemporaryFrom limit counter board) (literal : Value) :
    Uniform limit board (emitComputation (pure (counter.setLiteral selfTarget literal)) "squash")
      fun _ _ => True := by
  obtain ⟨index, bound, name⟩ := temporary
  refine uniform_emitComputation (by decide) fun commands later done => ?_
  cases done
  refine ⟨.refl board, (setLiteral_writes counter selfTarget literal).mono ?_⟩
  intro objective isScore
  exact ⟨index, bound, name ▸ isScore⟩

section

variable (bound : limit ≤ board.nextTemporary)

include bound

theorem uniform_temporary (kind : CounterKind) :
    Uniform limit board (counters (temporary kind)) (IsTemporaryFrom limit) := by
  refine uniform_counters fun counter later done => ?_
  cases done
  exact ⟨⟨board.nextTemporary, bound, rfl⟩, extends_temporary board kind⟩

theorem uniform_temporaryFor (literal : Value) :
    Uniform limit board (counters (temporaryFor literal)) (IsTemporaryFrom limit) := by
  unfold temporaryFor
  split
  · exact uniform_temporary bound _
  · exact uniform_counters fun counter later done => by cases done

theorem uniform_assign
    (temporary : IsTemporaryFrom limit counter board) (op : Option ArithOp) (right : Counter) :
    Uniform limit board (emitComputation (assign selfTarget counter op right) "squash")
      fun _ _ => True := by
  obtain ⟨index, indexBound, name⟩ := temporary
  refine uniform_emitComputation (by decide) fun commands later done => ?_
  obtain ⟨extension, writes⟩ := assign_writes done
  refine ⟨extension, writes.mono ?_⟩
  rintro objective (isScore | scratch)
  · exact ⟨index, indexBound, name ▸ isScore⟩
  · exact scratch.mono bound

theorem uniform_lowerInto {result : Counter}
    (temporary : IsTemporaryFrom limit result board) (left : Counter) (op : ArithOp)
    (right : Counter) : Uniform limit board (lowerInto result left op right) fun _ _ => True :=
  (uniform_assign bound temporary none left).bind fun _ _ _ extension =>
    uniform_assign (bound.trans extension.next_le) temporary (some op) right

theorem uniform_evaluatePair (left : Operand) (op : ArithOp)
    (right : Operand) : Uniform limit board (evaluatePair left op right) fun _ _ => True := by
  cases left with
  | literal left =>
    cases right with
    | literal right =>
      refine (uniform_ofExcept _).bind fun value later _ _ => ?_
      exact uniform_pure trivial
    | counter right =>
      refine (uniform_get right).bind fun right first _ early => ?_
      have bound := bound.trans early.next_le
      refine (uniform_temporaryFor bound left).bind fun result second temporary next => ?_
      have bound := bound.trans next.next_le
      refine (uniform_setLiteral temporary left).bind fun _ third _ last => ?_
      have bound := bound.trans last.next_le
      exact (uniform_assign bound temporary (some op) right).bind fun _ _ _ _ =>
        uniform_pure trivial
  | counter left =>
    cases right with
    | literal right =>
      refine (uniform_get left).bind fun left first _ early => ?_
      have bound := bound.trans early.next_le
      refine (uniform_temporaryFor bound right).bind fun held second heldTemporary next => ?_
      have bound := bound.trans next.next_le
      refine (uniform_setLiteral heldTemporary right).bind fun _ third _ last => ?_
      have bound := bound.trans last.next_le
      refine (uniform_temporary bound left.kind).bind fun result fourth temporary final => ?_
      exact (uniform_lowerInto (bound.trans final.next_le) temporary left op held).bind
        fun _ _ _ _ => uniform_pure trivial
    | counter right =>
      refine (uniform_get left).bind fun left first _ early => ?_
      have bound := bound.trans early.next_le
      refine (uniform_get right).bind fun right second _ next => ?_
      have bound := bound.trans next.next_le
      refine (uniform_temporary bound left.kind).bind fun result third temporary last => ?_
      exact (uniform_lowerInto (bound.trans last.next_le) temporary left op right).bind
        fun _ _ _ _ => uniform_pure trivial

end

def IsUniform (limit : Nat) (step : BuildM α) : Prop :=
  ∀ board, limit ≤ board.nextTemporary → Uniform limit board step fun _ _ => True

theorem combining_isUniform : Combining (IsUniform limit) where
  ofPure := fun _ _ _ => uniform_pure trivial
  bind := fun first second board bound => (first board bound).bind fun value later _ extension =>
    second value later (bound.trans extension.next_le)
  ofEvaluatePair := fun left op right _ bound => uniform_evaluatePair bound left op right

/-- Where no frames stand, evaluation for the executing entity writes commands one after the other. -/
theorem evaluateArithmetic_lowers {before after : Build} {tokens results : List Token}
    (self : before.active = .self) (noFrames : before.frames = [])
    (run : evaluateArithmetic tokens before = .ok results after) :
    ∃ commands, before.Lowers after commands := by
  rcases combining_isUniform.ofEvaluateArithmetic tokens before.scoreboard le_rfl with
    ⟨values, later, batches, -, extension, -, runs⟩ | fails
  · cases run.symm.trans (runs before rfl)
    refine ⟨batches.flatMap Batch.commands, ?_, extension⟩
    rw [keepBatches_noFrames self noFrames, lowered, framed_self self noFrames]
    rfl
  · obtain ⟨error, failed, fails⟩ := fails before rfl
    cases run.symm.trans fails

end BuildM

end ScriptPack
