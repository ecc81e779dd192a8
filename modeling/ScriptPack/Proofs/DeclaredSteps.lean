import ScriptPack.Proofs.BodyEffects
import ScriptPack.Proofs.Changes
import ScriptPack.Proofs.DeclaredMessages

/-!
Steps of a compilation name only scores that are declared. A state is covered if its counters and
all the lines that it holds are, in whatever place they wait, and if its selectors have no reserved
names. Main results: evaluating expressions, writing commands and lowering conditions lead from
covered states to covered states.
-/

namespace ScriptPack

open Build Counter List Text

variable {commands : List Command} {lines : List Line} {frames : List Frame} {command : Command}
  {after : Build}

/-! ## Lines -/

def Frame.scores : Frame → List String
  | under selector => selector.scores.map (·.objective)
  | given text => names text

/-- The names that stand in the places of a line where the game looks for scores. -/
def Line.scores (line : Line) : List String :=
  line.frames.flatMap Frame.scores ++ line.command.scores

namespace Frame

def IsCovered (declared : List String) (frame : Frame) : Prop :=
  CoversNames declared frame.scores

variable {declared later : List String} {selector : Selector}

theorem IsCovered.mono {frame : Frame} (covered : frame.IsCovered declared) (grows : declared ⊆ later) :
    frame.IsCovered later :=
  CoversNames.mono covered grows

theorem isCovered_under (unmarked : selector.IsUnmarked) : (under selector).IsCovered declared := by
  intro name member reserved
  obtain ⟨clause, isClause, rfl⟩ := mem_map.1 member
  refine absurd reserved (not_isReservedScore (unmarked _ ?_))
  simp only [Selector.texts, mem_append]
  exact .inl (.inl (.inr (mem_map_of_mem isClause)))

theorem isCovered_alignment (unmarked : selector.IsUnmarked) :
    ∀ frame ∈ selector.alignment, frame.IsCovered declared := by
  intro frame member
  unfold Selector.alignment at member
  split at member
  · rw [mem_singleton.1 member]
    exact isCovered_under unmarked
  · cases member

theorem isCovered_scoreFrame {objective : String} (settled : IsSettled declared objective)
    (range : Range) : (BuildM.scoreFrame objective range).IsCovered declared := by
  change CoversNames declared [objective]
  exact coversNames_cons.2 ⟨settled.mem, coversNames_nil⟩

end Frame

namespace Line

/-- The frames and the command of the line are covered. -/
structure IsCovered (declared : List String) (line : Line) : Prop where
  frames : ∀ frame ∈ line.frames, frame.IsCovered declared
  command : line.command.IsCovered declared

variable {declared later : List String} {line : Line}

theorem IsCovered.mono (covered : line.IsCovered declared) (grows : declared ⊆ later) :
    line.IsCovered later where
  frames := fun frame member => (covered.frames frame member).mono grows
  command := covered.command.mono grows

theorem isCovered_plain (covered : command.IsCovered declared) :
    (plain command).IsCovered declared where
  frames := by simp [plain]
  command := covered

theorem IsCovered.within (covered : line.IsCovered declared)
    (around : ∀ frame ∈ frames, frame.IsCovered declared) : (line.within frames).IsCovered declared where
  frames := forall_mem_append.2 ⟨around, covered.frames⟩
  command := covered.command

theorem IsCovered.scores (covered : line.IsCovered declared) : CoversNames declared line.scores := by
  refine coversNames_append.2 ⟨fun name member => ?_, covered.command.scores⟩
  obtain ⟨frame, isFrame, inside⟩ := mem_flatMap.1 member
  exact covered.frames frame isFrame name inside

end Line

def CoversLines (declared : List String) (lines : List Line) : Prop :=
  ∀ line ∈ lines, line.IsCovered declared

section CoversLines

variable {declared later : List String} {line : Line} {lines others : List Line}

@[simp] theorem coversLines_nil : CoversLines declared [] := by
  simp [CoversLines]

@[simp] theorem coversLines_cons :
    CoversLines declared (line :: lines) ↔ line.IsCovered declared ∧ CoversLines declared lines := by
  simp [CoversLines]

@[simp] theorem coversLines_append : CoversLines declared (lines ++ others) ↔
    CoversLines declared lines ∧ CoversLines declared others := by
  simp [CoversLines, or_imp, forall_and]

theorem CoversLines.mono (covered : CoversLines declared lines) (grows : declared ⊆ later) :
    CoversLines later lines :=
  fun line member => (covered line member).mono grows

theorem CoversLines.map_within (covered : CoversLines declared lines)
    (around : ∀ frame ∈ frames, frame.IsCovered declared) :
    CoversLines declared (lines.map (·.within frames)) := by
  intro line member
  obtain ⟨inner, isLine, rfl⟩ := mem_map.1 member
  exact (covered inner isLine).within around

theorem CoversAll.plain (covered : CoversAll declared commands) :
    CoversLines declared (commands.map .plain) := by
  intro line member
  obtain ⟨command, isCommand, rfl⟩ := mem_map.1 member
  exact Line.isCovered_plain (covered command isCommand)

end CoversLines

/-! ## Tokens -/

/-- Texts and selectors without reserved names, and names without dividers. -/
def TokenKind.IsOrdinary : TokenKind → Prop
  | .literal (.text text) => IsUnmarked text.toList
  | .literal (.selector selector) => selector.IsUnmarked
  | .word name | .counter name | .record name | .template name | .routine name => IsName name.toList
  | _ => True

def AreOrdinary (tokens : List Token) : Prop :=
  ∀ token ∈ tokens, token.kind.IsOrdinary

/-! ## States -/

def BlockAction.IsCovered (declared : List String) : BlockAction → Prop
  | .pushSelector selector => selector.IsUnmarked
  | .pushFile file => CoversLines declared file.lines
  | .popSelector | .popFile => True

theorem BlockAction.IsCovered.mono {declared later : List String} {action : BlockAction}
    (covered : action.IsCovered declared) (grows : declared ⊆ later) : action.IsCovered later := by
  cases action with
  | pushSelector selector => exact covered
  | pushFile file => exact CoversLines.mono covered grows
  | popSelector | popFile => trivial

namespace Build

/-- Where the state holds lines, frames, selectors and tokens, they are covered. -/
structure IsCovered (build : Build) : Prop where
  board : build.scoreboard.IsCovered
  routines : ∀ routine ∈ build.routines, routine.IsCovered build.scoreboard.declared
  file : CoversLines build.scoreboard.declared build.file.lines
  outerFiles : ∀ file ∈ build.outerFiles, CoversLines build.scoreboard.declared file.lines
  finished : ∀ file ∈ build.pack.files, CoversLines build.scoreboard.declared file.lines
  head : build.head = []
  frames : ∀ frame ∈ build.frames, frame.IsCovered build.scoreboard.declared
  active : build.active.IsUnmarked
  outerSelectors : ∀ selector ∈ build.outerSelectors, selector.IsUnmarked
  pending : ∀ hooks ∈ build.pendingBlock, ∀ action ∈ hooks.opening ++ hooks.closing,
    action.IsCovered build.scoreboard.declared
  blocks : ∀ actions ∈ build.openBlocks, ∀ action ∈ actions,
    action.IsCovered build.scoreboard.declared
  conditions : ∀ depth tokens, build.lastConditions.get? depth = some tokens → AreOrdinary tokens

instance : Declaring Build where
  declared := fun build => build.scoreboard.declared
  IsCovered := IsCovered

variable {build : Build} {line : Line} {file : CommandFile} {tokens : List Token}

def holdings (build : Build) :=
  (build.scoreboard, build.routines, build.file, build.outerFiles, build.pack.files, build.head,
    build.frames, build.active, build.outerSelectors, build.pendingBlock, build.openBlocks,
    build.lastConditions)

theorem Unseen.holdings (unseen : build.Unseen after) : after.holdings = build.holdings := by
  obtain ⟨core, board, routines, active, conditions, -⟩ := unseen
  simp only [Build.core, Core.mk.injEq] at core
  simp only [Build.holdings, board, routines, active, conditions, core]

theorem isCovered_factorOut_call (declared : List String) (build : Build) (word : String)
    (lines : List Line) : (build.factorOut word lines).1.IsCovered declared :=
  Line.isCovered_plain (Command.isCovered_call declared _)

theorem isUnmarked_self : Selector.self.IsUnmarked := by
  decide

theorem scoreboard_apply (build : Build) (action : BlockAction) :
    (build.apply action).scoreboard = build.scoreboard := by
  cases action with
  | pushSelector | pushFile => rfl
  | popSelector =>
    change build.popSelector.scoreboard = _
    unfold popSelector
    split <;> rfl
  | popFile =>
    change build.popFile.scoreboard = _
    unfold popFile
    split <;> rfl

theorem scoreboard_enterBlock (build : Build) : build.enterBlock.scoreboard = build.scoreboard := by
  unfold enterBlock
  split
  · split <;> rfl
  · rfl

namespace IsCovered

variable (covered : build.IsCovered)

include covered

theorem withBoard {board : Scoreboard}
    (isCovered : board.IsCovered) (grows : build.scoreboard.declared ⊆ board.declared) :
    ({ build with scoreboard := board } : Build).IsCovered where
  board := isCovered
  routines := fun routine member => (covered.routines routine member).mono grows
  file := covered.file.mono grows
  outerFiles := fun file member => (covered.outerFiles file member).mono grows
  finished := fun file member => (covered.finished file member).mono grows
  head := covered.head
  frames := fun frame member => (covered.frames frame member).mono grows
  active := covered.active
  outerSelectors := covered.outerSelectors
  pending := fun hooks member action inside => (covered.pending hooks member action inside).mono grows
  blocks := fun actions member action inside => (covered.blocks actions member action inside).mono grows
  conditions := covered.conditions

theorem of_holdings (same : after.holdings = build.holdings) : after.IsCovered := by
  simp only [holdings, Prod.mk.injEq] at same
  obtain ⟨board, routines, file, outerFiles, finished, head, frames, active, outerSelectors, pending,
    blocks, conditions⟩ := same
  constructor <;> simp only [board, routines, file, outerFiles, finished, head, frames, active,
    outerSelectors, pending, blocks, conditions]
  exacts [covered.board, covered.routines, covered.file, covered.outerFiles, covered.finished,
    covered.head, covered.frames, covered.active, covered.outerSelectors, covered.pending,
    covered.blocks, covered.conditions]

/-! Writing lines. -/

theorem write
    (isCovered : CoversLines build.scoreboard.declared lines) : (build.write lines).IsCovered :=
  { covered with file := coversLines_append.2 ⟨covered.file, isCovered⟩ }

theorem emitKeeping
    (isCovered : line.IsCovered build.scoreboard.declared) : (build.emitKeeping line).IsCovered :=
  covered.write (coversLines_cons.2 ⟨isCovered.within covered.frames, coversLines_nil⟩)

theorem setFrames (isCovered : ∀ frame ∈ frames, frame.IsCovered build.scoreboard.declared) :
    ({ build with frames } : Build).IsCovered :=
  { covered with frames := isCovered }

theorem withoutFrames : ({ build with frames := [] } : Build).IsCovered :=
  covered.setFrames (forall_mem_nil _)

theorem withFrames (isCovered : ∀ frame ∈ frames, frame.IsCovered build.scoreboard.declared) :
    ({ build with frames := build.frames ++ frames } : Build).IsCovered :=
  covered.setFrames (forall_mem_append.2 ⟨covered.frames, isCovered⟩)

theorem emitLine
    (isCovered : line.IsCovered build.scoreboard.declared) : (build.emitLine line).IsCovered :=
  (covered.emitKeeping isCovered).withoutFrames

theorem addFile (isCovered : CoversLines build.scoreboard.declared file.lines) :
    ({ build with pack := build.pack.addFile file } : Build).IsCovered :=
  { covered with
    finished := forall_mem_append.2 ⟨covered.finished, forall_mem_singleton.2 isCovered⟩ }

theorem factorOut (word : String) (isCovered : CoversLines build.scoreboard.declared lines) :
    (build.factorOut word lines).2.IsCovered := by
  have named : (build.generatedFile word lines).2.IsCovered := covered.of_holdings rfl
  exact named.addFile isCovered

theorem emitBatch (isCovered : CoversLines build.scoreboard.declared lines) (word : String)
    (inPlace : Bool) : (build.emitBatch lines word inPlace).IsCovered := by
  unfold Build.emitBatch
  split
  · exact covered
  · exact covered.emitLine (coversLines_cons.1 isCovered).1
  · split
    · exact (covered.write (isCovered.map_within covered.frames)).withoutFrames
    · exact (covered.factorOut word isCovered).emitLine (isCovered_factorOut_call _ _ _ _)

theorem emitBatchKeeping (isCovered : CoversLines build.scoreboard.declared lines) (word : String) :
    (build.emitBatchKeeping lines word).IsCovered := by
  unfold Build.emitBatchKeeping
  split
  · exact covered
  · exact covered.emitKeeping (coversLines_cons.1 isCovered).1
  · split
    · exact covered.write isCovered
    · exact (covered.factorOut word isCovered).emitKeeping (isCovered_factorOut_call _ _ _ _)

theorem emitAligned (isCovered : CoversAll build.scoreboard.declared commands) (word : String) :
    (build.emitAligned commands word).IsCovered := by
  refine covered.emitBatchKeeping (fun line member => ?_) word
  obtain ⟨command, isCommand, rfl⟩ := mem_map.1 member
  exact ⟨Frame.isCovered_alignment covered.active, isCovered command isCommand⟩

theorem sharedFile (name : String) (isCovered : CoversAll build.scoreboard.declared commands) :
    (build.sharedFile name commands).2.IsCovered := by
  have reserved : ({ build with session := (build.session.reserveFile name).2 } : Build).IsCovered :=
    covered.of_holdings rfl
  unfold Build.sharedFile
  dsimp only
  split
  · exact reserved.addFile isCovered.plain
  · exact reserved

/-! The stacks and the blocks. -/

theorem pushSelector {selector : Selector}
    (unmarked : selector.IsUnmarked) : (build.pushSelector selector).IsCovered :=
  { covered with
    active := unmarked
    outerSelectors := forall_mem_cons.2 ⟨covered.active, covered.outerSelectors⟩ }

theorem popSelector : build.popSelector.IsCovered := by
  unfold Build.popSelector
  split
  · exact covered
  · rename_i selector rest outer
    have outerSelectors := covered.outerSelectors
    rw [outer, forall_mem_cons] at outerSelectors
    exact { covered with active := outerSelectors.1, outerSelectors := outerSelectors.2 }

theorem align : build.align.IsCovered := by
  unfold Build.align
  split
  · refine IsCovered.pushSelector (covered.withFrames ?_) isUnmarked_self
    exact forall_mem_singleton.2 (Frame.isCovered_under covered.active)
  · exact covered.pushSelector covered.active

theorem pushFile (isCovered : CoversLines build.scoreboard.declared file.lines) :
    (build.pushFile file).IsCovered :=
  { covered with
    file := isCovered
    outerFiles := forall_mem_cons.2 ⟨covered.file, covered.outerFiles⟩ }

theorem popFile : build.popFile.IsCovered := by
  unfold Build.popFile
  split
  · exact covered.of_holdings rfl
  · rename_i file rest outer
    have outerFiles := covered.outerFiles
    rw [outer, forall_mem_cons] at outerFiles
    exact { covered with
      file := outerFiles.1
      outerFiles := outerFiles.2
      finished := forall_mem_append.2 ⟨covered.finished, forall_mem_singleton.2 covered.file⟩ }

theorem apply {action : BlockAction}
    (isCovered : action.IsCovered build.scoreboard.declared) : (build.apply action).IsCovered := by
  cases action with
  | pushSelector selector => exact covered.pushSelector isCovered
  | pushFile file => exact covered.pushFile isCovered
  | popSelector => exact covered.popSelector
  | popFile => exact covered.popFile

theorem applyAll {actions : List BlockAction}
    (isCovered : ∀ action ∈ actions, action.IsCovered build.scoreboard.declared) :
    (actions.foldl Build.apply build).IsCovered ∧
      (actions.foldl Build.apply build).scoreboard = build.scoreboard := by
  induction actions generalizing build with
  | nil => exact ⟨covered, rfl⟩
  | cons action rest ih =>
    obtain ⟨first, others⟩ := forall_mem_cons.1 isCovered
    have same := scoreboard_apply build action
    obtain ⟨coveredLast, sameLast⟩ := ih (covered.apply first) (by rwa [same])
    exact ⟨coveredLast, sameLast.trans same⟩

theorem setHooks {hooks : BlockHooks} (isCovered : ∀ action ∈ hooks.opening ++ hooks.closing,
      action.IsCovered build.scoreboard.declared) : (build.setHooks hooks).IsCovered :=
  { covered with
    pending := by
      rintro other ⟨⟩
      exact isCovered }

theorem enterBlock : build.enterBlock.IsCovered := by
  unfold Build.enterBlock
  split
  · split
    · exact { covered with blocks := forall_mem_cons.2 ⟨forall_mem_nil _, covered.blocks⟩ }
    · exact covered
  · exact covered

theorem openBlock (size : Nat) :
    (build.openBlock size).IsCovered ∧ (build.openBlock size).scoreboard = build.scoreboard := by
  have hooks : ∀ action ∈ (build.pendingBlock.getD {}).opening ++ (build.pendingBlock.getD {}).closing,
      action.IsCovered build.scoreboard.declared := by
    cases pending : build.pendingBlock with
    | none => simp
    | some hooks => exact covered.pending hooks pending
  obtain ⟨opening, closing⟩ := forall_mem_append.1 hooks
  have cleared : ({ build with pendingBlock := none } : Build).IsCovered :=
    { covered with pending := by simp }
  unfold Build.openBlock
  dsimp only
  split
  · exact ⟨{ cleared with blocks := forall_mem_cons.2 ⟨closing, covered.blocks⟩ }, rfl⟩
  · obtain ⟨opened, same⟩ := cleared.applyAll opening
    have waiting : ∀ action ∈ (build.pendingBlock.getD {}).closing, action.IsCovered
        ((build.pendingBlock.getD {}).opening.foldl Build.apply
          { build with pendingBlock := none }).scoreboard.declared := by
      rw [same]
      exact closing
    exact ⟨{ opened with blocks := forall_mem_cons.2 ⟨waiting, opened.blocks⟩ }, same⟩

theorem closeBlock? (closed : build.closeBlock? = some after) :
    after.IsCovered ∧ after.scoreboard = build.scoreboard := by
  unfold Build.closeBlock? at closed
  split at closed
  · cases closed
  · rename_i actions rest open_
    cases closed
    have blocks := covered.blocks
    rw [open_, forall_mem_cons] at blocks
    have inner : ({ build with openBlocks := rest } : Build).IsCovered :=
      { covered with blocks := blocks.2 }
    obtain ⟨applied, same⟩ := inner.applyAll blocks.1
    exact ⟨applied.of_holdings rfl, same⟩

theorem settlePops :
    build.settlePops.IsCovered ∧ build.settlePops.scoreboard = build.scoreboard := by
  have repeated (due : Nat) : (Nat.repeat Build.popSelector due build).IsCovered ∧
      (Nat.repeat Build.popSelector due build).scoreboard = build.scoreboard := by
    induction due with
    | zero => exact ⟨covered, rfl⟩
    | succ due ih => exact ⟨ih.1.popSelector, (scoreboard_apply _ .popSelector).trans ih.2⟩
  unfold Build.settlePops
  dsimp only
  split
  · exact ⟨covered.of_holdings rfl, rfl⟩
  · obtain ⟨popped, same⟩ := repeated (countDown build.pendingPops).1
    exact ⟨popped.withoutFrames.of_holdings rfl, same⟩

theorem rememberCondition (ordinary : AreOrdinary tokens) :
    (build.rememberCondition tokens).IsCovered :=
  { covered with
    conditions := by
      intro depth others found
      rw [Build.rememberCondition, Table.get?_insert] at found
      split at found
      · cases found
        exact ordinary
      · exact covered.conditions depth others found }

theorem lastCondition? (found : build.lastCondition? = some tokens) : AreOrdinary tokens :=
  covered.conditions _ tokens found

end IsCovered

end Build

/-! ## Steps -/

namespace BuildM

open CounterM

variable {α β : Type} {known : List String} {result : α → List String → Prop} {problem : Problem}
  {change : Build → Build}

/-- A step without a result that leads from covered states to covered ones. -/
abbrev UpholdsUnit (known : List String) (step : BuildM Unit) : Prop :=
  Upholds known step fun _ _ => True

theorem upholds_fail (problem : Problem) : Upholds known (fail problem : BuildM α) result :=
  upholds_get_bind fun _ _ _ => upholds_throw _

theorem upholds_orFail {found : Option α}
    (holds : ∀ value, found = some value → ∀ declared, known ⊆ declared → result value declared) :
    Upholds known (orFail problem found) result := by
  cases found with
  | some value => exact upholds_pure (holds value rfl)
  | none => exact upholds_fail problem

theorem upholds_ofExcept {ε : Type} {problem : ε → Problem} {outcome : Except ε α}
    (holds : ∀ value, outcome = .ok value → ∀ declared, known ⊆ declared → result value declared) :
    Upholds known (ofExcept problem outcome) result := by
  cases outcome with
  | ok value => exact upholds_pure (holds value rfl)
  | error error => exact upholds_fail _

theorem upholds_check {next : PUnit → BuildM α} {condition : Prop} [Decidable condition]
    (upholds : ¬condition → Upholds known (next ⟨⟩) result) :
    Upholds known (if condition then fail problem >>= next else next ⟨⟩) result := by
  split
  · have never : Upholds known (fail problem : BuildM PUnit) fun _ _ => False := upholds_fail problem
    exact never.bind fun _ _ _ impossible => impossible.elim
  · exact upholds ‹_›

theorem upholds_counters {computation : CounterM α} (upholds : Upholds known computation result) :
    Upholds known (counters computation) result := by
  intro before value after covered knows ran
  obtain ⟨board, computed, rfl⟩ := counters_eq_ok_iff.1 ran
  obtain ⟨boardCovered, grows, holds⟩ := upholds (IsCovered.board covered) knows computed
  exact ⟨IsCovered.withBoard covered boardCovered grows, grows, holds⟩

theorem upholds_change
    (upheld : ∀ build : Build, build.IsCovered → known ⊆ build.scoreboard.declared →
      (change build).IsCovered)
    (same : ∀ build, (change build).scoreboard = build.scoreboard) :
    UpholdsUnit known (modify change) :=
  upholds_modify fun build covered knows => ⟨upheld build covered knows, by
    change build.scoreboard.declared ⊆ (change build).scoreboard.declared
    rw [same]
    exact Subset.refl _⟩

theorem upholds_still (same : ∀ build, (change build).holdings = build.holdings) :
    UpholdsUnit known (modify change) :=
  upholds_change (fun build covered _ => covered.of_holdings (same build))
    fun build => congrArg (·.1) (same build)

theorem upholds_of_holdings {step : BuildM α}
    (same : ∀ {before : Build} {value : α} {after : Build}, step before = .ok value after →
      after.holdings = before.holdings) : Upholds known step fun _ _ => True := by
  intro before value after covered knows ran
  have board : after.scoreboard = before.scoreboard := congrArg (·.1) (same ran)
  refine ⟨IsCovered.of_holdings covered (same ran), ?_, trivial⟩
  change before.scoreboard.declared ⊆ after.scoreboard.declared
  rw [board]
  exact Subset.refl _

def Upholding (step : BuildM α) : Prop :=
  ∀ known, Upholds known step fun _ _ => True

/-- Upholding coverage is closed under composing, and steps that nothing notices uphold it. -/
theorem upholding : Unconcerned Upholding Upholding where
  ofPure := fun _ _ => upholds_pure fun _ _ => trivial
  ofThrow := fun _ _ => upholds_throw _
  ofGet := fun _ upholds _ => upholds_get_bind fun build _ _ => upholds build _
  ofGetLast := fun _ upholds _ => upholds_get_bind fun build _ _ => upholds build _
  bind := fun first second known => (first known).bind fun value later _ _ => second value later
  bindLast := fun first second known => (first known).bind fun value later _ _ => second value later
  mapLast := fun upholds known => (upholds known).bind fun _ _ _ _ => upholds_pure fun _ _ => trivial
  last := id
  unseen := fun unseen _ _ => upholds_of_holdings fun {before _ _} ran =>
    (final_of_ok ran ▸ unseen before).holdings

/-! Writing commands. -/

theorem upholds_emit (covered : command.IsCovered known) : UpholdsUnit known (emit command) :=
  upholds_change (fun _ isCovered knows =>
    isCovered.emitLine (Line.isCovered_plain (covered.mono knows))) fun _ => rfl

theorem upholds_emitBatch (covered : CoversLines known lines) (word : String)
    (inPlace : Bool) : UpholdsUnit known (modify (·.emitBatch lines word inPlace)) :=
  upholds_change (fun _ isCovered knows => isCovered.emitBatch (covered.mono knows) word inPlace)
    fun build => (build.quiet_emitBatch lines word inPlace).board

theorem upholds_emitAll (covered : CoversAll known commands) (word : String) :
    UpholdsUnit known (emitAll commands word) :=
  upholds_emitBatch covered.plain word false

theorem upholds_align : UpholdsUnit known (modify align) :=
  upholds_change (fun _ covered _ => covered.align) fun build => build.quiet_align.board

theorem upholds_popSelector : UpholdsUnit known (modify popSelector) :=
  upholds_change (fun _ covered _ => covered.popSelector) fun build =>
    build.scoreboard_apply .popSelector

theorem Upholds.aligned {step : BuildM Unit} (upholds : UpholdsUnit known step) :
    UpholdsUnit known (aligned step) :=
  upholds_align.bind fun _ _ grows _ => (upholds.mono grows).bind fun _ _ _ _ => upholds_popSelector

theorem upholds_emitSelected (covered : command.IsCovered known) :
    UpholdsUnit known (emitSelected command) :=
  Upholds.aligned (upholds_emit covered)

theorem upholds_emitAllSelected (covered : CoversAll known commands)
    (word : String) : UpholdsUnit known (emitAllSelected commands word) :=
  Upholds.aligned (upholds_emitAll covered word)

theorem upholds_emitComputation {computation : CounterM (List Command)}
    (upholds : Upholds known computation fun commands declared => CoversAll declared commands)
    (word : String) : UpholdsUnit known (emitComputation computation word) :=
  (upholds_counters upholds).bind fun _ _ _ covered =>
    upholds_change (fun _ isCovered knows => isCovered.emitAligned (covered.mono knows) word)
      fun build => (build.quiet_emitBatchKeeping _ word).board

/-! Evaluating expressions. -/

theorem upholds_lowerInto {result left right : Counter} (op : ArithOp)
    (isResult : result.IsCovered known) (isLeft : left.IsCovered known)
    (isRight : right.IsCovered known) : UpholdsUnit known (lowerInto result left op right) :=
  (upholds_emitComputation (upholds_assign (by decide) none isResult isLeft) _).bind
    fun _ _ grows _ => upholds_emitComputation
      (upholds_assign (by decide) (some op) (isResult.mono grows) (isRight.mono grows)) _

theorem upholds_evaluatePair (left : Operand) (op : ArithOp) (right : Operand) :
    Upholds known (evaluatePair left op right) fun _ _ => True := by
  have literalSet {held : Counter} {known : List String} (covered : held.IsCovered known)
      (literal : Value) :
      UpholdsUnit known (emitComputation (pure (held.setLiteral selfTarget literal)) "squash") :=
    upholds_emitComputation (upholds_pure fun _ grows =>
      coversAll_setLiteral (covered.mono grows) (by decide) literal) _
  cases left with
  | literal left =>
    cases right with
    | literal right =>
      exact (upholding.ofOfExcept _ _ _).bind fun _ _ _ _ => upholds_pure fun _ _ => trivial
    | counter right =>
      refine (upholds_counters (upholds_get right)).bind fun right rightKnown _ isRight => ?_
      refine (upholds_counters (upholds_temporaryFor left)).bind ?_
      intro result resultKnown grows isResult
      refine (literalSet isResult left).bind fun _ later growsOn _ => ?_
      have isRight := isRight.mono (Subset.trans grows growsOn)
      exact (upholds_emitComputation (upholds_assign (by decide) (some op)
        (isResult.mono growsOn) isRight) _).bind fun _ _ _ _ => upholds_pure fun _ _ => trivial
  | counter left =>
    cases right with
    | literal right =>
      refine (upholds_counters (upholds_get left)).bind fun left leftKnown _ isLeft => ?_
      refine (upholds_counters (upholds_temporaryFor right)).bind ?_
      intro held heldKnown growsHeld isHeld
      refine (literalSet isHeld right).bind fun _ later growsOn _ => ?_
      have isLeft := isLeft.mono (Subset.trans growsHeld growsOn)
      refine (upholds_counters (upholds_temporary isLeft.plain)).bind ?_
      rintro result resultKnown grows ⟨isResult, -⟩
      exact (upholds_lowerInto op isResult (isLeft.mono grows)
        (isHeld.mono (Subset.trans growsOn grows))).bind
          fun _ _ _ _ => upholds_pure fun _ _ => trivial
    | counter right =>
      refine (upholds_counters (upholds_get left)).bind fun left leftKnown _ isLeft => ?_
      refine (upholds_counters (upholds_get right)).bind fun right rightKnown growsRight isRight => ?_
      refine (upholds_counters (upholds_temporary isLeft.plain)).bind ?_
      rintro result resultKnown grows ⟨isResult, -⟩
      exact (upholds_lowerInto op isResult (isLeft.mono (Subset.trans growsRight grows))
        (isRight.mono grows)).bind fun _ _ _ _ => upholds_pure fun _ _ => trivial

theorem upholds_findRoutine {build : Build} (covered : build.IsCovered) (name : String) :
    Upholds build.scoreboard.declared
      (orFail (.unknownRoutine name) (build.routines.find? (·.hasName name))) fun routine declared =>
        routine.IsCovered declared :=
  upholds_orFail fun routine found _ grows =>
    (covered.routines routine (mem_of_find?_eq_some found)).mono grows

theorem upholds_evaluateCall (name : String) (arguments : List Operand) :
    Upholds known (evaluateCall name arguments) fun _ _ => True := by
  refine upholds_get_bind fun build covered knows => ?_
  refine (upholds_findRoutine covered name).bind fun routine routineKnown _ isCovered => ?_
  refine upholds_check fun _ => ?_
  have results : Upholds routineKnown (orFail .noReturnValue routine.result) fun result declared =>
      result.IsCovered declared :=
    upholds_orFail fun result found _ grows => (isCovered.result result found).mono grows
  refine results.bind fun result resultKnown grows isResult => ?_
  refine (upholds_emitComputation
    (Routine.upholds_callCommands (by decide) (isCovered.mono grows) arguments) _).bind ?_
  intro _ called growsCalled _
  refine (upholds_counters (upholds_temporary isResult.plain)).bind ?_
  rintro copy copyKnown growsCopy ⟨isCopy, -⟩
  have isResult := isResult.mono (Subset.trans growsCalled growsCopy)
  exact (upholds_emitComputation (upholds_assign (by decide) none isCopy isResult) _).bind
    fun _ _ _ _ => upholds_pure fun _ _ => trivial

/-- Preparing a statement declares the temporaries that its expressions need. -/
theorem upholds_prepare (statement : Statement) : Upholding (prepare statement) :=
  upholding.ofPrepare (fun left op right _ => upholds_evaluatePair left op right)
    (fun name arguments _ => upholds_evaluateCall name arguments) statement

theorem upholds_runOperation (tokens : List Token) : UpholdsUnit known (runOperation tokens) :=
  (upholding.ofOfExcept _ _ _).bind fun assignment _ _ _ =>
    (upholds_counters assignment.upholds_commands).bind fun _ _ _ covered =>
      upholds_emitAllSelected covered _

theorem upholds_runCall (tokens : List Token) : UpholdsUnit known (runCall tokens) := by
  refine (upholding.ofOfExcept _ _ _).bind ?_
  rintro ⟨name, arguments⟩ _ _ _
  refine (upholding.ofToOperands arguments _).bind fun operands _ _ _ => ?_
  refine upholds_get_bind fun build covered knows => ?_
  refine (upholds_findRoutine covered name).bind fun routine routineKnown _ isCovered => ?_
  refine upholds_check fun _ => ?_
  exact (upholds_counters (Routine.upholds_callCommands (by decide) isCovered operands)).bind
    fun commands _ _ covered => upholds_emitAllSelected covered _

end BuildM

end ScriptPack
