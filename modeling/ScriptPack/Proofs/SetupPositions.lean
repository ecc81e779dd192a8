import Mathlib.Data.List.Forall2
import ScriptPack.Proofs.Steps
import ScriptPack.Build.Condition

/-!
Where the preparation of a condition is executed. The commands that prepare the comparisons of a
chain are written together, under the alignment and the positions of the whole chain. A comparison
is prepared at the positions before it exactly if no position follows it.
-/

namespace ScriptPack

open List

/-- The frame by which a position moves what comes later. -/
def Comparison.position? (comparison : Comparison) : Option Frame :=
  match comparison.test with
  | .positioned position => some (.under { Selector.self with offset := some position })
  | _ => none

def Comparison.positions (chain : List Comparison) : List Frame :=
  chain.filterMap position?

theorem Comparison.positions_eq_iff (earlier : List Comparison) (comparison : Comparison)
    (later : List Comparison) :
    positions (earlier ++ comparison :: later) = positions earlier ↔
      ∀ other ∈ comparison :: later, other.position? = none := by
  rw [positions, filterMap_append, ← positions, append_right_eq_self, filterMap_eq_nil_iff]

/-- The lines stand behind the file under the frames, each by itself or all of them in a new file
that is called there. -/
def Build.Places (before : Build) (frames : List Frame) (lines : List Line) (after : Build) : Prop :=
  (after.file = before.file.append (lines.map (·.within frames)) ∧ after.pack = before.pack) ∨
    ∃ file : CommandFile, file.lines = lines ∧ after.pack = before.pack.addFile file ∧
      after.file = before.file.append [⟨frames, file.call⟩]

theorem Build.places_nil (build : Build) (frames : List Frame) : build.Places frames [] build :=
  .inl ⟨by simp [CommandFile.append], rfl⟩

theorem Build.places_emitBatchKeeping (build : Build) (lines : List Line) (word : String) :
    build.Places build.frames lines (build.emitBatchKeeping lines word) := by
  rcases lines with _ | ⟨first, _ | ⟨second, rest⟩⟩
  · exact build.places_nil _
  · exact .inl ⟨rfl, rfl⟩
  · by_cases noFrames : build.frames = []
    · refine .inl ⟨?_, ?_⟩ <;> simp [emitBatchKeeping, noFrames, write, Line.within]
    · refine .inr ⟨(build.generatedFile word (first :: second :: rest)).1, rfl, ?_⟩
      simp [emitBatchKeeping, noFrames, emitKeeping, factorOut, write, generatedFile, Line.plain,
        Line.within]

namespace BuildM

open Comparison (positions)

variable {chain : List Comparison} {lowered result : LoweredChain} {before middle after : Build}

theorem places_emitSetup (ran : emitSetup lowered before = .ok () after) :
    before.Places (before.frames ++ lowered.setupFrames) lowered.setup after := by
  obtain ⟨setup, setupFrames, frames⟩ := lowered
  obtain ⟨-, rfl⟩ := EStateM.Result.ok.inj ran
  rcases setup with _ | ⟨first, rest⟩
  · exact before.places_nil _
  · have placed := { before with frames := before.frames ++ setupFrames }.places_emitBatchKeeping
      (first :: rest) "compareSetup"
    by_cases noFrames : setupFrames = []
    · simp only [noFrames, append_nil] at placed
      simpa [noFrames] using placed
    · simp only [isEmpty_cons, isEmpty_eq_false_iff.2 noFrames, Bool.false_eq_true, if_false,
        Build.emitBatch_eq]
      exact placed

theorem lowerOnto_eq_ok (ran : lowerOnto lowered chain before = .ok result after) :
    ∃ parts : List LoweredTest,
      Forall₂ (fun comparison part => ∃ entered left, lowerTest comparison entered = .ok part left)
        chain parts ∧
      result.setup = lowered.setup ++ parts.flatMap (·.setup) ∧
      result.setupFrames = lowered.setupFrames ++ positions chain := by
  induction chain generalizing lowered before with
  | nil =>
    cases ran
    exact ⟨[], .nil, (append_nil _).symm, (append_nil _).symm⟩
  | cons comparison chain ih =>
    obtain ⟨part, middle, lowers, continued⟩ := bind_eq_ok_iff.1 ran
    obtain ⟨parts, each, setup, setupFrames⟩ := ih continued
    refine ⟨part :: parts, .cons ⟨before, middle, lowers⟩ each, ?_, ?_⟩
    · rw [setup, flatMap_cons, append_assoc]
    · rw [setupFrames, append_assoc]
      congr 1
      obtain ⟨test, negated⟩ := comparison
      cases test with
      | positioned position =>
        cases negated with
        | true => cases lowers
        | false =>
          cases lowers
          rfl
      | _ => rfl

/-- The preparations of a chain stand in order under the frames that wait, the alignment and every
position of the chain. For a comparison these are the positions before it exactly if neither it nor
a later one is a position. -/
theorem setup_under_every_position (lowers : lowerChain chain before = .ok lowered middle)
    (emits : emitSetup lowered middle = .ok () after) :
    (∃ parts : List LoweredTest, List.Forall₂ (fun comparison part =>
        ∃ entered left, lowerTest comparison entered = .ok part left) chain parts ∧
      middle.Places (middle.frames ++ before.active.alignment ++ positions chain)
        (parts.flatMap (·.setup)) after) ∧
    ∀ earlier comparison later, chain = earlier ++ comparison :: later →
      (positions chain = positions earlier ↔
        ∀ other ∈ comparison :: later, other.position? = none) := by
  unfold lowerChain at lowers
  rw [bind_of_ok (get_apply before)] at lowers
  obtain ⟨parts, each, setup, setupFrames⟩ := lowerOnto_eq_ok lowers
  refine ⟨⟨parts, each, ?_⟩, ?_⟩
  · have placed := places_emitSetup emits
    rwa [setup, setupFrames, ← append_assoc] at placed
  · rintro earlier comparison later rfl
    exact Comparison.positions_eq_iff earlier comparison later

end BuildM

def SetupPositions.position : Position := ⟨.here, .here, .here⟩

def SetupPositions.chain : List Comparison :=
  [⟨.block (.of position "stone" none), true⟩, ⟨.positioned position, false⟩]

/-- What prepares the negation in `not block ~ ~ ~ stone and positioned ~ ~ ~` is moved by the position
behind it. -/
theorem setup_under_every_position_later : ∃ lowered middle after,
    BuildM.lowerChain SetupPositions.chain (Build.start {} "main" {}) = .ok lowered middle ∧
      BuildM.emitSetup lowered middle = .ok () after ∧
      ∃ setup : List Line, setup.length = 2 ∧
        middle.Places [.under { Selector.self with offset := some SetupPositions.position }] setup after := by
  refine ⟨_, _, _, rfl, rfl, ?_⟩
  obtain ⟨⟨parts, each, placed⟩, -⟩ :=
    @BuildM.setup_under_every_position SetupPositions.chain _ (Build.start {} "main" {}) _ _ rfl rfl
  refine ⟨_, ?_, placed⟩
  obtain ⟨_, _, ⟨entered, left, first⟩, others, rfl⟩ := forall₂_cons_left_iff.1 each
  obtain ⟨_, _, ⟨_, _, second⟩, none, rfl⟩ := forall₂_cons_left_iff.1 others
  cases none
  cases first
  cases second
  rfl

end ScriptPack
