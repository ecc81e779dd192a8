import Mathlib.Algebra.Order.Field.Rat
import Mathlib.Tactic.FieldSimp
import ScriptPack.Proofs.Guards

/-!
What the frames of a chain mean. Compared as exact rationals, counters of any kind pass the frames
of a comparison if and only if it holds, as long as nothing overflows. With 32 bits, whatever
overflows, the frames of a chain and those of its negation never pass together and never fail
together.
-/

namespace ScriptPack

open BuildM Comparison List Scoreboard

namespace Counter

def rational (counter : Counter) (scores : Scores) : ℚ :=
  match counter.kind with
  | .decimal own =>
      (scores counter.whole).toInt + (scores counter.part).toInt / (10 : ℚ) ^ own
  | _ => (scores counter.name).toInt

theorem scaled_eq_rational {counter : Counter} {precision : Nat}
    (fewer : counter.kind.precision ≤ precision) (scores : Scores) :
    (counter.scaled precision scores : ℚ) = counter.rational scores * 10 ^ precision := by
  obtain ⟨name, kind⟩ := counter
  cases kind with
  | decimal own =>
    have le : own ≤ precision := fewer
    have split : (10 : ℚ) ^ precision = 10 ^ own * 10 ^ (precision - own) := by
      rw [← pow_add, Nat.add_sub_cancel' le]
    simp only [scaled, rescale, rational, if_pos le, Int.cast_add, Int.cast_mul, Int.cast_pow,
      Int.cast_ofNat, split]
    field_simp
  | _ => simp [scaled, rational]

/-- Scaled by one power of ten, the difference of two counters has the sign it has as rationals. -/
theorem compare_scaled (left right : Counter) (scores : Scores) :
    let precision := left.commonPrecision right
    compare (left.scaled precision scores - right.scaled precision scores) 0 =
      compare (left.rational scores) (right.rational scores) := by
  intro precision
  have power : (0 : ℚ) < 10 ^ precision := by positivity
  have difference : ((left.scaled precision scores - right.scaled precision scores : ℤ) : ℚ) =
      (left.rational scores - right.rational scores) * 10 ^ precision := by
    have leftScaled : (left.scaled precision scores : ℚ) = _ :=
      scaled_eq_rational (le_max_left _ _) scores
    have rightScaled : (right.scaled precision scores : ℚ) = _ :=
      scaled_eq_rational (le_max_right _ _) scores
    rw [Int.cast_sub, leftScaled, rightScaled, ← sub_mul]
    rfl
  rcases lt_trichotomy (left.rational scores) (right.rational scores) with less | same | greater
  · rw [compare_lt_iff_lt.2 less, compare_lt_iff_lt, ← Int.cast_lt (R := ℚ), difference, Int.cast_zero]
    exact mul_neg_of_neg_of_pos (sub_neg.2 less) power
  · rw [compare_eq_iff_eq.2 same, compare_eq_iff_eq, ← Int.cast_inj (α := ℚ), difference, same,
      sub_self, zero_mul, Int.cast_zero]
  · rw [compare_gt_iff_gt.2 greater, compare_gt_iff_gt, ← Int.cast_lt (R := ℚ), difference,
      Int.cast_zero]
    exact mul_pos (sub_pos.2 greater) power

end Counter

open Counter

namespace Comparison

variable {board : Scoreboard} {scores : Scores} {comparison : Comparison}

def HasTruth (comparison : Comparison) (scores : Scores) : Prop :=
  match comparison.test with
  | .flag counter => scores counter.name = 0 ∨ scores counter.name = 1
  | _ => True

theorem operator_holds (comparison : Comparison) (op : CompareOp) (order : Ordering) :
    (comparison.operator op).holds order = (op.holds order != comparison.negated) := by
  obtain ⟨test, negated⟩ := comparison
  cases negated with
  | false => simp [operator]
  | true => simp [operator, CompareOp.holds_inverted]

theorem operator_saturates (comparison : Comparison) (op : CompareOp) (value : Int32) :
    (comparison.operator op).saturates value = op.saturates value := by
  obtain ⟨test, negated⟩ := comparison
  cases negated with
  | false => rfl
  | true => exact op.saturates_inverted value

theorem saturates_zero (op : CompareOp) : op.saturates 0 = false := by
  cases op <;> decide

theorem flag_passes {score : Int32} (isTruth : score = 0 ∨ score = 1) (negated : Bool) :
    (score == if negated then 0 else 1) = ((score == 1) != negated) := by
  rcases isTruth with rfl | rfl <;> cases negated <;> decide

section

variable {counter other : Counter} {accessor : String} {op : CompareOp} {literal : Value}
  {number : Number.Single} {value : Int32} (simple : counter.kind.isIntegerLike = true)
  (negated : Bool)

include simple

/-- The frame of a comparison with a literal that is compared as it is. -/
theorem passes_literal (places : literal.precision = 0) (compared : literal.comparedAs? = some number)
    (rounded : number.roundInt32 = value) (inside : op.saturates value = false) :
    passes board scores ⟨.value counter op (.literal literal), negated⟩ =
      (op.holds (compare (scores counter.name).toInt value.toInt) != negated) := by
  simp only [passes, wrapped_literalPrecision simple places,
    constantFor_of_isIntegerLike simple places compared, rounded]
  rw [contains_rangeFor ((operator_saturates _ op value).trans inside), operator_holds]

/-- The frame of a comparison of two counters whose difference does not overflow. -/
theorem passes_counter (names : board.Names accessor other)
    (lower : Int32.minValue.toInt ≤ (scores counter.name).toInt - (scores other.name).toInt)
    (upper : (scores counter.name).toInt - (scores other.name).toInt ≤ Int32.maxValue.toInt) :
    passes board scores ⟨.value counter op (.counter accessor), negated⟩ =
      (op.holds (compare (scores counter.name).toInt (scores other.name).toInt) != negated) := by
  simp only [passes, names.finds.counterOf_eq, gap_of_isIntegerLike simple names.simple]
  rw [contains_rangeFor_sub lower upper, operator_holds]

end

def holds (board : Scoreboard) (scores : Scores) (comparison : Comparison) : Bool :=
  let affirmed := match comparison.test with
    | .flag counter => scores counter.name == 1
    | .value counter op (.counter accessor) =>
        op.holds (compare (counter.rational scores) ((board.counterOf accessor).rational scores))
    | _ => false
  affirmed != comparison.negated

def IsOfCounters (board : Scoreboard) (comparison : Comparison) : Prop :=
  match comparison.test with
  | .flag _ => True
  | .value counter _ (.counter accessor) =>
      counter.kind.precision ≤ Value.greatestPrecision ∧
        (board.counterOf accessor).kind.precision ≤ Value.greatestPrecision
  | _ => False

/-- Where nothing has overflowed, the frame of a comparison of counters lets through what holds. -/
theorem passes_eq_holds (ofCounters : comparison.IsOfCounters board)
    (hasTruth : comparison.HasTruth scores) (precise : comparison.IsPrecise board scores) :
    comparison.passes board scores = comparison.holds board scores := by
  have zero : (0 : Int32).toInt = 0 := by decide
  obtain ⟨test, negated⟩ := comparison
  cases test with
  | flag counter => exact flag_passes hasTruth negated
  | value counter op other =>
    cases other with
    | literal literal => exact ofCounters.elim
    | counter accessor =>
      obtain ⟨few, otherFew⟩ := ofCounters
      have small : counter.commonPrecision (board.counterOf accessor) < 10 :=
        (max_le few otherFew).trans_lt (by decide)
      have inside := (operator_saturates ⟨.value counter op (.counter accessor), negated⟩ op 0).trans
        (saturates_zero op)
      simp only [passes, holds, contains_rangeFor inside, operator_holds, precise small, zero,
        compare_scaled]
  | _ => exact ofCounters.elim

/-- The constant of a comparison with a literal is not at a limit of 32 bits where the operator or
its negation is strict. -/
def IsInside (comparison : Comparison) : Prop :=
  match comparison.test with
  | .value counter op (.literal literal) => op.saturates (counter.constantFor literal) = false
  | _ => True

theorem passes_negate (settled : comparison.IsSettled board) (hasTruth : comparison.HasTruth scores)
    (inside : comparison.IsInside) :
    comparison.negate.passes board scores = !comparison.passes board scores := by
  have opposite (op : CompareOp) (order : Ordering) :
      (comparison.negate.operator op).holds order = !(comparison.operator op).holds order := by
    rw [operator_holds, operator_holds, negate]
    cases op.holds order <;> cases comparison.negated <;> rfl
  have rangeNegate {op : CompareOp} {value : Int32} (isInside : op.saturates value = false)
      (score : Int32) : (rangeFor (comparison.negate.operator op) value).contains score =
        !(rangeFor (comparison.operator op) value).contains score := by
    rw [contains_rangeFor ((operator_saturates _ op value).trans isInside),
      contains_rangeFor ((operator_saturates _ op value).trans isInside), opposite]
  obtain ⟨test, negated⟩ := comparison
  cases test with
  | flag counter =>
    have isTruth : scores counter.name = 0 ∨ scores counter.name = 1 := hasTruth
    have this := flag_passes isTruth negated
    have other := flag_passes isTruth !negated
    refine other.trans (Eq.trans ?_ (congrArg not this.symm))
    cases scores counter.name == 1 <;> cases negated <;> rfl
  | value counter op other =>
    cases other with
    | literal literal => exact rangeNegate inside _
    | counter accessor => exact rangeNegate (saturates_zero op) _
  | _ => exact settled.elim

theorem failAny_eq {chain : List Comparison}
    (settled : ∀ comparison ∈ chain, comparison.IsSettled board)
    (hasTruth : ∀ comparison ∈ chain, comparison.HasTruth scores)
    (inside : ∀ comparison ∈ chain, comparison.IsInside) :
    failAny board chain scores = !passAll board chain scores := by
  rcases chain with _ | ⟨single, _ | ⟨second, rest⟩⟩
  · rfl
  · have first : single ∈ [single] := mem_cons_self
    simp only [failAny, passAll, all_cons, all_nil, Bool.and_true]
    exact passes_negate (settled single first) (hasTruth single first) (inside single first)
  · rfl

end Comparison

/-- A chain of flags and of comparisons between counters of any kinds: where its preparation does
not overflow, its frames let through exactly the scores for which every comparison holds. -/
theorem chain_lowering_exact {before : Build} (self : before.active = .self)
    {chain : List Comparison}
    (settled : ∀ comparison ∈ chain, comparison.IsSettled before.scoreboard)
    (ofCounters : ∀ comparison ∈ chain, comparison.IsOfCounters before.scoreboard) :
    ∃ commands frames later,
      BuildM.lowerChain chain before =
        .ok { setup := commands.map .plain, setupFrames := [], frames } (before.setBoard later) ∧
      ∀ calls scores final, (∀ comparison ∈ chain, comparison.HasTruth scores) →
        replayExact? calls commands scores = some final →
        replayAll? calls commands scores = some final ∧
        Frame.admitAll? final frames =
          some (chain.all (Comparison.holds before.scoreboard scores)) ∧
        ∀ objective, (∀ index, before.scoreboard.nextTemporary ≤ index →
          objective ≠ Scoreboard.temporaryObjective index) → final objective = scores objective := by
  obtain ⟨commands, frames, later, lowers, -, -, prepares⟩ :=
    lowerChain_prepares self (.refl before.scoreboard) settled
  refine ⟨commands, frames, later, lowers, ?_⟩
  intro calls scores final hasTruth replayed
  have replayedAll := replayAll?_of_exact replayed
  obtain ⟨middle, reached, admits⟩ := prepares.reaches scores
  cases Option.some.inj (replayedAll.symm.trans (reached.replayed calls))
  refine ⟨replayedAll, admits.trans (congrArg some ?_), reached.agrees⟩
  have precise := prepares.isPrecise calls scores final replayed
  rw [passAll, Bool.eq_iff_iff, all_eq_true, all_eq_true]
  refine forall₂_congr fun comparison member => ?_
  rw [passes_eq_holds (ofCounters comparison member) (hasTruth comparison member)
    (precise comparison member)]

namespace Chains

def having (counters : List Counter) : Build :=
  { Build.start {} "main" {} with
    scoreboard := counters.foldl (fun board counter => board.addCounter counter) {} }

def counters : List Counter := [⟨"x", .decimal 2⟩, ⟨"y", .decimal 3⟩, ⟨"n", .int⟩, ⟨"f", .bool⟩]

def chain : List Comparison :=
  [⟨.value ⟨"x", .decimal 2⟩ .lt (.counter "y"), false⟩,
    ⟨.value ⟨"n", .int⟩ .ge (.counter "x"), true⟩, ⟨.flag ⟨"f", .bool⟩, false⟩]

def scores : Scores := fun objective =>
  if objective = "x:d" then 25 else if objective = "y:d" then 251 else 1

/-- Whether the preparation of a chain can be replayed without overflow. -/
def replaysExactly (outcome : EStateM.Result Error Build LoweredChain) (scores : Scores) : Bool :=
  match outcome with
  | .ok lowered _ =>
      (replayExact? (fun _ _ => none) (lowered.setup.map (·.command)) scores).isSome
  | .error _ _ => false

def passesAfter? (outcome : EStateM.Result Error Build LoweredChain) (scores : Scores) : Option Bool :=
  match outcome with
  | .ok lowered _ =>
      (replayLines? (fun _ _ => none) lowered.setup scores).bind
        fun final => Frame.admitAll? final lowered.frames
  | .error _ _ => none

theorem isOld_sample {counter : Counter} (member : counter ∈ counters) (limit : Nat) :
    counter.IsOld limit := by
  have free : ∀ counter ∈ counters, ∀ objective ∈ counter.objectives, ¬IsReserved objective := by
    decide
  refine isOld_of_not_isReserved ?_ (free counter member) limit
  simp only [counters, mem_cons, not_mem_nil, or_false] at member
  rcases member with rfl | rfl | rfl | rfl <;> nofun

theorem settled_sample : ∀ comparison ∈ chain, comparison.IsSettled (having counters).scoreboard := by
  have finds {accessor : String} {counter : Counter}
      (found : (having counters).scoreboard.get? accessor = some counter)
      (free : ¬IsReserved accessor) :=
    finds_of_not_isReserved found free
  simp only [chain, mem_cons, not_mem_nil, or_false, forall_eq_or_imp, forall_eq]
  refine ⟨?_, ?_, ?_⟩
  · exact isSettled_counter (isOld_sample (by simp [counters]) _)
      (@finds "y" ⟨"y", .decimal 3⟩ (by decide) (by decide))
      (isOld_sample (by simp [counters]) _) _ _
  · exact isSettled_counter (isOld_sample (by simp [counters]) _)
      (@finds "x" ⟨"x", .decimal 2⟩ (by decide) (by decide))
      (isOld_sample (by simp [counters]) _) _ _
  · exact (isOld_sample (by simp [counters]) _).name rfl

end Chains

open Chains

/-- `1.25 < 1.251`, `1` is less than `1.25`, and the flag is set. -/
theorem chain_lowering_exact_decimals :
    ∃ commands frames later final,
      BuildM.lowerChain Chains.chain (Chains.having Chains.counters) =
        .ok { setup := commands.map .plain, setupFrames := [], frames }
          ((Chains.having Chains.counters).setBoard later) ∧
      replayAll? (fun _ _ => none) commands Chains.scores = some final ∧
      Frame.admitAll? final frames = some true := by
  have ofCounters : ∀ comparison ∈ chain, comparison.IsOfCounters (having counters).scoreboard := by
    simp only [chain, mem_cons, not_mem_nil, or_false, forall_eq_or_imp, forall_eq]
    exact ⟨⟨by decide, by decide⟩, ⟨by decide, by decide⟩, trivial⟩
  obtain ⟨commands, frames, later, lowers, spec⟩ :=
    @chain_lowering_exact (having counters) rfl chain settled_sample ofCounters
  have hasTruth : ∀ comparison ∈ chain, comparison.HasTruth scores := by
    simp only [chain, mem_cons, not_mem_nil, or_false, forall_eq_or_imp, forall_eq]
    exact ⟨trivial, trivial, .inr (by decide)⟩
  have exactly : replaysExactly (lowerChain chain (having counters)) scores = true := by
    decide +kernel
  have unframed : (commands.map Line.plain).map (·.command) = commands := by
    rw [map_map]
    exact map_id commands
  simp only [lowers, replaysExactly, unframed] at exactly
  obtain ⟨final, replayed⟩ := Option.isSome_iff_exists.1 exactly
  obtain ⟨replayedAll, admits, -⟩ := spec _ _ final hasTruth replayed
  exact ⟨commands, frames, later, final, lowers, replayedAll, admits.trans (by decide +kernel)⟩

/-- A counter with the name of the next temporary is compared with itself: `0 < 1` does not pass. -/
theorem chain_lowering_taken_for_temporary :
    let before := Chains.having [⟨"a", .int⟩, ⟨"_mcc_tmp0", .int⟩]
    let chain : List Comparison := [⟨.value ⟨"a", .int⟩ .lt (.counter "_mcc_tmp0"), false⟩]
    let scores : Scores := fun objective => if objective = "_mcc_tmp0" then 1 else 0
    Chains.replaysExactly (BuildM.lowerChain chain before) scores = true ∧
      chain.all (Comparison.holds before.scoreboard scores) = true ∧
      Chains.passesAfter? (BuildM.lowerChain chain before) scores = some false := by
  decide +kernel

/-- A body under a chain of comparisons and a body under its negation: whatever overflows, the
frames of one of the two let the scores through, and those of the other do not. -/
theorem chain_negation_complementary {before : Build} (self : before.active = .self)
    (noFrames : before.frames = []) (body : before.HasBody) {chain : List Comparison}
    (nonempty : chain ≠ [])
    (settled : ∀ comparison ∈ chain, comparison.IsSettled before.scoreboard)
    (inside : ∀ comparison ∈ chain, comparison.IsInside) :
    ∃ lines frames later otherLines otherFrames otherLater,
      BuildM.runChain chain before = .ok () (before.underGuard lines frames later) ∧
      BuildM.runNegatedChain chain before =
        .ok () (before.underGuard otherLines otherFrames otherLater) ∧
      ∀ calls scores, (∀ comparison ∈ chain, comparison.HasTruth scores) →
        ∃ middle otherMiddle passes,
          replayLines? calls lines scores = some middle ∧
          replayLines? calls otherLines scores = some otherMiddle ∧
          Frame.admitAll? middle frames = some passes ∧
          Frame.admitAll? otherMiddle otherFrames = some !passes := by
  obtain ⟨lines, frames, later, runs, -, tests⟩ :=
    runChain_tests self noFrames body (.refl before.scoreboard) settled nonempty
  obtain ⟨otherLines, otherFrames, otherLater, otherRuns, -, otherTests⟩ :=
    runNegatedChain_tests self noFrames body (.refl before.scoreboard) nonempty settled
  refine ⟨lines, frames, later, otherLines, otherFrames, otherLater, runs, otherRuns, ?_⟩
  intro calls scores hasTruth
  obtain ⟨middle, replayed, -, admits⟩ := tests.replay scores
  obtain ⟨otherMiddle, otherReplayed, -, otherAdmits⟩ := otherTests.replay scores
  rw [failAny_eq settled hasTruth inside] at otherAdmits
  exact ⟨middle, otherMiddle, _, replayed calls, otherReplayed calls, admits, otherAdmits⟩

namespace Chains

def next : Statement := ⟨.operation, [], 1, ""⟩

/-- Whether the frames around the next statement let the scores through after what was written. -/
def guardAfter? (outcome : EStateM.Result Error Build Unit) (scores : Scores) : Option Bool :=
  match outcome with
  | .ok _ after =>
      (replayLines? (fun _ _ => none) after.file.lines scores).bind
        fun middle => Frame.admitAll? middle after.frames
  | .error _ _ => none

end Chains

/-- From the least score of `n`, its hundredfold overflows; one guard passes all the same. -/
theorem chain_negation_complementary_overflow :
    let before := { Chains.having Chains.counters with upcoming := [Chains.next] }
    let scores : Scores := fun objective => if objective = "n" then Int32.minValue else 1
    ∃ lines frames later otherLines otherFrames otherLater middle otherMiddle passes,
      BuildM.runChain Chains.chain before = .ok () (before.underGuard lines frames later) ∧
      BuildM.runNegatedChain Chains.chain before =
        .ok () (before.underGuard otherLines otherFrames otherLater) ∧
      replayLines? (fun _ _ => none) lines scores = some middle ∧
      replayLines? (fun _ _ => none) otherLines scores = some otherMiddle ∧
      Frame.admitAll? middle frames = some passes ∧
      Frame.admitAll? otherMiddle otherFrames = some !passes := by
  intro before scores
  have inside : ∀ comparison ∈ chain, comparison.IsInside := by
    simp only [chain, mem_cons, not_mem_nil, or_false, forall_eq_or_imp, forall_eq]
    exact ⟨trivial, trivial, trivial⟩
  have hasTruth : ∀ comparison ∈ chain, comparison.HasTruth scores := by
    simp only [chain, mem_cons, not_mem_nil, or_false, forall_eq_or_imp, forall_eq]
    exact ⟨trivial, trivial, .inr (by decide)⟩
  obtain ⟨lines, frames, later, otherLines, otherFrames, otherLater, runs, otherRuns, spec⟩ :=
    @chain_negation_complementary before rfl rfl ⟨rfl, nofun⟩ chain nofun settled_sample inside
  obtain ⟨middle, otherMiddle, passes, guards⟩ := spec (fun _ _ => none) scores hasTruth
  exact ⟨lines, frames, later, otherLines, otherFrames, otherLater, middle, otherMiddle, passes, runs,
    otherRuns, guards⟩

/-- A counter with the name of the next temporary is taken for the flag of the negated chain: from
`5` it does not equal `1`, and neither guard passes. -/
theorem chain_negation_taken_for_temporary :
    let before := { Chains.having [⟨"_mcc_tmp0", .int⟩, ⟨"b", .int⟩] with upcoming := [Chains.next] }
    let chain : List Comparison :=
      [⟨.value ⟨"_mcc_tmp0", .int⟩ .eq (.literal (.int 1)), false⟩,
        ⟨.value ⟨"b", .int⟩ .eq (.literal (.int 1)), false⟩]
    let scores : Scores := fun objective => if objective = "_mcc_tmp0" then 5 else 1
    Chains.guardAfter? (BuildM.runChain chain before) scores = some false ∧
      Chains.guardAfter? (BuildM.runNegatedChain chain before) scores = some false := by
  decide +kernel

end ScriptPack
