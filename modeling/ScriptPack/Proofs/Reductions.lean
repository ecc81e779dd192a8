import ScriptPack.Proofs.Lowering
import ScriptPack.Proofs.Nesting

/-!
Expressions are reduced as long as there is something to reduce. Operators of a tier and calls are
reduced in one pass, which does what starting again from the first token after every reduction does.
Main result: whatever the tokens and the state, this comes to an end. No operator of a tier is then
left between operands and no single value in parentheses, and the parenthesis that closes a call is
the first at which as many are closed as opened.
-/

namespace ScriptPack

open List Option

namespace BuildM

variable {before after : Build} {tokens reduced : List Token} {high : Bool}

/-! ## Starting again -/

/-- What is reduced when it stands at the front: the value that takes its place and the tokens
behind it. -/
structure Reduction where
  start? : List Token → Option (BuildM Token × List Token)
  shortens {tokens behind : List Token} {value : BuildM Token} :
    start? tokens = some (value, behind) → behind.length + 1 < tokens.length

namespace Reduction

variable {reduction : Reduction} {ahead behind : List Token} {value : BuildM Token}

/-- The first place where something is reduced, with the tokens ahead of it. -/
def first? (reduction : Reduction) : List Token → Option (List Token × BuildM Token × List Token)
  | [] => none
  | token :: rest =>
      match reduction.start? (token :: rest) with
      | some found => some ([], found)
      | none => (first? reduction rest).map fun (ahead, found) => (token :: ahead, found)

theorem first?_eq_some (found : reduction.first? tokens = some (ahead, value, behind)) :
    ∃ span, tokens = ahead ++ span ∧ reduction.start? span = some (value, behind) := by
  fun_induction first? reduction tokens generalizing ahead with
  | case1 => cases found
  | case2 token rest here starts =>
    cases found
    exact ⟨_, rfl, starts⟩
  | case3 token rest passes ih =>
    obtain ⟨⟨later, _⟩, isLater, ⟨⟩⟩ := map_eq_some_iff.1 found
    obtain ⟨span, rfl, starts⟩ := ih isLater
    exact ⟨span, rfl, starts⟩

/-- Reduces at the first place and starts again, as long as there is one. -/
def restart (reduction : Reduction) (tokens : List Token) : BuildM (List Token) :=
  match _found : reduction.first? tokens with
  | none => return tokens
  | some (ahead, value, behind) => do restart reduction (ahead ++ (← value) :: behind)
termination_by tokens.length
decreasing_by
  obtain ⟨span, rfl, starts⟩ := first?_eq_some _found
  have := reduction.shortens starts
  simp only [length_append, length_cons]
  omega

/-- A pass over the tokens that goes on behind each value, where what it has passed is never
reduced later. -/
structure IsPass (reduction : Reduction) (pass : List Token → BuildM (List Token)) : Prop where
  ends : pass [] = pure []
  passes {token : Token} {rest : List Token} : reduction.start? (token :: rest) = none →
    pass (token :: rest) = (token :: ·) <$> pass rest
  reduces {span behind : List Token} {value : BuildM Token} :
    reduction.start? span = some (value, behind) →
      ∀ before, pass span before = (value >>= fun token => pass (token :: behind)) before
  keeps {first token : Token} {ahead span behind : List Token} {value : BuildM Token}
    {before after : Build} : reduction.start? (first :: (ahead ++ span)) = none →
      reduction.start? span = some (value, behind) → value before = .ok token after →
        reduction.start? (first :: (ahead ++ token :: behind)) = none

variable {pass : List Token → BuildM (List Token)}

theorem IsPass.eq_pure (isPass : reduction.IsPass pass) (isLast : reduction.first? tokens = none) :
    pass tokens = pure tokens := by
  fun_induction first? reduction tokens with
  | case1 => exact isPass.ends
  | case2 => cases isLast
  | case3 token rest passes ih =>
    rw [isPass.passes passes, ih (map_eq_none_iff.1 isLast), map_pure]

theorem IsPass.eq_bind (isPass : reduction.IsPass pass)
    (found : reduction.first? tokens = some (ahead, value, behind)) :
    pass tokens before = (value >>= fun token => pass (ahead ++ token :: behind)) before := by
  fun_induction first? reduction tokens generalizing ahead with
  | case1 => cases found
  | case2 token rest here starts =>
    cases found
    exact isPass.reduces starts before
  | case3 first rest passes ih =>
    obtain ⟨⟨later, _⟩, isLater, ⟨⟩⟩ := map_eq_some_iff.1 found
    obtain ⟨span, rfl, starts⟩ := first?_eq_some isLater
    rw [isPass.passes passes, map_eq_pure_bind]
    cases ran : value before with
    | error error middle =>
      have failed := (ih isLater).trans (bind_apply_of_error ran)
      rw [bind_apply_of_error failed, bind_apply_of_error ran]
    | ok token middle =>
      have same := (ih isLater).trans (bind_of_ok ran)
      rw [bind_of_ok ran, cons_append, isPass.passes (isPass.keeps passes starts ran), map_eq_pure_bind]
      change EStateM.bind _ _ _ = EStateM.bind _ _ _
      rw [EStateM.bind, EStateM.bind, same]

/-- Starting again with each value ends, and comes to what a pass comes to. -/
theorem IsPass.restart_eq (isPass : reduction.IsPass pass) :
    reduction.restart tokens before = pass tokens before := by
  fun_induction restart reduction tokens generalizing before with
  | case1 tokens isLast => rw [isPass.eq_pure isLast]
  | case2 tokens ahead value behind found ih =>
    rw [isPass.eq_bind found]
    cases ran : value before with
    | error error middle => rw [bind_apply_of_error ran, bind_apply_of_error ran]
    | ok token middle => rw [bind_of_ok ran, bind_of_ok ran, ih token]

theorem start?_of_suffix {span : List Token} (isLast : reduction.first? tokens = none)
    (isEnd : span <:+ tokens) (notNil : span ≠ []) : reduction.start? span = none := by
  fun_induction first? reduction tokens with
  | case1 => exact (notNil (suffix_nil.1 isEnd)).elim
  | case2 => cases isLast
  | case3 token rest passes ih =>
    obtain rfl | later := suffix_cons_iff.1 isEnd
    · exact passes
    · exact ih (map_eq_none_iff.1 isLast) later

theorem restart_reduces (ran : reduction.restart tokens before = .ok reduced after) :
    reduction.first? reduced = none := by
  fun_induction restart reduction tokens generalizing before with
  | case1 tokens isLast =>
    cases ran
    exact isLast
  | case2 tokens ahead value behind found ih =>
    obtain ⟨token, middle, -, ran⟩ := bind_eq_ok_iff.1 ran
    exact ih token ran

end Reduction

/-! ## Tiers -/

/-- An operator of the tier stands between two operands. -/
def StandsBetween (high : Bool) (left operator right : Token) : Prop :=
  (∃ op : ArithOp, operator.kind = .arith op ∧ op.isHighTier = high) ∧
    View.operand.admits left.kind = true ∧ View.operand.admits right.kind = true

theorem tierStart?_eq_none_iff {left operator right : Token} :
    tierStart? high left operator right = none ↔ ¬StandsBetween high left operator right := by
  unfold tierStart? StandsBetween View.admits
  cases operator.kind with
  | arith op =>
    by_cases tier : op.isHighTier = high <;>
      cases View.operand.view? left.kind <;> cases View.operand.view? right.kind <;> simp [tier]
  | _ => simp

theorem evaluatePair_admits {left right : Operand} {op : ArithOp} {kind : TokenKind}
    (ran : evaluatePair left op right before = .ok kind after) : View.operand.admits kind = true := by
  cases left <;> cases right <;>
  · simp only [evaluatePair] at ran
    repeat obtain ⟨_, _, -, ran⟩ := bind_eq_ok_iff.1 ran
    cases ran
    rfl

/-- Products or sums. -/
def tierReduction (high : Bool) : Reduction where
  start?
    | left :: operator :: right :: behind =>
        (tierStart? high left operator right).map fun (leftOperand, op, rightOperand) =>
          (return ⟨← evaluatePair leftOperand op rightOperand, operator.line⟩, behind)
    | _ => none
  shortens {tokens} _ _ starts := by
    split at starts
    · obtain ⟨_, -, ⟨⟩⟩ := map_eq_some_iff.1 starts
      simp
    · cases starts

theorem tierReduction_start?_eq_none {left operator right : Token} {behind : List Token} :
    (tierReduction high).start? (left :: operator :: right :: behind) = none ↔
      ¬StandsBetween high left operator right := by
  rw [← tierStart?_eq_none_iff]
  exact map_eq_none_iff

theorem evaluateTier_isPass : (tierReduction high).IsPass (evaluateTier high) where
  ends := by simp [evaluateTier]
  passes {token rest} passes := by
    rcases rest with _ | ⟨operator, _ | ⟨right, behind⟩⟩
    · simp [evaluateTier]
    · simp [evaluateTier]
    · rw [evaluateTier, map_eq_none_iff.1 passes, map_eq_pure_bind]
  reduces {span behind value} starts before := by
    rcases span with _ | ⟨left, _ | ⟨operator, _ | ⟨right, rest⟩⟩⟩
    · cases starts
    · cases starts
    · cases starts
    · obtain ⟨_, isStart, ⟨⟩⟩ := map_eq_some_iff.1 starts
      rw [evaluateTier, isStart]
      simp
  keeps {first token ahead span behind value before after} passes starts ran := by
    rcases span with _ | ⟨left, _ | ⟨operator, _ | ⟨right, rest⟩⟩⟩
    · cases starts
    · cases starts
    · cases starts
    · obtain ⟨⟨leftOperand, op, rightOperand⟩, isStart, ⟨⟩⟩ := map_eq_some_iff.1 starts
      obtain ⟨kind, middle, evaluated, ⟨⟩⟩ := bind_eq_ok_iff.1 ran
      have isValue := evaluatePair_admits evaluated
      have stands : StandsBetween high left operator right := by
        by_contra isNone
        rw [tierStart?_eq_none_iff.2 isNone] at isStart
        cases isStart
      -- the value stands where an operand stood
      rcases ahead with _ | ⟨second, _ | ⟨third, ahead⟩⟩
      · cases behind with
        | nil => rfl
        | cons next behind =>
          refine tierReduction_start?_eq_none.2 fun stands' => ?_
          obtain ⟨⟨op, isOp, -⟩, -⟩ := stands'
          rw [show kind = _ from isOp] at isValue
          cases isValue
      · refine tierReduction_start?_eq_none.2 fun stands' => ?_
        exact tierReduction_start?_eq_none.1 passes ⟨stands'.1, stands'.2.1, stands.2.1⟩
      · exact tierReduction_start?_eq_none.2 (tierReduction_start?_eq_none.1 passes)

theorem evaluateTier_reduces (ran : evaluateTier high tokens before = .ok reduced after)
    {left operator right : Token} {rest : List Token}
    (isEnd : left :: operator :: right :: rest <:+ reduced) :
    ¬StandsBetween high left operator right := by
  rw [← evaluateTier_isPass.restart_eq] at ran
  exact tierReduction_start?_eq_none.1 <|
    Reduction.start?_of_suffix (Reduction.restart_reduces ran) isEnd (cons_ne_nil _ _)

/-! ## Calls -/

section

variable {name : String} {line paren : Nat} {first token : Token} {rest inner : List Token}
  {kind : TokenKind}

/-- The value of a call whose arguments begin the tokens, and what stands behind it. The arguments are
reduced before. -/
def callValue (name : String) (line : Nat) (inner : List Token) : BuildM Token × List Token :=
  match splitClose? 0 inner with
  | none => (fail (.unclosedCall name), [])
  | some (arguments, behind) =>
      (do
        let arguments ← evaluateArithmetic (← evaluateCalls arguments)
        return ⟨← evaluateCall name (← toOperands arguments), line⟩, behind)

def callStart? : List Token → Option (BuildM Token × List Token)
  | first :: opening :: inner =>
      match first.kind, opening.kind with
      | .routine name, .openParen => some (callValue name first.line inner)
      | _, _ => none
  | _ => none

theorem callStart?_eq_some {span : List Token} {found : BuildM Token × List Token}
    (starts : callStart? span = some found) : ∃ first name paren inner,
      span = first :: ⟨.openParen, paren⟩ :: inner ∧ first.kind = .routine name ∧
        found = callValue name first.line inner := by
  rcases span with _ | ⟨first, _ | ⟨⟨kind, paren⟩, inner⟩⟩
  · cases starts
  · cases starts
  · simp only [callStart?] at starts
    split at starts
    · next name isRoutine =>
      cases starts
      exact ⟨first, name, paren, inner, rfl, isRoutine, rfl⟩
    · cases starts

theorem callStart?_eq_none_iff :
    callStart? (first :: rest) = none ↔ ∀ name paren inner, first.kind = .routine name →
      rest = ⟨.openParen, paren⟩ :: inner → False := by
  constructor
  · rintro passes name paren inner isRoutine rfl
    simp [callStart?, isRoutine] at passes
  · intro noCall
    cases starts : callStart? (first :: rest) with
    | none => rfl
    | some found =>
      obtain ⟨_, name, paren, inner, ⟨⟩, isRoutine, -⟩ := callStart?_eq_some starts
      exact (noCall name paren inner isRoutine rfl).elim

theorem evaluateCalls_passes (passes : callStart? (first :: rest) = none) :
    evaluateCalls (first :: rest) = (first :: ·) <$> evaluateCalls rest := by
  rw [evaluateCalls, map_eq_pure_bind]
  exact callStart?_eq_none_iff.1 passes

abbrev callReduction : Reduction where
  start? := callStart?
  shortens {tokens _ _} starts := by
    obtain ⟨first, name, paren, inner, rfl, -, isValue⟩ := callStart?_eq_some starts
    unfold callValue at isValue
    split at isValue
    · cases isValue
      simp
    · next arguments behind split =>
      cases isValue
      have := splitClose?_length split
      simp only [length_cons]
      omega

theorem evaluateCall_admits {arguments : List Operand}
    (ran : evaluateCall name arguments before = .ok kind after) :
    View.operand.admits kind = true := by
  simp only [evaluateCall] at ran
  obtain ⟨_, _, -, ran⟩ := bind_eq_ok_iff.1 ran
  obtain ⟨_, _, -, ran⟩ := bind_eq_ok_iff.1 ran
  split at ran
  · cases ran
  · repeat obtain ⟨_, _, -, ran⟩ := bind_eq_ok_iff.1 ran
    cases ran
    rfl

theorem callValue_admits (ran : (callValue name line inner).1 before = .ok token after) :
    View.operand.admits token.kind = true := by
  unfold callValue at ran
  split at ran
  · cases ran
  · obtain ⟨_, _, -, ran⟩ := bind_eq_ok_iff.1 ran
    obtain ⟨_, _, -, ran⟩ := bind_eq_ok_iff.1 ran
    obtain ⟨_, _, -, ran⟩ := bind_eq_ok_iff.1 ran
    obtain ⟨kind, _, evaluated, ⟨⟩⟩ := bind_eq_ok_iff.1 ran
    exact evaluateCall_admits evaluated

theorem evaluateCalls_callValue (isRoutine : first.kind = .routine name) :
    evaluateCalls (first :: ⟨.openParen, paren⟩ :: inner) =
      (callValue name first.line inner).1 >>= fun token =>
        (token :: ·) <$> evaluateCalls (callValue name first.line inner).2 := by
  rw [evaluateCalls.eq_2 first name paren inner isRoutine]
  split
  · next unclosed =>
    simp only [callValue, unclosed]
    rfl
  · next arguments behind closed => simp [callValue, closed]

theorem evaluateCalls_isPass : callReduction.IsPass evaluateCalls where
  ends := by simp [evaluateCalls]
  passes := evaluateCalls_passes
  reduces {span behind value} starts before := by
    obtain ⟨first, name, paren, inner, rfl, isRoutine, isValue⟩ := callStart?_eq_some starts
    rw [evaluateCalls_callValue isRoutine, ← isValue]
    cases ran : value before with
    | error error middle => rw [bind_apply_of_error ran, bind_apply_of_error ran]
    | ok token middle =>
      obtain rfl : value = (callValue name first.line inner).1 := congrArg Prod.fst isValue
      rw [bind_of_ok ran, bind_of_ok ran, evaluateCalls_passes]
      refine callStart?_eq_none_iff.2 fun name paren others isRoutine _ => ?_
      have isOperand := callValue_admits ran
      rw [isRoutine] at isOperand
      cases isOperand
  keeps {first token ahead span behind value before after} passes starts ran := by
    obtain ⟨call, name, paren, inner, rfl, -, isValue⟩ := callStart?_eq_some starts
    obtain rfl : value = (callValue name call.line inner).1 := congrArg Prod.fst isValue
    have isOperand := callValue_admits ran
    refine callStart?_eq_none_iff.2 fun name paren others isRoutine isCall => ?_
    cases ahead with
    | nil =>
      cases isCall
      cases isOperand
    | cons second ahead =>
      cases isCall
      exact callStart?_eq_none_iff.1 passes name paren _ isRoutine rfl

end

/-- One pass over the tokens leaves what starting again after every reduction leaves, and fails where
that fails. -/
theorem passes_start_again (high : Bool) (tokens : List Token) :
    evaluateTier high tokens = (tierReduction high).restart tokens ∧
      evaluateCalls tokens = callReduction.restart tokens :=
  ⟨funext fun _ => evaluateTier_isPass.restart_eq.symm,
    funext fun _ => evaluateCalls_isPass.restart_eq.symm⟩

/-! ## Groups -/

theorem evaluateTiers_singleton (token : Token) : evaluateTiers [token] = pure [token] := by
  simp [evaluateTiers, evaluateTier]

section

variable {token : Token} {outside : Option (List Token)}

/-- A search for a group passes a token, unless it ends with the group that the token closes. -/
theorem replaceGroup_cons {seen rest : List Token} {replaced : Bool}
    (ran : replaceGroup seen outside (token :: rest) before = .ok (found, replaced) after) :
    (∃ inner middle, (∀ around ∈ inner, around = seen ∨ outside = some around) ∧
      replaceGroup (token :: seen) inner rest middle = .ok (found, replaced) after) ∨
    ∃ around value, outside = some around ∧ found = around.reverse ++ value :: rest ∧
      replaced = true := by
  by_cases isOpen : token.kind = .openParen
  · rw [replaceGroup_open isOpen] at ran
    refine .inl ⟨_, _, fun around isInner => ?_, ran⟩
    split at isInner
    · cases isInner
    · cases isInner
      exact .inl rfl
  · by_cases passes : token.kind = .closeParen → outside = none
    · rw [replaceGroup_other isOpen passes] at ran
      exact .inl ⟨_, _, fun around isInner => .inr isInner, ran⟩
    · obtain ⟨isClose, inside⟩ := Classical.not_imp.1 passes
      obtain ⟨around, rfl⟩ := ne_none_iff_exists'.1 inside
      rw [replaceGroup_close isClose] at ran
      obtain ⟨values, middle, -, ran⟩ := bind_eq_ok_iff.1 ran
      split at ran
      · cases ran
        exact .inr ⟨around, _, rfl, rfl, rfl⟩
      · exact .inl ⟨none, middle, by simp, ran⟩

end

theorem replaceGroup_shortens {seen rest : List Token} {outside : Option (List Token)}
    (inner : ∀ around ∈ outside, around.length < seen.length)
    (ran : replaceGroup seen outside rest before = .ok (found, true) after) :
    found.length < seen.length + rest.length := by
  induction rest generalizing seen outside before with
  | nil => cases ran
  | cons token rest ih =>
    obtain ⟨later, middle, isInner, ran⟩ | ⟨around, value, rfl, rfl, -⟩ := replaceGroup_cons ran
    · have shorter := @ih middle (token :: seen) later (fun around isLater => ?_) ran
      · simp only [length_cons] at shorter ⊢
        omega
      · obtain rfl | isOutside := isInner around isLater
        · exact Nat.lt_succ_self _
        · exact Nat.lt_succ_of_lt (inner around isOutside)
    · have := inner around rfl
      simp only [length_append, length_reverse, length_cons]
      omega

/-- A value alone in parentheses that do not follow a name. -/
structure IsBareGroup (ahead : List Token) (opening value closing : Token) : Prop where
  noCall : ahead.getLast?.any takesArguments = false
  opens : opening.kind = .openParen
  notOpen : value.kind ≠ .openParen
  notClose : value.kind ≠ .closeParen
  closes : closing.kind = .closeParen

/-- A value alone in parentheses takes their place. -/
theorem replaceGroup_bare {seen behind : List Token} {opening value closing : Token}
    {outside : Option (List Token)} (bare : IsBareGroup seen.reverse opening value closing) :
    replaceGroup seen outside (opening :: value :: closing :: behind) =
      pure (seen.reverse ++ value :: behind, true) := by
  have noCall : seen.head?.any takesArguments = false := by simpa using bare.noCall
  have inside : insideOf (value :: opening :: seen) seen = [value] := by
    rw [insideOf, length_cons, length_cons, Nat.add_assoc, Nat.add_sub_cancel_left]
    rfl
  rw [replaceGroup_open bare.opens, noCall, if_neg Bool.false_ne_true,
    replaceGroup_other bare.notOpen fun isClose => absurd isClose bare.notClose,
    replaceGroup_close bare.closes, inside, evaluateTiers_singleton, pure_bind]

theorem replaceGroup_leaves {seen rest : List Token} {outside : Option (List Token)}
    (ran : replaceGroup seen outside rest before = .ok (found, false) after) :
    found = seen.reverse ++ rest ∧ ∀ ahead opening value closing,
      ahead ++ [opening, value, closing] <+: rest →
      ¬IsBareGroup (seen.reverse ++ ahead) opening value closing := by
  induction rest generalizing seen outside before with
  | nil =>
    cases ran
    refine ⟨(append_nil _).symm, fun ahead opening value closing isPart => ?_⟩
    cases append_eq_nil_iff.1 (prefix_nil.1 isPart) with
    | intro _ isEmpty => cases isEmpty
  | cons token rest ih =>
    obtain ⟨later, middle, -, ranLater⟩ | ⟨_, _, -, -, ⟨⟩⟩ := replaceGroup_cons ran
    obtain ⟨rfl, reduced⟩ := ih ranLater
    refine ⟨by simp, fun ahead opening value closing isPart bare => ?_⟩
    cases ahead with
    | nil =>
      obtain ⟨behind, same⟩ := isPart
      obtain ⟨rfl, rfl⟩ := cons.inj same
      rw [append_nil] at bare
      have ended := (congrFun (replaceGroup_bare bare) before).symm.trans ran
      cases (Prod.mk.inj (EStateM.Result.ok.inj ended).1).2
    | cons other ahead =>
      obtain ⟨rfl, isLater⟩ := cons_prefix_cons.1 isPart
      exact reduced ahead opening value closing isLater (by simpa using bare)

/-- Every group that is replaced shortens the tokens, so that more steps than tokens are enough. -/
theorem evaluateGroups_ends {steps : Nat} (enough : tokens.length < steps) (more : Nat) :
    evaluateGroups (steps + more) tokens before = evaluateGroups steps tokens before ∧
      ∀ reduced after, evaluateGroups steps tokens before = .ok reduced after →
        ∃ last middle, replaceGroup [] none last middle = .ok (reduced, false) after := by
  induction steps generalizing tokens before with
  | zero => exact absurd enough (Nat.not_lt_zero _)
  | succ steps ih =>
    rw [Nat.succ_add, evaluateGroups, evaluateGroups]
    cases scanned : replaceGroup [] none tokens before with
    | error error middle =>
      rw [bind_apply_of_error scanned, bind_apply_of_error scanned]
      exact ⟨rfl, fun _ _ returned => by cases returned⟩
    | ok found middle =>
      obtain ⟨found, replaced⟩ := found
      rw [bind_of_ok scanned, bind_of_ok scanned]
      cases replaced with
      | false =>
        refine ⟨rfl, fun _ _ returned => ?_⟩
        cases returned
        exact ⟨tokens, before, scanned⟩
      | true =>
        have shorter := replaceGroup_shortens (by simp) scanned
        simp only [length_nil, Nat.zero_add] at shorter
        exact ih (by omega)

/-- Reducing products or sums and groups ends with nothing left to reduce, for all tokens in every
state. The steps that are allowed for groups are enough: no more of them change the outcome. What is
taken for the arguments of a call is what stands before the first parenthesis that closes more than
has been opened. -/
theorem reductions_end_reduced (high : Bool) (tokens : List Token) (before : Build) :
    (∀ more, evaluateGroups (tokens.length + 1 + more) tokens before =
      evaluateGroups (tokens.length + 1) tokens before) ∧
    (∀ reduced after, evaluateTier high tokens before = .ok reduced after →
      ∀ left operator right, [left, operator, right] <:+: reduced →
        ¬StandsBetween high left operator right) ∧
    (∀ reduced after, evaluateGroups (tokens.length + 1) tokens before = .ok reduced after →
      ∀ ahead opening value closing, ahead ++ [opening, value, closing] <+: reduced →
        ¬IsBareGroup ahead opening value closing) ∧
    ∀ inside after, splitClose? 0 tokens = some (inside, after) ↔
      ∃ closing, tokens = inside ++ closing :: after ∧ closing.kind = .closeParen ∧
        Balanced (inside.map Token.kind) := by
  have groups := @evaluateGroups_ends before tokens _ (Nat.lt_succ_self tokens.length)
  refine ⟨fun more => (groups more).1, ?_, ?_, fun inside after => splitClose?_eq_some_iff⟩
  · intro reduced after ran left operator right isInside
    obtain ⟨ahead, behind, rfl⟩ := isInside
    exact @evaluateTier_reduces _ _ _ _ _ ran left operator right behind ⟨ahead, by simp⟩
  · intro reduced after ran
    obtain ⟨last, middle, scanned⟩ := (groups 0).2 reduced after ran
    obtain ⟨rfl, free⟩ := replaceGroup_leaves scanned
    exact free

end BuildM

end ScriptPack
