import Mathlib.Data.List.Forall2
import ScriptPack.Proofs.Replay

/-!
Evaluation of expressions on numbers. Expressions are given by their grammar, in which products
bind stronger than sums and both associate to the left. The compiler finds their value in another
order: the first group that holds no other is replaced by its value until no group is left, then
products are combined from left to right, then sums. Both agree, for expressions alone and for
expressions between other tokens.
-/

namespace ScriptPack

open List Option

/-- Where a number comes from: it was written or computed from written numbers, it is the score of
a counter, or commands have left it in a temporary. -/
inductive Source where
  | constant
  | counter (accessor : String)
  | computed
deriving DecidableEq

def Source.join : Source → Source → Source
  | constant, constant => constant
  | _, _ => computed

structure Quantity where
  value : Int32
  source : Source
deriving DecidableEq

def Quantity.combine? (op : ArithOp) (left right : Quantity) : Option Quantity :=
  (op.compute? left.value right.value).map fun value => ⟨value, left.source.join right.source⟩

/-- A token of an expression whose operands are known, or a token that is no part of one. -/
inductive Symbol where
  | quantity (quantity : Quantity)
  | arith (op : ArithOp)
  | openParen
  | closeParen
  | mark (kind : TokenKind)

def Symbol.takesArguments : Symbol → Bool
  | mark kind => BuildM.takesArguments ⟨kind, 0⟩
  | _ => false

/-- Symbols that neither open nor close a group, nor make arguments of the group that follows. -/
structure Symbol.IsInert (symbol : Symbol) : Prop where
  not_open : symbol ≠ openParen
  not_close : symbol ≠ closeParen
  no_call : symbol.takesArguments = false

theorem Symbol.isInert_quantity (result : Quantity) : IsInert (quantity result) :=
  ⟨by simp, by simp, rfl⟩

theorem Symbol.isInert_arith (op : ArithOp) : IsInert (arith op) :=
  ⟨by simp, by simp, rfl⟩

variable {result : Quantity} {before rest results : List Symbol} {high : Bool} {op : ArithOp}

def foldTier (high : Bool) : List Symbol → Option (List Symbol)
  | .quantity left :: .arith op :: .quantity right :: rest =>
      if op.isHighTier = high then
        (left.combine? op right).bind fun result => foldTier high (.quantity result :: rest)
      else (foldTier high (.arith op :: .quantity right :: rest)).map (.quantity left :: ·)
  | first :: rest => (foldTier high rest).map (first :: ·)
  | [] => some []
termination_by symbols => symbols.length

def foldTiers (symbols : List Symbol) : Option (List Symbol) :=
  (foldTier true symbols).bind (foldTier false)

/-- Replaces the first group that is a single value, and tells whether there was one. -/
def foldGroup (seen : List Symbol) (outside : Option (List Symbol)) :
    List Symbol → Option (List Symbol × Bool)
  | [] => some (seen.reverse, false)
  | .openParen :: rest =>
      foldGroup (.openParen :: seen)
        (if seen.head?.any Symbol.takesArguments then none else some seen) rest
  | .closeParen :: rest =>
      match outside with
      | none => foldGroup (.closeParen :: seen) none rest
      | some outside =>
          match foldTiers (seen.take (seen.length - outside.length - 1)).reverse with
          | none => none
          | some [value] => some (outside.reverse ++ value :: rest, true)
          | some _ => foldGroup (.closeParen :: seen) none rest
  | first :: rest => foldGroup (first :: seen) outside rest

def foldGroups : Nat → List Symbol → Option (List Symbol)
  | 0, symbols => some symbols
  | steps + 1, symbols =>
      match foldGroup [] none symbols with
      | none => none
      | some (symbols, replaced) => if replaced then foldGroups steps symbols else some symbols

def foldArithmetic (symbols : List Symbol) : Option (List Symbol) :=
  (foldGroups (symbols.length + 1) symbols).bind foldTiers

/-- The three kinds of phrases of expressions. -/
inductive Level where
  | sum
  | product
  | factor
deriving DecidableEq

/-- Expressions over leaves. A sum is a product, or a sum followed by `+` or `-` and a product; a
product is a factor, or a product followed by `*`, `/` or `%` and a factor; a factor is a leaf or a
sum in parentheses. -/
inductive Expression (α : Type) : Level → Type where
  | leaf (value : α) : Expression α .factor
  | group (inner : Expression α .sum) : Expression α .factor
  | factor (inner : Expression α .factor) : Expression α .product
  | times (left : Expression α .product) (op : ArithOp) (high : op.isHighTier = true)
      (right : Expression α .factor) : Expression α .product
  | product (inner : Expression α .product) : Expression α .sum
  | plus (left : Expression α .sum) (op : ArithOp) (low : op.isHighTier = false)
      (right : Expression α .product) : Expression α .sum

namespace Expression

variable {α : Type} {level : Level}

def leaves : {level : Level} → Expression α level → List α
  | _, leaf value => [value]
  | _, group inner | _, factor inner | _, product inner => inner.leaves
  | _, times left _ _ right | _, plus left _ _ right => left.leaves ++ right.leaves

def value (values : α → Int32) : {level : Level} → Expression α level → Option Int32
  | _, leaf value => some (values value)
  | _, group inner | _, factor inner | _, product inner => inner.value values
  | _, times left op _ right | _, plus left op _ right =>
      (left.value values).bind fun first => (right.value values).bind (op.compute? first)

def source (sources : α → Source) : {level : Level} → Expression α level → Source
  | _, leaf value => sources value
  | _, group inner | _, factor inner | _, product inner => inner.source sources
  | _, times left _ _ right | _, plus left _ _ right =>
      (left.source sources).join (right.source sources)

def kinds (leafKind : α → TokenKind) : {level : Level} → Expression α level → List TokenKind
  | _, leaf value => [leafKind value]
  | _, group inner => .openParen :: (inner.kinds leafKind ++ [.closeParen])
  | _, factor inner | _, product inner => inner.kinds leafKind
  | _, times left op _ right | _, plus left op _ right =>
      left.kinds leafKind ++ .arith op :: right.kinds leafKind

def groups : {level : Level} → Expression α level → Nat
  | _, leaf _ => 0
  | _, group inner => inner.groups + 1
  | _, factor inner | _, product inner => inner.groups
  | _, times left _ _ right | _, plus left _ _ right => left.groups + right.groups

variable (quantities : α → Quantity) {e : Expression α level}

def quantity? (e : Expression α level) : Option Quantity :=
  (e.value fun leaf => (quantities leaf).value).map fun value =>
    ⟨value, e.source fun leaf => (quantities leaf).source⟩

def symbols : {level : Level} → Expression α level → List Symbol
  | _, leaf value => [.quantity (quantities value)]
  | _, group inner => .openParen :: (inner.symbols ++ [.closeParen])
  | _, factor inner | _, product inner => inner.symbols
  | _, times left op _ right | _, plus left op _ right =>
      left.symbols ++ .arith op :: right.symbols

/-- The value of an expression as a symbol, if it has one. -/
def worth (e : Expression α level) : List Symbol :=
  ((e.quantity? quantities).map .quantity).toList

/-- The symbols of an expression when its groups are replaced by their values. -/
def flat : {level : Level} → Expression α level → List Symbol
  | _, leaf value => [.quantity (quantities value)]
  | _, group inner => inner.worth quantities
  | _, factor inner | _, product inner => inner.flat
  | _, times left op _ right | _, plus left op _ right => left.flat ++ .arith op :: right.flat

/-- The symbols of an expression when its products are replaced as well. -/
def sums : {level : Level} → Expression α level → List Symbol
  | _, leaf value => [.quantity (quantities value)]
  | _, group inner | _, factor inner | _, product inner => inner.worth quantities
  | _, times left op high right => (times left op high right).worth quantities
  | _, plus left op _ right => left.sums ++ .arith op :: right.worth quantities

theorem value_congr {values others : α → Int32}
    (same : ∀ leaf ∈ e.leaves, values leaf = others leaf) : e.value values = e.value others := by
  induction e with
  | leaf leaf => exact congrArg some (same leaf mem_cons_self)
  | group inner ih | factor inner ih | product inner ih => exact ih same
  | times left op _ right leftIh rightIh | plus left op _ right leftIh rightIh =>
    obtain ⟨leftSame, rightSame⟩ := forall_mem_append.1 same
    simp only [value, leftIh leftSame, rightIh rightSame]

section Map

variable {β : Type}

def map (change : α → β) : {level : Level} → Expression α level → Expression β level
  | _, leaf operand => leaf (change operand)
  | _, group inner => group (inner.map change)
  | _, factor inner => factor (inner.map change)
  | _, product inner => product (inner.map change)
  | _, times left op high right => times (left.map change) op high (right.map change)
  | _, plus left op low right => plus (left.map change) op low (right.map change)

theorem value_source_map (change : α → β) (values : β → Int32) (sources : β → Source)
    (e : Expression α level) :
    (e.map change).value values = (e.value fun operand => values (change operand)) ∧
      (e.map change).source sources = e.source fun operand => sources (change operand) := by
  induction e with
  | leaf operand => exact ⟨rfl, rfl⟩
  | group inner ih | factor inner ih | product inner ih => exact ih
  | times left op _ right leftIh rightIh | plus left op _ right leftIh rightIh =>
    simp only [map, value, source, leftIh, rightIh, and_self]

theorem symbols_map (change : α → β) (quantities : β → Quantity) (e : Expression α level) :
    (e.map change).symbols quantities = e.symbols fun operand => quantities (change operand) := by
  induction e with
  | leaf operand => rfl
  | group inner ih => simp only [map, symbols, ih]
  | factor inner ih | product inner ih => exact ih
  | times left op _ right leftIh rightIh | plus left op _ right leftIh rightIh =>
    simp only [map, symbols, leftIh, rightIh]

theorem quantity?_map (change : α → β) (quantities : β → Quantity) (e : Expression α level) :
    (e.map change).quantity? quantities = e.quantity? fun operand => quantities (change operand) := by
  obtain ⟨values, sources⟩ := value_source_map change (fun operand => (quantities operand).value)
    (fun operand => (quantities operand).source) e
  rw [quantity?, quantity?, values, sources]

end Map

/-- Only a counter alone is worth the score of a counter as it stands. -/
theorem exists_leaf_of_source {sources : α → Source} {accessor : String}
    (isCounter : e.source sources = .counter accessor) :
    ∃ leaf ∈ e.leaves, sources leaf = .counter accessor := by
  have joined (left right : Source) : left.join right ≠ .counter accessor := by
    cases left <;> cases right <;> simp [Source.join]
  induction e with
  | leaf leaf => exact ⟨leaf, mem_cons_self, isCounter⟩
  | group inner ih | factor inner ih | product inner ih => exact ih isCounter
  | times left op _ right _ _ | plus left op _ right _ _ => exact absurd isCounter (joined _ _)

end Expression

section Tiers

variable {first : Symbol}

/-- The first symbol is passed over when no operation of the tier starts with it. -/
theorem foldTier_pass (noStart : ∀ left op right tail, first = .quantity left →
      rest = .arith op :: .quantity right :: tail → op.isHighTier ≠ high) :
    foldTier high (first :: rest) = (foldTier high rest).map (first :: ·) := by
  rw [foldTier.eq_def]
  split
  · rename_i left op right tail equal
    obtain ⟨rfl, rfl⟩ := cons.inj equal
    rw [if_neg (noStart left op right tail rfl rfl)]
  · rename_i equal
    obtain ⟨rfl, rfl⟩ := cons.inj equal
    rfl
  · contradiction

theorem foldTier_skip (noOperator : ∀ op, op.isHighTier = high → rest.head? ≠ some (.arith op)) :
    foldTier high (first :: rest) = (foldTier high rest).map (first :: ·) := by
  apply foldTier_pass
  rintro left op right tail - rfl same
  exact noOperator op same rfl

theorem foldTier_pair {left right : Quantity} (tier : op.isHighTier = high)
    (combined : left.combine? op right = some result) :
    foldTier high (.quantity left :: .arith op :: .quantity right :: rest) =
      foldTier high (.quantity result :: rest) := by
  rw [foldTier, if_pos tier, combined, bind_some]

theorem foldTier_nil (high : Bool) : foldTier high [] = some [] := by
  rw [foldTier]

theorem foldTier_singleton (high : Bool) (symbol : Symbol) :
    foldTier high [symbol] = some [symbol] := by
  rw [foldTier_skip (by simp), foldTier_nil, map_some]

theorem foldTier_short (high : Bool) {symbols : List Symbol} (short : symbols.length < 3) :
    foldTier high symbols = some symbols := by
  rcases symbols with _ | ⟨first, _ | ⟨second, _ | ⟨third, rest⟩⟩⟩
  · exact foldTier_nil high
  · exact foldTier_singleton high first
  · rw [foldTier_pass (by simp), foldTier_singleton, map_some]
  · simp only [length_cons] at short
    omega

end Tiers

namespace Expression

variable {α : Type} {level : Level} {quantities : α → Quantity} {e : Expression α level}

theorem combine_of_known {left right : Option Int32} {leftSource rightSource : Source}
    (known : ((left.bind fun first => right.bind (op.compute? first)).map fun value =>
      (⟨value, leftSource.join rightSource⟩ : Quantity)) = some result) :
    ∃ first second : Quantity, left.map (⟨·, leftSource⟩) = some first ∧
      right.map (⟨·, rightSource⟩) = some second ∧ first.combine? op second = some result := by
  cases left with
  | none => cases known
  | some left =>
    cases right with
    | none => cases known
    | some right => exact ⟨_, _, rfl, rfl, known⟩

theorem worth_of_known (known : e.quantity? quantities = some result) :
    e.worth quantities = [.quantity result] := by
  rw [worth, known]
  rfl

theorem flat_factor {e : Expression α .factor} (known : e.quantity? quantities = some result) :
    e.flat quantities = [.quantity result] := by
  cases e with
  | leaf leaf =>
    cases known
    rfl
  | group inner => exact worth_of_known known

theorem flat_starts (known : e.quantity? quantities = some result) :
    (∃ first rest, e.flat quantities = .quantity first :: rest) ∧
      ∀ symbol ∈ e.flat quantities, symbol.IsInert := by
  induction e generalizing result with
  | leaf _ | group _ =>
    rw [flat_factor known]
    exact ⟨⟨_, _, rfl⟩, forall_mem_singleton.2 (Symbol.isInert_quantity _)⟩
  | factor inner ih | product inner ih => exact ih known
  | times left op _ right leftIh rightIh | plus left op _ right leftIh rightIh =>
    obtain ⟨first, second, leftKnown, rightKnown, -⟩ := combine_of_known known
    obtain ⟨⟨start, rest, starts⟩, inert⟩ := leftIh leftKnown
    rw [flat]
    exact ⟨⟨start, _, by rw [starts, cons_append]⟩, forall_mem_append.2 ⟨inert,
      forall_mem_cons.2 ⟨Symbol.isInert_arith op, (rightIh rightKnown).2⟩⟩⟩

theorem foldTier_true_of_tight (tight : level ≠ .sum) (known : e.quantity? quantities = some result)
    (rest : List Symbol) :
    foldTier true (e.flat quantities ++ rest) = foldTier true (.quantity result :: rest) := by
  induction e generalizing result rest with
  | leaf _ | group _ =>
    rw [flat_factor known]
    rfl
  | factor inner ih => exact ih nofun known rest
  | times left op high right leftIh =>
    obtain ⟨first, second, leftKnown, rightKnown, combined⟩ := combine_of_known known
    rw [flat, append_assoc, leftIh nofun leftKnown, flat_factor rightKnown]
    exact foldTier_pair high combined
  | product _ | plus _ _ _ _ => exact absurd rfl tight

/-- The first pass leaves a sum of values. -/
theorem foldTier_true_flat (known : e.quantity? quantities = some result)
    (noProduct : ∀ op, op.isHighTier = true → rest.head? ≠ some (.arith op)) :
    foldTier true (e.flat quantities ++ rest) =
      (foldTier true rest).map (e.sums quantities ++ ·) := by
  have tightly {level : Level} {e : Expression α level} {result : Quantity} {rest : List Symbol}
      (tight : level ≠ .sum) (known : e.quantity? quantities = some result)
      (noProduct : ∀ op, op.isHighTier = true → rest.head? ≠ some (.arith op)) :
      foldTier true (e.flat quantities ++ rest) =
        (foldTier true rest).map (e.worth quantities ++ ·) := by
    rw [foldTier_true_of_tight tight known, foldTier_skip noProduct, worth_of_known known]
    rfl
  induction e generalizing result rest with
  | leaf _ | group _ | factor _ | times _ _ _ _ => exact tightly nofun known noProduct
  | product inner => exact @tightly _ inner _ _ nofun known noProduct
  | plus left op low right leftIh =>
    obtain ⟨first, second, leftKnown, rightKnown, -⟩ := combine_of_known known
    obtain ⟨⟨start, tail, starts⟩, -⟩ := flat_starts rightKnown
    have noHigh : ∀ other, other.isHighTier = true →
        (Symbol.arith op :: (right.flat quantities ++ rest)).head? ≠ some (.arith other) := by
      rintro _ high ⟨⟩
      cases low.symm.trans high
    rw [flat, append_assoc, cons_append, leftIh leftKnown noHigh,
      foldTier_skip (by rw [starts]; nofun), @tightly _ right _ _ nofun rightKnown noProduct]
    simp [sums, Function.comp_def]

/-- The second pass brings the sum to one value. -/
theorem foldTier_false_sums (known : e.quantity? quantities = some result) (rest : List Symbol) :
    foldTier false (e.sums quantities ++ rest) = foldTier false (.quantity result :: rest) := by
  induction e generalizing result rest with
  | leaf _ | group _ _ | factor _ _ | product _ _ | times _ _ _ _ _ _ =>
    exact congrArg (fun symbols => foldTier false (symbols ++ rest)) (worth_of_known known)
  | plus left op low right leftIh =>
    obtain ⟨first, second, leftKnown, rightKnown, combined⟩ := combine_of_known known
    rw [sums, append_assoc, leftIh leftKnown, worth_of_known rightKnown]
    exact foldTier_pair low combined

theorem sums_starts (known : e.quantity? quantities = some result) :
    ∃ first rest, e.sums quantities = .quantity first :: rest := by
  induction e generalizing result with
  | leaf _ | group _ _ | factor _ _ | product _ _ | times _ _ _ _ _ _ =>
    exact ⟨result, [], worth_of_known known⟩
  | plus left op low right leftIh =>
    obtain ⟨first, second, leftKnown, -⟩ := combine_of_known known
    obtain ⟨start, rest, starts⟩ := leftIh leftKnown
    exact ⟨start, _, by rw [sums, starts, cons_append]⟩

theorem foldTiers_flat (known : e.quantity? quantities = some result) :
    foldTiers (e.flat quantities) = some [.quantity result] := by
  have first : foldTier true (e.flat quantities ++ []) = _ :=
    foldTier_true_flat known nofun
  have second := foldTier_false_sums known []
  rw [append_nil] at first second
  rw [foldTiers, first, foldTier_nil, map_some, bind_some, append_nil, second, foldTier_singleton]

end Expression

section Groups

theorem foldGroup_other {symbol : Symbol} (notOpen : symbol ≠ .openParen)
    (notClose : symbol ≠ .closeParen)
    (seen : List Symbol) (outside : Option (List Symbol)) (rest : List Symbol) :
    foldGroup seen outside (symbol :: rest) = foldGroup (symbol :: seen) outside rest := by
  cases symbol with
  | openParen => exact absurd rfl notOpen
  | closeParen => exact absurd rfl notClose
  | quantity quantity => rfl
  | arith op => rfl
  | mark kind => rfl

variable {symbols : List Symbol}

theorem foldGroup_inert (inert : ∀ symbol ∈ symbols, symbol.IsInert) (seen : List Symbol)
    (outside : Option (List Symbol)) (rest : List Symbol) :
    foldGroup seen outside (symbols ++ rest) =
      foldGroup (symbols.reverse ++ seen) outside rest := by
  induction symbols generalizing seen with
  | nil => rfl
  | cons symbol others ih =>
    have first := inert symbol mem_cons_self
    rw [cons_append, foldGroup_other first.not_open first.not_close,
      ih (fun other member => inert other (mem_cons_of_mem _ member)), reverse_cons,
      append_assoc, singleton_append]

theorem foldGroup_open (noClose : .closeParen ∉ symbols) (seen : List Symbol)
    (outside : Option (List Symbol)) :
    ∃ inner, ∀ rest, foldGroup seen outside (symbols ++ rest) =
      foldGroup (symbols.reverse ++ seen) inner rest := by
  induction symbols generalizing seen outside with
  | nil => exact ⟨outside, fun _ => rfl⟩
  | cons symbol others ih =>
    obtain ⟨notClose, noClose⟩ := not_or.1 (mt mem_cons.2 noClose)
    have step : ∃ inner, ∀ rest,
        foldGroup seen outside (symbol :: rest) = foldGroup (symbol :: seen) inner rest := by
      by_cases isOpen : symbol = .openParen
      · subst isOpen
        exact ⟨_, fun _ => rfl⟩
      · exact ⟨outside, foldGroup_other isOpen (Ne.symm notClose) seen outside⟩
    obtain ⟨middle, step⟩ := step
    obtain ⟨inner, passed⟩ := ih noClose (symbol :: seen) middle
    refine ⟨inner, ?_⟩
    intro rest
    rw [cons_append, step, passed, reverse_cons, append_assoc, singleton_append]

theorem foldGroup_group {inside : List Symbol} {value : Symbol} (after : List Symbol)
    (noClose : .closeParen ∉ before) (noCall : before.getLast?.any Symbol.takesArguments = false)
    (inert : ∀ symbol ∈ inside, symbol.IsInert) (folded : foldTiers inside = some [value]) :
    foldGroup [] none (before ++ .openParen :: (inside ++ .closeParen :: after)) =
      some (before ++ value :: after, true) := by
  obtain ⟨inner, passed⟩ := foldGroup_open noClose [] none
  have noArguments : before.reverse.head?.any Symbol.takesArguments = false := by
    rwa [head?_reverse]
  have length : (inside.reverse ++ Symbol.openParen :: before.reverse).length -
      before.reverse.length - 1 = inside.reverse.length := by
    simp only [length_append, length_cons, length_reverse]
    omega
  rw [passed, append_nil, foldGroup, noArguments, foldGroup_inert inert]
  simp only [foldGroup, Bool.false_eq_true, if_false]
  rw [length, take_left, reverse_reverse, folded]
  simp

/-- What is to the right of an operator is replaced after what is to its left. -/
theorem foldGroups_binary {left right leftFlat rightFlat after : List Symbol}
    {leftGroups rightGroups steps : Nat} (noClose : .closeParen ∉ before)
    (leftInert : ∀ symbol ∈ leftFlat, symbol.IsInert)
    (leftStep : ∀ after steps, foldGroups (leftGroups + steps) (before ++ (left ++ after)) =
      foldGroups steps (before ++ (leftFlat ++ after)))
    (rightStep : ∀ {before : List Symbol}, .closeParen ∉ before →
      before.getLast?.any Symbol.takesArguments = false →
      foldGroups (rightGroups + steps) (before ++ (right ++ after)) =
        foldGroups steps (before ++ (rightFlat ++ after))) :
    foldGroups (leftGroups + rightGroups + steps)
        (before ++ (left ++ .arith op :: right ++ after)) =
      foldGroups steps (before ++ (leftFlat ++ .arith op :: rightFlat ++ after)) := by
  have noClose : .closeParen ∉ before ++ leftFlat ++ [.arith op] := by
    simp only [mem_append, mem_singleton, not_or]
    exact ⟨⟨noClose, fun member => (leftInert _ member).not_close rfl⟩, nofun⟩
  have rightDone := rightStep noClose (by simp [Symbol.takesArguments])
  have leftDone := leftStep (.arith op :: (right ++ after)) (rightGroups + steps)
  simp only [append_assoc, cons_append, nil_append] at leftDone rightDone ⊢
  rw [Nat.add_assoc, leftDone, rightDone]

end Groups

namespace Expression

variable {α : Type} {level : Level} {quantities : α → Quantity}

/-- Groups are replaced one by one, from the innermost of the first. Nothing before the expression
is closed, so the first parenthesis that closes is its own. -/
theorem foldGroups_symbols {e : Expression α level} (known : e.quantity? quantities = some result)
    (after : List Symbol) (noClose : .closeParen ∉ before)
    (noCall : before.getLast?.any Symbol.takesArguments = false) (steps : Nat) :
    foldGroups (e.groups + steps) (before ++ (e.symbols quantities ++ after)) =
      foldGroups steps (before ++ (e.flat quantities ++ after)) := by
  induction e generalizing result before after steps with
  | leaf leaf =>
    rw [groups, Nat.zero_add]
    rfl
  | group inner ih =>
    have known : inner.quantity? quantities = some result := known
    have noCloseInside : .closeParen ∉ before ++ [.openParen] := by
      simpa using noClose
    have inner := ih known (.closeParen :: after) noCloseInside
      (by simp [Symbol.takesArguments]) (steps + 1)
    have replaced := foldGroup_group after noClose noCall (flat_starts known).2
      (foldTiers_flat known)
    rw [flat, worth_of_known known]
    simp only [groups, symbols, append_assoc, cons_append, nil_append] at inner ⊢
    rw [show ∀ groups, groups + 1 + steps = groups + (steps + 1) by omega, inner, foldGroups,
      replaced]
    rfl
  | factor inner ih | product inner ih => exact ih known after noClose noCall steps
  | times left op _ right leftIh rightIh | plus left op _ right leftIh rightIh =>
    obtain ⟨first, second, leftKnown, rightKnown, -⟩ := combine_of_known known
    exact foldGroups_binary noClose (flat_starts leftKnown).2
      (fun after steps => leftIh leftKnown after noClose noCall steps)
      (fun noClose noCall => rightIh rightKnown after noClose noCall steps)

theorem groups_lt_length (quantities : α → Quantity) (e : Expression α level) :
    e.groups < (e.symbols quantities).length := by
  induction e with
  | leaf leaf => exact Nat.zero_lt_one
  | group inner ih =>
    simp only [groups, symbols, length_cons, length_append]
    omega
  | factor inner ih | product inner ih => exact ih
  | times left op _ right leftIh rightIh | plus left op _ right leftIh rightIh =>
    simp only [groups, symbols, length_cons, length_append]
    omega

end Expression

/-- A part of the tokens of a statement: an expression, or a token that is no part of one. -/
inductive Phrase (α : Type) where
  | mark (kind : TokenKind)
  | operand (e : Expression α .sum)

namespace Phrase

variable {α : Type} (quantities : α → Quantity) {phrase : Phrase α}

def groups : Phrase α → Nat
  | mark _ => 0
  | operand e => e.groups

def symbols : Phrase α → List Symbol
  | mark kind => [.mark kind]
  | operand e => e.symbols quantities

def result? : Phrase α → Option Symbol
  | mark kind => some (.mark kind)
  | operand e => (e.quantity? quantities).map .quantity

/-- Whether a group after this phrase could be taken for arguments. -/
def takesArguments : Phrase α → Bool
  | mark kind => BuildM.takesArguments ⟨kind, 0⟩
  | operand _ => false

def flat : Phrase α → List Symbol
  | mark kind => [.mark kind]
  | operand e => e.flat quantities

def sums : Phrase α → List Symbol
  | mark kind => [.mark kind]
  | operand e => e.sums quantities

section

variable {quantities : α → Quantity} {result : Symbol} (known : phrase.result? quantities = some result)

include known

theorem isInert_of_mem_flat (noCall : phrase.takesArguments = false) :
    ∀ symbol ∈ phrase.flat quantities, symbol.IsInert := by
  cases phrase with
  | mark kind => exact forall_mem_singleton.2 ⟨nofun, nofun, noCall⟩
  | operand e =>
    obtain ⟨quantity, known, -⟩ := map_eq_some_iff.1 known
    exact (e.flat_starts known).2

/-- Neither starts with an operator. -/
theorem head?_flat (rest : List Symbol) (op : ArithOp) :
    (phrase.flat quantities ++ rest).head? ≠ some (.arith op) ∧
      (phrase.sums quantities ++ rest).head? ≠ some (.arith op) := by
  cases phrase with
  | mark kind => exact ⟨nofun, nofun⟩
  | operand e =>
    obtain ⟨quantity, known, -⟩ := map_eq_some_iff.1 known
    obtain ⟨first, tail, starts⟩ := (e.flat_starts known).1
    obtain ⟨sum, others, begins⟩ := e.sums_starts known
    rw [flat, sums, starts, begins]
    exact ⟨nofun, nofun⟩

theorem foldTier_passes (noOperator : ∀ op, rest.head? ≠ some (.arith op)) :
    foldTier true (phrase.flat quantities ++ rest) =
        (foldTier true rest).map (phrase.sums quantities ++ ·) ∧
      foldTier false (phrase.sums quantities ++ rest) = (foldTier false rest).map (result :: ·) := by
  cases phrase with
  | mark kind =>
    cases known
    exact ⟨foldTier_skip fun op _ => noOperator op, foldTier_skip fun op _ => noOperator op⟩
  | operand e =>
    obtain ⟨quantity, found, rfl⟩ := map_eq_some_iff.1 known
    exact ⟨e.foldTier_true_flat found fun op _ => noOperator op,
      (e.foldTier_false_sums found rest).trans (foldTier_skip fun op _ => noOperator op)⟩

end

theorem takesArguments_operands (arguments : List (Expression α .sum)) :
    ∀ phrase ∈ arguments.map operand, phrase.takesArguments = false := by
  intro phrase member
  obtain ⟨e, -, rfl⟩ := mem_map.1 member
  rfl

theorem result?_operands {quantities : α → Quantity} {arguments : List (Expression α .sum)}
    {worth : List Quantity}
    (each : Forall₂ (fun e result => e.quantity? quantities = some result) arguments worth) :
    Forall₂ (fun phrase symbol => phrase.result? quantities = some symbol)
      (arguments.map operand) (worth.map .quantity) := by
  rw [forall₂_map_left_iff, forall₂_map_right_iff]
  refine each.imp fun e result known => ?_
  rw [result?, known, map_some]

end Phrase

open Phrase

section Phrases

variable {α : Type} {quantities : α → Quantity} {phrases : List (Phrase α)} {after : List Symbol}

theorem sum_groups_le (quantities : α → Quantity) (phrases : List (Phrase α)) :
    (phrases.map groups).sum ≤ (phrases.flatMap (symbols quantities)).length := by
  induction phrases with
  | nil => exact Nat.le_refl 0
  | cons phrase phrases ih =>
    have first : phrase.groups ≤ (phrase.symbols quantities).length := by
      cases phrase with
      | mark kind => exact Nat.zero_le _
      | operand e => exact (e.groups_lt_length quantities).le
    rw [map_cons, sum_cons, flatMap_cons, length_append]
    omega

variable
  (known : Forall₂ (fun phrase result => phrase.result? quantities = some result) phrases results)

include known

theorem foldGroups_phrases (noCalls : ∀ phrase ∈ phrases, phrase.takesArguments = false)
    (after : List Symbol) (noClose : .closeParen ∉ before)
    (noCall : before.getLast?.any Symbol.takesArguments = false) (steps : Nat) :
    foldGroups ((phrases.map groups).sum + steps)
        (before ++ (phrases.flatMap (symbols quantities) ++ after)) =
      foldGroups steps (before ++ (phrases.flatMap (flat quantities) ++ after)) := by
  induction known generalizing before steps with
  | nil => simp
  | @cons phrase result phrases results known others ih =>
    obtain ⟨noCallFirst, noCallsLater⟩ := forall_mem_cons.1 noCalls
    have inert := isInert_of_mem_flat known noCallFirst
    have noCloseLater : .closeParen ∉ before ++ phrase.flat quantities := by
      rw [mem_append, not_or]
      exact ⟨noClose, fun member => (inert _ member).not_close rfl⟩
    have noCallLater : (before ++ phrase.flat quantities).getLast?.any Symbol.takesArguments = false := by
      cases last : (phrase.flat quantities).getLast? with
      | none =>
        rw [getLast?_eq_none_iff.1 last, append_nil]
        exact noCall
      | some symbol =>
        rw [getLast?_append, last]
        exact (inert symbol (mem_of_getLast? last)).no_call
    have first : foldGroups (phrase.groups + ((phrases.map groups).sum + steps))
          (before ++ (phrase.symbols quantities ++
            (phrases.flatMap (symbols quantities) ++ after))) =
        foldGroups ((phrases.map groups).sum + steps) (before ++
          (phrase.flat quantities ++ (phrases.flatMap (symbols quantities) ++ after))) := by
      cases phrase with
      | mark kind =>
        rw [groups, Nat.zero_add]
        rfl
      | operand e =>
        obtain ⟨quantity, known, -⟩ := map_eq_some_iff.1 known
        exact e.foldGroups_symbols known _ noClose noCall _
    have later := ih noCallsLater noCloseLater noCallLater steps
    simp only [append_assoc] at later
    rw [map_cons, sum_cons, flatMap_cons, flatMap_cons, Nat.add_assoc,
      append_assoc, first, later, append_assoc]

theorem head?_flatMap (noOperator : ∀ op, after.head? ≠ some (.arith op)) (op : ArithOp) :
    (phrases.flatMap (flat quantities) ++ after).head? ≠ some (.arith op) ∧
      (phrases.flatMap (sums quantities) ++ after).head? ≠ some (.arith op) := by
  cases known with
  | nil => exact ⟨noOperator op, noOperator op⟩
  | cons known _ =>
    rw [flatMap_cons, flatMap_cons, append_assoc, append_assoc]
    exact ⟨(head?_flat known _ op).1, (head?_flat known _ op).2⟩

theorem foldTier_phrases (noOperator : ∀ op, after.head? ≠ some (.arith op)) :
    foldTier true (phrases.flatMap (flat quantities) ++ after) =
        (foldTier true after).map (phrases.flatMap (sums quantities) ++ ·) ∧
      foldTier false (phrases.flatMap (sums quantities) ++ after) =
        (foldTier false after).map (results ++ ·) := by
  induction known with
  | nil => exact ⟨map_id'.symm, map_id'.symm⟩
  | cons known others ih =>
    have starts := head?_flatMap others noOperator
    rw [flatMap_cons, flatMap_cons, append_assoc, append_assoc,
      (foldTier_passes known fun op => (starts op).1).1,
      (foldTier_passes known fun op => (starts op).2).2, ih.1, ih.2]
    simp [Function.comp_def]

theorem isInert_of_mem_flats (noCalls : ∀ phrase ∈ phrases, phrase.takesArguments = false) :
    ∀ symbol ∈ phrases.flatMap (flat quantities), symbol.IsInert := by
  induction known with
  | nil => exact forall_mem_nil _
  | cons known _ ih =>
    obtain ⟨noCallFirst, noCallsLater⟩ := forall_mem_cons.1 noCalls
    rw [flatMap_cons, forall_mem_append]
    exact ⟨isInert_of_mem_flat known noCallFirst, ih noCallsLater⟩

/-- Evaluation brings every expression to its value and leaves what stands around them. -/
theorem foldArithmetic_between (noClose : .closeParen ∉ before)
    (noCall : before.getLast?.any Symbol.takesArguments = false)
    (settled : ∀ flat : List Symbol, (∀ symbol ∈ flat, symbol.IsInert) →
      foldGroup [] none (before ++ (flat ++ after)) = some (before ++ (flat ++ after), false))
    (passed : ∀ high symbols,
      foldTier high (before ++ symbols) = (foldTier high symbols).map (before ++ ·))
    (kept : ∀ high, foldTier high after = some after)
    (noOperator : ∀ op, after.head? ≠ some (.arith op))
    (noCalls : ∀ phrase ∈ phrases, phrase.takesArguments = false) :
    foldArithmetic (before ++ (phrases.flatMap (symbols quantities) ++ after)) =
      some (before ++ (results ++ after)) := by
  obtain ⟨firstPass, secondPass⟩ := foldTier_phrases known noOperator
  have enough : (phrases.map groups).sum ≤
      (before ++ (phrases.flatMap (symbols quantities) ++ after)).length := by
    have := sum_groups_le quantities phrases
    simp only [length_append]
    omega
  obtain ⟨left, count⟩ := Nat.exists_eq_add_of_le enough
  have replaced := foldGroups_phrases known noCalls after noClose noCall (left + 1)
  rw [foldGroups, settled _ (isInert_of_mem_flats known noCalls)] at replaced
  rw [← Nat.add_assoc, ← count] at replaced
  rw [foldArithmetic, replaced]
  simp [foldTiers, passed, firstPass, secondPass, kept]

theorem foldArithmetic_phrases (noCalls : ∀ phrase ∈ phrases, phrase.takesArguments = false) :
    foldArithmetic (phrases.flatMap (symbols quantities)) = some results := by
  have folded := @foldArithmetic_between [] results α quantities phrases [] known not_mem_nil rfl
    (fun flat inert => by
      rw [nil_append, foldGroup_inert inert, foldGroup]
      simp)
    (fun high symbols => by simp) foldTier_nil nofun noCalls
  simpa using folded

/-- The group after a name that takes arguments is no value, so that each argument is evaluated by
itself and the parentheses stay. -/
theorem foldArithmetic_call {head : TokenKind} (isCall : Symbol.takesArguments (.mark head) = true)
    (noCalls : ∀ phrase ∈ phrases, phrase.takesArguments = false) :
    foldArithmetic
        (.mark head :: .openParen :: (phrases.flatMap (symbols quantities) ++ [.closeParen])) =
      some (.mark head :: .openParen :: (results ++ [.closeParen])) := by
  refine @foldArithmetic_between [.mark head, .openParen] results α quantities phrases [.closeParen]
    known (by simp) rfl ?_ ?_ (foldTier_singleton · _) nofun noCalls
  · intro flat inert
    change foldGroup _ (if Symbol.takesArguments (.mark head) then none else _)
      (flat ++ [.closeParen]) = _
    rw [isCall, if_pos rfl, foldGroup_inert inert, foldGroup, foldGroup]
    simp
  · intro high symbols
    rw [cons_append, singleton_append, foldTier_pass (by nofun), foldTier_pass (by nofun),
      Option.map_map]
    rfl

end Phrases

end ScriptPack
