import ScriptPack.Proofs.Nesting
import ScriptPack.Proofs.Preparation

/-!
Expressions with calls. The arguments of a call are expressions again, so calls stand inside calls
to any depth. In the tokens of a statement a call is the name of a routine and its arguments, one
after the other, in parentheses.
-/

namespace ScriptPack

open Atom Option

open Expression (leaves symbols)
open List

/-- An operand of an expression with calls. -/
inductive Term where
  | atom (atom : Atom)
  | call (name : String) (arguments : List (Expression Term .sum))

namespace Term

section Kinds

variable (atomKind : Atom → TokenKind) (nameKind : String → TokenKind)

mutual

def kinds : Term → List TokenKind
  | .atom operand => [atomKind operand]
  | .call name arguments => nameKind name :: .openParen :: (kindsAll arguments ++ [.closeParen])

def kindsAll : List (Expression Term .sum) → List TokenKind
  | [] => []
  | e :: rest => kindsOf e ++ kindsAll rest

def kindsOf : {level : Level} → Expression Term level → List TokenKind
  | _, .leaf term => term.kinds
  | _, .group inner => .openParen :: (kindsOf inner ++ [.closeParen])
  | _, .factor inner | _, .product inner => kindsOf inner
  | _, .times left op _ right | _, .plus left op _ right =>
      kindsOf left ++ .arith op :: kindsOf right

end

end Kinds

def written (e : Expression Term .sum) : List TokenKind :=
  kindsOf Atom.written .word e

mutual

def subterms : Term → List Term
  | .atom operand => [.atom operand]
  | .call name arguments => .call name arguments :: subtermsAll arguments

def subtermsAll : List (Expression Term .sum) → List Term
  | [] => []
  | e :: rest => subtermsOf e ++ subtermsAll rest

def subtermsOf : {level : Level} → Expression Term level → List Term
  | _, .leaf term => term.subterms
  | _, .group inner | _, .factor inner | _, .product inner => subtermsOf inner
  | _, .times left _ _ right | _, .plus left _ _ right => subtermsOf left ++ subtermsOf right

end

section Values

variable (results : String → List Int32 → Option Int32) (values : Atom → Int32)
variable {value : Int32} {level : Level} {e : Expression Term level}
  {arguments : List (Expression Term .sum)} {operands : List Int32}

mutual

/-- The value of an operand, given what routines make of their arguments. -/
def value? : Term → Option Int32
  | .atom operand => some (values operand)
  | .call name arguments => (valueAll? arguments).bind (results name)

def valueAll? : List (Expression Term .sum) → Option (List Int32)
  | [] => some []
  | e :: rest => (valueOf? e).bind fun first => (valueAll? rest).map (first :: ·)

def valueOf? : {level : Level} → Expression Term level → Option Int32
  | _, .leaf term => term.value?
  | _, .group inner | _, .factor inner | _, .product inner => valueOf? inner
  | _, .times left op _ right | _, .plus left op _ right =>
      (valueOf? left).bind fun first => (valueOf? right).bind (op.compute? first)

end

def quantity : Term → Quantity
  | .atom operand => ⟨values operand, operand.source⟩
  | .call name arguments => ⟨((Term.call name arguments).value? results values).getD 0, .computed⟩

variable {results values}

theorem value?_eq_quantity {term : Term} (known : term.value? results values = some value) :
    (term.quantity results values).value = value := by
  cases term with
  | atom operand =>
    rw [value?] at known
    exact some.inj known
  | call name arguments => rw [quantity, known, getD_some]

theorem leaves_of_valueOf? (known : valueOf? results values e = some value) :
    (∀ term ∈ e.leaves, ∃ operand, term.value? results values = some operand) ∧
      e.value (fun term => (term.quantity results values).value) = some value := by
  induction e generalizing value with
  | leaf term =>
    rw [valueOf?] at known
    rw [Expression.value, value?_eq_quantity known]
    exact ⟨forall_mem_singleton.2 ⟨value, known⟩, rfl⟩
  | group inner ih | factor inner ih | product inner ih =>
    rw [valueOf?] at known
    exact ih known
  | times left op _ right leftIh rightIh | plus left op _ right leftIh rightIh =>
    rw [valueOf?] at known
    obtain ⟨first, leftKnown, known⟩ := bind_eq_some_iff.1 known
    obtain ⟨second, rightKnown, known⟩ := bind_eq_some_iff.1 known
    obtain ⟨leftLeaves, leftValue⟩ := leftIh leftKnown
    obtain ⟨rightLeaves, rightValue⟩ := rightIh rightKnown
    rw [Expression.value, leftValue, bind_some, rightValue, bind_some, known]
    exact ⟨forall_mem_append.2 ⟨leftLeaves, rightLeaves⟩, rfl⟩

theorem quantity?_of_valueOf? {e : Expression Term .sum}
    (known : valueOf? results values e = some value) :
    e.quantity? (quantity results values) =
      some ⟨value, e.source fun term => (term.quantity results values).source⟩ := by
  rw [Expression.quantity?, (leaves_of_valueOf? known).2, map_some]

theorem quantities_of_valueAll? (known : valueAll? results values arguments = some operands) :
    (∀ term ∈ arguments.flatMap leaves, ∃ operand, term.value? results values = some operand) ∧
    ∃ quantities : List Quantity, quantities.map Quantity.value = operands ∧
      Forall₂ (fun e result => e.quantity? (quantity results values) = some result) arguments
        quantities := by
  induction arguments generalizing operands with
  | nil =>
    rw [valueAll?] at known
    cases known
    exact ⟨nofun, [], rfl, .nil⟩
  | cons e rest ih =>
    rw [valueAll?] at known
    obtain ⟨first, firstKnown, known⟩ := bind_eq_some_iff.1 known
    obtain ⟨others, othersKnown, rfl⟩ := map_eq_some_iff.1 known
    obtain ⟨leaves, quantities, rfl, each⟩ := ih othersKnown
    rw [flatMap_cons]
    exact ⟨forall_mem_append.2 ⟨(leaves_of_valueOf? firstKnown).1, leaves⟩,
      _ :: quantities, rfl, .cons (quantity?_of_valueOf? firstKnown) each⟩

end Values

end Term

/-- A part of an expression in the order of its tokens. -/
inductive Item where
  | arith (op : ArithOp)
  | openParen
  | closeParen
  | term (term : Term)

def Item.kinds (atomKind : Atom → TokenKind) (nameKind : String → TokenKind) : Item → List TokenKind
  | arith op => [.arith op]
  | openParen => [.openParen]
  | closeParen => [.closeParen]
  | term operand => operand.kinds atomKind nameKind

def Item.symbol (quantities : Term → Quantity) : Item → Symbol
  | arith op => .arith op
  | openParen => .openParen
  | closeParen => .closeParen
  | term operand => .quantity (quantities operand)

def Item.term? : Item → Option Term
  | term operand => some operand
  | _ => none

namespace Term

/-- The parts of an expression. A call is one of them, with its arguments. -/
def items : {level : Level} → Expression Term level → List Item
  | _, .leaf term => [.term term]
  | _, .group inner => .openParen :: (items inner ++ [.closeParen])
  | _, .factor inner | _, .product inner => items inner
  | _, .times left op _ right | _, .plus left op _ right => items left ++ .arith op :: items right

section Items

variable {level : Level} (atomKind : Atom → TokenKind) (nameKind : String → TokenKind)

theorem kindsOf_eq (e : Expression Term level) :
    kindsOf atomKind nameKind e = (items e).flatMap (Item.kinds atomKind nameKind) := by
  induction e with
  | leaf term => simp [kindsOf, items, Item.kinds]
  | group inner ih => simp [kindsOf, items, Item.kinds, ih]
  | factor inner ih | product inner ih => simp only [kindsOf, items, ih]
  | times left op _ right leftIh rightIh | plus left op _ right leftIh rightIh =>
    simp [kindsOf, items, Item.kinds, leftIh, rightIh]

theorem kindsAll_eq (arguments : List (Expression Term .sum)) :
    kindsAll atomKind nameKind arguments =
      (arguments.flatMap items).flatMap (Item.kinds atomKind nameKind) := by
  induction arguments with
  | nil => rfl
  | cons e rest ih => rw [kindsAll, ih, kindsOf_eq, flatMap_cons, flatMap_append]

theorem symbols_eq (quantities : Term → Quantity) (e : Expression Term level) :
    e.symbols quantities = (items e).map (Item.symbol quantities) := by
  induction e with
  | leaf term => rfl
  | group inner ih => simp [symbols, items, Item.symbol, ih]
  | factor inner ih | product inner ih => exact ih
  | times left op _ right leftIh rightIh | plus left op _ right leftIh rightIh =>
    simp [symbols, items, Item.symbol, leftIh, rightIh]

theorem filterMap_items (e : Expression Term level) : (items e).filterMap Item.term? = e.leaves := by
  induction e with
  | leaf term => rfl
  | group inner ih =>
    rw [items, filterMap_cons_none rfl, filterMap_append, ih]
    exact append_nil _
  | factor inner ih | product inner ih => exact ih
  | times left op _ right leftIh rightIh | plus left op _ right leftIh rightIh =>
    rw [items, filterMap_append, leftIh, filterMap_cons_none rfl, rightIh]
    rfl

theorem filterMap_flatMap_items (arguments : List (Expression Term .sum)) :
    (arguments.flatMap items).filterMap Item.term? = arguments.flatMap leaves := by
  rw [filterMap_flatMap]
  exact flatMap_congr fun e _ => filterMap_items e

theorem subtermsOf_eq (e : Expression Term level) : subtermsOf e = e.leaves.flatMap subterms := by
  induction e with
  | leaf term => simp [subtermsOf, leaves]
  | group inner ih | factor inner ih | product inner ih =>
    simp only [subtermsOf, leaves, ih]
  | times left op _ right leftIh rightIh | plus left op _ right leftIh rightIh =>
    simp [subtermsOf, leaves, leftIh, rightIh]

theorem subtermsAll_eq (arguments : List (Expression Term .sum)) :
    subtermsAll arguments = (arguments.flatMap leaves).flatMap subterms := by
  induction arguments with
  | nil => rfl
  | cons e rest ih => rw [subtermsAll, ih, subtermsOf_eq, flatMap_cons, flatMap_append]

end Items

end Term

theorem balanced_bound (atom : Atom) : Balanced [atom.bound] := by
  cases atom <;> exact balanced_singleton rfl

theorem balanced_arith (op : ArithOp) : Balanced [.arith op] :=
  balanced_singleton rfl

namespace Term

mutual

theorem balanced : (term : Term) → Balanced (term.kinds bound .routine)
  | .atom operand => by
    rw [kinds]
    exact balanced_bound operand
  | .call name arguments => by
    rw [kinds]
    exact (@balanced_singleton (.routine name) rfl).append (balancedAll arguments).parenthesized

theorem balancedAll : (arguments : List (Expression Term .sum)) →
    Balanced (kindsAll bound .routine arguments)
  | [] => by
    rw [kindsAll]
    exact balanced_nil
  | e :: rest => by
    rw [kindsAll]
    exact (balancedOf e).append (balancedAll rest)

theorem balancedOf : {level : Level} → (e : Expression Term level) →
    Balanced (kindsOf bound .routine e)
  | _, .leaf term => by
    rw [kindsOf]
    exact balanced term
  | _, .group inner => by
    rw [kindsOf]
    exact (balancedOf inner).parenthesized
  | _, .factor inner | _, .product inner => by
    rw [kindsOf]
    exact balancedOf inner
  | _, .times left op _ right | _, .plus left op _ right => by
    rw [kindsOf]
    exact (balancedOf left).append ((balanced_arith op).append (balancedOf right))

end

end Term

end ScriptPack
