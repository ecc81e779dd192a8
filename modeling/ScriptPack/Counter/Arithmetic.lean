import ScriptPack.Counter.Scoreboard
import ScriptPack.Token.View

/-!
Arithmetic on counters. Counters of simple kinds are combined by one operation of the game. A
decimal is first brought into one score, its value times a power of ten, and split into its two
scores afterwards; records are combined field by field.
-/

namespace ScriptPack

open CounterM Number

namespace Counter

def combine (target left : String) (op : Option ArithOp) (right : String) : Command :=
  .operation target left (match op with | some op => .arith op | none => .copy) target right

def incompatible (left right : CounterKind) : CounterError :=
  .incompatible left.render right.render

def constant (target : String) (value : Int32) : CounterM (String × List Command) := do
  let counter ← temporary .int
  return (counter.name, [.scoreSet target counter.name value])

/-- A temporary score that holds a counter times ten to the `precision`; `unit` is a score that
holds that power. Decimals of another precision are scaled, and further places cut off. -/
def toFixed (target : String) (counter : Counter) (precision : Nat) (unit : String) :
    CounterM (String × List Command) := do
  let fixed := (← temporary .int).name
  match counter.kind with
  | .decimal own =>
      let part := (← temporary .int).name
      let load := [combine target fixed none counter.whole, combine target fixed (some .mul) unit,
        combine target part none counter.part]
      let scale ←
        if own == precision then pure []
        else if own < precision then do
          let (scale, commands) ← constant target (tenPower (precision - own))
          pure (commands ++ [combine target part (some .mul) scale])
        else do
          let (scale, commands) ← constant target (tenPower (own - precision))
          pure (commands ++ [combine target part (some .div) scale])
      return (fixed, load ++ scale ++ [combine target fixed (some .add) part])
  | _ =>
      return (fixed,
        [combine target fixed none counter.name, combine target fixed (some .mul) unit])

def fixedPoint (target : String) (counter : Counter) (precision : Nat) :
    CounterM (String × List Command) := do
  let (unit, unitCommands) ← constant target (tenPower precision)
  let (fixed, commands) ← toFixed target counter precision unit
  return (fixed, unitCommands ++ commands)

def fixedOperation (target fixed unit : String) (op : Option ArithOp) (right : Counter)
    (load : CounterM (String × List Command)) : CounterM (List Command) := do
  let rightIsDecimal := match right.kind with
    | .decimal _ => true
    | _ => false
  match op with
  | none => do
      let (other, commands) ← load
      return commands ++ [combine target fixed none other]
  | some .mul =>
      if rightIsDecimal then do
        let (other, commands) ← load
        return commands ++ [combine target fixed (some .mul) other,
          combine target fixed (some .div) unit]
      else return [combine target fixed (some .mul) right.name]
  | some .div =>
      if rightIsDecimal then do
        let (other, commands) ← load
        return commands ++ [combine target fixed (some .mul) unit,
          combine target fixed (some .div) other]
      else return [combine target fixed (some .div) right.name]
  | some op => do
      let (other, commands) ← load
      return commands ++ [combine target fixed (some op) other]

def assignFixed (target : String) (left : Counter) (precision : Nat) (op : Option ArithOp)
    (right : Counter) : CounterM (List Command) := do
  let (unit, unitCommands) ← constant target (tenPower precision)
  let (fixed, loadCommands) ← toFixed target left precision unit
  let operation ← fixedOperation target fixed unit op right (toFixed target right precision unit)
  return unitCommands ++ loadCommands ++ operation ++
    [combine target left.whole none fixed, combine target left.whole (some .div) unit,
      combine target left.part none fixed, combine target left.part (some .mod) unit]

/-- `left op= right` for a decimal. Setting it to an integer, and adding or subtracting one,
touches the whole part only. -/
def assignDecimal (target : String) (left : Counter) (precision : Nat) (op : Option ArithOp)
    (right : Counter) : CounterM (List Command) :=
  match right.kind, op with
  | .decimal _, op => assignFixed target left precision op right
  | _, none =>
      return [combine target left.whole none right.name, .scoreSet target left.part 0]
  | _, some .add => return [combine target left.whole (some .add) right.name]
  | _, some .sub => return [combine target left.whole (some .sub) right.name]
  | _, op => assignFixed target left precision op right

mutual
/-- `left = right` or `left op= right` for counters given by name and kind. An integer takes the
whole part of a decimal. -/
def assignKinds (target : String) (op : Option ArithOp) (left : String) (leftKind : CounterKind)
    (right : Counter) : CounterM (List Command) :=
  match leftKind, right.kind with
  | .record leftName leftFields, .record rightName rightFields =>
      if leftName = rightName ∧ leftFields = rightFields then
        assignFields target op left leftFields right.fields
      else throw (incompatible (.record leftName leftFields) right.kind)
  | .record leftName leftFields, _ =>
      throw (incompatible (.record leftName leftFields) right.kind)
  | leftKind, .record _ _ => throw (incompatible leftKind right.kind)
  | .decimal precision, _ => assignDecimal target ⟨left, .decimal precision⟩ precision op right
  | _, .decimal _ => return [combine target left op right.whole]
  | _, _ => return [combine target left op right.name]

def assignFields (target : String) (op : Option ArithOp) (left : String) :
    List (String × String × CounterKind) → List Counter → CounterM (List Command)
  | (_, key, kind) :: rest, right :: rights => do
      let commands ← assignKinds target op (left ++ ":" ++ key) kind right
      return commands ++ (← assignFields target op left rest rights)
  | _, _ => return []
end

def assign (target : String) (left : Counter) (op : Option ArithOp) (right : Counter) :
    CounterM (List Command) :=
  assignKinds target op left.name left.kind right

def amount : Value → Int32
  | .int value => value
  | .float value => value.roundInt32
  | .bool value => if value then 1 else 0
  | _ => 0

def change (target objective : String) (amount : Int32) : Command :=
  if amount < 0 then .scoreRemove target objective (-amount)
  else .scoreAdd target objective amount

/-- `left = literal`, or `left op= literal`. Sums with simple counters need no temporary, and
the least integer cannot be used in them, since it has no opposite; for everything else the literal is
held in a temporary of the counter's own kind. -/
def assignLiteral (target : String) (left : Counter) (op : Option ArithOp) (literal : Value) :
    CounterM (List Command) :=
  match op with
  | none => return left.setLiteral target literal
  | some op =>
      let isRecord := match left.kind with
        | .record _ _ => true
        | _ => false
      if isRecord || (CounterKind.ofLiteral? literal).isNone then
        throw (.incompatibleLiteral literal.kindName left.kind.render)
      else if left.kind.isIntegerLike ∧ (op = .add ∨ op = .sub) ∧ amount literal = Int32.minValue then
        throw .overflow
      else if op = .add ∧ left.kind.isIntegerLike then
        return [change target left.name (amount literal)]
      else if op = .sub ∧ left.kind.isIntegerLike then
        return [change target left.name (-amount literal)]
      else do
        let temporary ← temporary left.kind
        let commands ← assign target left (some op) temporary
        return temporary.setLiteral target literal ++ commands

def assignOperand (target : String) (left : Counter) (operand : Operand) :
    CounterM (List Command) :=
  match operand with
  | .literal literal => assignLiteral target left none literal
  | .counter accessor => do assign target left none (← get accessor)

end Counter

end ScriptPack
