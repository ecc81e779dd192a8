import ScriptPack.Value.Basic

/-!
Arithmetic on values. Integers wrap around at 32 bits and divide toward zero. Texts can be
appended to, shortened and repeated; ranges are shifted bound by bound.
-/

namespace ScriptPack

namespace ArithOp

def onInt32 : ArithOp → Int32 → Int32 → Except ValueError Int32
  | add, left, right => .ok (left + right)
  | sub, left, right => .ok (left - right)
  | mul, left, right => .ok (left * right)
  | div, left, right => if right == 0 then .error .divideByZero else .ok (left / right)
  | mod, left, right => if right == 0 then .error .divideByZero else .ok (left % right)

def onSingle : ArithOp → Number.Single → Number.Single → Except ValueError Number.Single
  | add, left, right => .ok (left.add right)
  | sub, left, right => .ok (left.sub right)
  | mul, left, right => .ok (left.mul right)
  | div, left, right => if right.isZero then .error .divideByZero else .ok (left.div right)
  | mod, left, right => if right.isZero then .error .divideByZero else .ok (left.rem right)

def onBounds (op : ArithOp) : Option Int32 → Option Int32 → Except ValueError (Option Int32)
  | some left, some right => (op.onInt32 left right).map some
  | _, _ => .ok none

def onBound (op : ArithOp) (right : Int32) : Option Int32 → Except ValueError (Option Int32)
  | some left => (op.onInt32 left right).map some
  | none => .ok none

end ArithOp

namespace Value

def repeated (text : List Char) (count : Nat) : List Char :=
  match text with
  | [] => []
  | _ => (List.replicate (count / text.length) text).flatten ++ text.take (count % text.length)

/-- Text operations: append anything, remove an ending or a number of characters, and scale the
length by a factor. -/
def applyText (value : String) (op : ArithOp) (other : Value) : Except ValueError Value :=
  let chars := value.toList
  let length : Number.Single := .ofInt chars.length
  match op, other with
  | .add, other => .ok (text (value ++ other.render))
  | .sub, .text ending =>
      .ok (text (match Text.beforeEnd? ending.toList chars with
        | some kept => String.ofList kept
        | none => value))
  | .sub, .int count => .ok (text (String.ofList (chars.take (chars.length - count.toInt.toNat))))
  | .mul, other =>
      match other.number? with
      | some factor =>
          .ok (text (String.ofList (repeated chars ((length.mul factor).toCount Number.Binary.nearest))))
      | none => .error .invalidOperation
  | .div, other =>
      match other.number? with
      | some divisor =>
          if divisor.isZero then .error .divideByZero
          else
            let kept := (length.div divisor).toCount Number.Binary.truncate
            .ok (text (String.ofList (chars.take kept)))
      | none => .error .invalidOperation
  | _, _ => .error .invalidOperation

def apply (op : ArithOp) (left right : Value) : Except ValueError Value :=
  match left, right with
  | int left, int right => (op.onInt32 left right).map int
  | int left, float right => (op.onSingle (.ofInt32 left) right).map float
  | float left, int right => (op.onSingle left (.ofInt32 right)).map float
  | float left, float right => (op.onSingle left right).map float
  | text left, right => applyText left op right
  | coord left, coord right =>
      (op.onSingle left.value right.value).map fun value => coord (left.withValue value)
  | coord left, right =>
      match right.number? with
      | some right => (op.onSingle left.value right).map fun value => coord (left.withValue value)
      | none => .error .invalidOperation
  | range left, range right => do
      let min ← op.onBounds left.min right.min
      let max ← op.onBounds left.max right.max
      return range ⟨min, max, left.inverted⟩
  | range left, right =>
      match right.number? with
      | some right => do
          let min ← op.onBound right.roundInt32 left.min
          let max ← op.onBound right.roundInt32 left.max
          return range ⟨min, max, left.inverted⟩
      | none => .error .invalidOperation
  | _, _ => .error .invalidOperation

def negate : Value → Except ValueError Value
  | int value => .ok (int (-value))
  | float value => .ok (float value.neg)
  | coord value => .ok (coord (value.withValue value.value.neg))
  | range value => .ok (range ⟨value.max.map (-·), value.min.map (-·), value.inverted⟩)
  | _ => .error .invalidOperation

end Value

end ScriptPack
