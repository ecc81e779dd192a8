import ScriptPack.Value.Basic

/-!
Comparisons of values. Texts are equal by content and ordered by length; a range compares with a
number by containment and by its bounds.
-/

namespace ScriptPack.Value

def decideOrder (op : CompareOp) (unordered : ValueError) : Option Ordering → Except ValueError Bool
  | some order => .ok (op.holds order)
  | none => .error unordered

def decideEqual (op : CompareOp) (unordered : ValueError) (equal : Bool) : Except ValueError Bool :=
  match op with
  | .eq => .ok equal
  | .ne => .ok !equal
  | _ => .error unordered

def compareRange (op : CompareOp) (range : Range) (number : Number.Single) : Bool :=
  match op with
  | .eq => range.contains number.roundInt32
  | .ne => !range.contains number.roundInt32
  | .lt => range.max.any fun bound => (Number.Binary.ofInt32 bound).less number
  | .le => range.max.any fun bound => (Number.Binary.ofInt32 bound).lessEq number
  | .gt => range.min.any fun bound => number.less (.ofInt32 bound)
  | .ge => range.min.any fun bound => number.lessEq (.ofInt32 bound)

def compare (op : CompareOp) (left right : Value) : Except ValueError Bool :=
  let unordered := ValueError.incomparable left.kindName right.kindName
  match left, right with
  | int left, int right => .ok (op.holds (Ord.compare left right))
  | int left, float right => decideOrder op unordered (Number.Binary.compare? (.ofInt32 left) right)
  | float left, int right => decideOrder op unordered (left.compare? (.ofInt32 right))
  | float left, float right => decideOrder op unordered (left.compare? right)
  | text left, text right =>
      match op with
      | .eq => .ok (left == right)
      | .ne => .ok (left != right)
      | _ => .ok (op.holds (Ord.compare left.length right.length))
  | bool left, bool right => decideEqual op unordered (left == right)
  | coord left, coord right => decideOrder op unordered (left.value.compare? right.value)
  | coord left, right =>
      match right.number? with
      | some right => decideOrder op unordered (left.value.compare? right)
      | none => .error unordered
  | range left, right =>
      match right.number? with
      | some right => .ok (compareRange op left right)
      | none => .error unordered
  | selector left, selector right => decideEqual op unordered (left.equals right)
  | json left, json right => decideEqual op unordered (left.equals right)
  | _, _ => .error unordered

end ScriptPack.Value
