import ScriptPack.Value.Basic

/-!
Kinds of counters. A counter of a simple kind is one score, a decimal is a whole part and a
fractional part, and a record has the scores of its fields.
-/

namespace ScriptPack

inductive CounterKind where
  | int
  /-- Ticks, shown as minutes and seconds. -/
  | time
  | decimal (precision : Nat)
  | bool
  /-- A record with its fields, each a name, a short key and a kind. -/
  | record (name : String) (fields : List (String × String × CounterKind))

namespace CounterKind

mutual
def decEq : (left right : CounterKind) → Decidable (left = right)
  | int, int => isTrue rfl
  | time, time => isTrue rfl
  | bool, bool => isTrue rfl
  | decimal left, decimal right =>
      if same : left = right then isTrue (by rw [same])
      else isFalse (by intro equal; injection equal; contradiction)
  | record leftName leftFields, record rightName rightFields =>
      if same : leftName = rightName then
        match decEqFields leftFields rightFields with
        | isTrue fields => isTrue (by rw [same, fields])
        | isFalse fields => isFalse (by intro equal; injection equal; contradiction)
      else isFalse (by intro equal; injection equal; contradiction)
  | int, time | int, bool | int, decimal _ | int, record _ _ => isFalse nofun
  | time, int | time, bool | time, decimal _ | time, record _ _ => isFalse nofun
  | bool, int | bool, time | bool, decimal _ | bool, record _ _ => isFalse nofun
  | decimal _, int | decimal _, time | decimal _, bool | decimal _, record _ _ => isFalse nofun
  | record _ _, int | record _ _, time | record _ _, bool | record _ _, decimal _ =>
      isFalse nofun

def decEqFields : (left right : List (String × String × CounterKind)) → Decidable (left = right)
  | [], [] => isTrue rfl
  | [], _ :: _ => isFalse nofun
  | _ :: _, [] => isFalse nofun
  | (leftName, leftKey, left) :: lefts, (rightName, rightKey, right) :: rights =>
      if names : leftName = rightName then
        if keys : leftKey = rightKey then
          match decEq left right, decEqFields lefts rights with
          | isTrue kinds, isTrue rests => isTrue (by rw [names, keys, kinds, rests])
          | isFalse kinds, _ => isFalse (by simp [kinds])
          | _, isFalse rests => isFalse (by simp [rests])
        else isFalse (by simp [keys])
      else isFalse (by simp [names])
end

instance : DecidableEq CounterKind := decEq

def greatestNameLength : Nat := 16

def maxNameLength : CounterKind → Nat
  | decimal _ => greatestNameLength - 2
  | record _ _ => greatestNameLength - 3
  | _ => greatestNameLength

def isIntegerLike : CounterKind → Bool
  | int | time | bool => true
  | decimal _ | record _ _ => false

def precision : CounterKind → Nat
  | decimal precision => precision
  | _ => 0

def ofLiteral? (literal : Value) : Option CounterKind :=
  match literal with
  | .int _ => some int
  | .float _ => some (decimal (max literal.precision 1))
  | .bool _ => some bool
  | _ => none

def render : CounterKind → String
  | int => "int"
  | time => "time"
  | decimal precision => "decimal " ++ toString precision
  | bool => "bool"
  | record name _ => name

end CounterKind

/-- A record's name and its fields, each a name, a short key and a kind. -/
structure RecordType where
  name : String
  fields : List (String × String × CounterKind) := []

def RecordType.keyAt (count : Nat) : List Char :=
  let letter := Char.ofNat ('a'.toNat + count % 26)
  if count < 26 then [letter] else keyAt (count / 26 - 1) ++ [letter]
termination_by count

def RecordType.addField (record : RecordType) (name : String) (kind : CounterKind) : RecordType :=
  let key := String.ofList (keyAt record.fields.length)
  { record with fields := record.fields ++ [(name, key, kind)] }

def RecordType.kind (record : RecordType) : CounterKind :=
  .record record.name record.fields

end ScriptPack
