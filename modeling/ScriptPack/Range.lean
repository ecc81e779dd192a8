import ScriptPack.Number.Integer

/-!
Ranges of scores: `5`, `1..`, `..4`, `1..5`, and each of them after `!` for the scores outside.
-/

namespace ScriptPack

open Number

structure Range where
  min : Option Int32
  max : Option Int32
  inverted : Bool := false
deriving DecidableEq, Repr

namespace Range

def exactly (value : Int32) : Range := ⟨some value, some value, false⟩

def atLeast (value : Int32) : Range := ⟨some value, none, false⟩

def atMost (value : Int32) : Range := ⟨none, some value, false⟩

def invert (range : Range) : Range :=
  { range with inverted := !range.inverted }

def isSingle (range : Range) : Bool :=
  range.min.isSome && range.min == range.max

def admits (range : Range) (score : Int32) : Bool :=
  range.min.all (· ≤ score) && range.max.all (score ≤ ·)

def contains (range : Range) (score : Int32) : Bool :=
  range.admits score != range.inverted

def cutAtDots? : List Char → Option (List Char × List Char)
  | '.' :: '.' :: rest => some ([], rest)
  | c :: rest => (cutAtDots? rest).map fun (before, after) => (c :: before, after)
  | [] => none

def readBound? (text : List Char) : Option (Option Int32) :=
  if text.isEmpty then some none else (readInt32? text).map some

def readBounds? (text : List Char) : Option Range :=
  match cutAtDots? text with
  | some (min, max) => do
      let min ← readBound? min
      let max ← readBound? max
      if min.isNone && max.isNone then none else some ⟨min, max, false⟩
  | none => (readInt32? text).map exactly

def readChars? : List Char → Option Range
  | '!' :: rest => (readBounds? rest).map invert
  | text => readBounds? text

def read? (text : String) : Option Range :=
  readChars? text.toList

def render (range : Range) : String :=
  let body := match range.min, range.max with
    | some min, some max =>
        if min == max then showInt32 min
        else showInt32 min ++ ".." ++ showInt32 max
    | some min, none => showInt32 min ++ ".."
    | none, some max => ".." ++ showInt32 max
    | none, none => ".."
  if range.inverted then "!" ++ body else body

end Range

end ScriptPack
