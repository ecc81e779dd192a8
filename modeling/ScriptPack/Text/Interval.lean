/-!
Classes of characters given by ascending lists of code point intervals. The interval tables of
this folder are ascending and disjoint, so a search may stop at the first interval that starts
above the character.
-/

namespace ScriptPack.Text

/-- The intervals behind `point`, given by the gap before each and its length, from its first
character to its last, in turn. -/
def intervalsFrom (point : Nat) : List Nat → List (Nat × Nat)
  | gap :: length :: rest =>
      (point + gap, point + gap + length) :: intervalsFrom (point + gap + length) rest
  | _ => []

def inIntervals (point : Nat) : List (Nat × Nat) → Bool
  | [] => false
  | (first, last) :: rest =>
      if point < first then false
      else if point ≤ last then true
      else inIntervals point rest

end ScriptPack.Text
