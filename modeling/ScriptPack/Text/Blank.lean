import ScriptPack.Text.Interval

/-!
Blank characters, the White_Space property, and the removal of blanks around a text.
-/

namespace ScriptPack.Text

def blankIntervals : List (Nat × Nat) := [
  (9,13),(32,32),(133,133),(160,160),(5760,5760),(8192,8202),(8232,8233),(8239,8239),(8287,8287),
  (12288,12288)]

def isBlank (c : Char) : Bool :=
  inIntervals c.toNat blankIntervals

def dropWhileEnd (drop : Char → Bool) (text : List Char) : List Char :=
  (text.reverse.dropWhile drop).reverse

def trimChars (text : List Char) : List Char :=
  dropWhileEnd isBlank (text.dropWhile isBlank)

def trim (text : String) : String :=
  String.ofList (trimChars text.toList)

end ScriptPack.Text
