import ScriptPack.Text.Case

/-!
Features that a script switches on before it uses them.
-/

namespace ScriptPack

inductive Feature where
  | nulls
  | gametest
  | exploders
  | uninstall
deriving DecidableEq, Repr

namespace Feature

def all : List Feature := [nulls, gametest, exploders, uninstall]

def name : Feature → String
  | nulls => "nulls"
  | gametest => "gametest"
  | exploders => "exploders"
  | uninstall => "uninstall"

def label (feature : Feature) : String :=
  Text.upper feature.name

def find? (name : String) : Option Feature :=
  all.find? (·.name == Text.lower name)

end Feature

end ScriptPack
