import ScriptPack.Number.Binary

/-!
Numbers with a fixed number of decimal places.
-/

namespace ScriptPack.Number.Binary

variable {format : BinaryFormat}

def showTenths : Binary format → String
  | nan => "NaN"
  | infinite negative => if negative then "-inf" else "inf"
  | finite negative mantissa exponent =>
      let tenths :=
        roundQuotient (10 * mantissa * twoTo exponent.toNat) (twoTo (-exponent).toNat)
      let sign := if negative then "-" else ""
      sign ++ toString (tenths / 10) ++ "." ++ toString (tenths % 10)

end ScriptPack.Number.Binary
