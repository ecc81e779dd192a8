import ScriptPack.Json.Basic
import ScriptPack.Number.Plain
import ScriptPack.Text.Cut

/-!
JSON text. The compact form has no blanks; the indented form puts each item and member on a line
of its own, two blanks deeper than its container. Only quotes, backslashes and control characters
are escaped.
-/

namespace ScriptPack.Json

/-- The shortest text of a double: positional from `1e-5` up to sixteen digits before the point,
always with a fraction, and scientific elsewhere. -/
def showDouble : Number.Double → String
  | .nan => "null"
  | .infinite _ => "null"
  | .finite negative mantissa exponent =>
      let sign := if negative then ['-'] else []
      if mantissa == 0 then String.ofList (sign ++ ['0', '.', '0'])
      else
        let decimal := Number.Decimal.shortest .double .toEven mantissa exponent
        let digits := Nat.toDigits 10 decimal.digits
        let point : Int := digits.length + decimal.exponent
        let text :=
          if 0 ≤ decimal.exponent && point ≤ 16 then Number.positional decimal ++ ['.', '0']
          else if -5 < point && point ≤ 16 then Number.positional decimal
          else
            let power := (toString (point - 1)).toList
            match digits with
            | [digit] => digit :: 'e' :: power
            | digit :: rest => digit :: '.' :: rest ++ 'e' :: power
            | [] => []
        String.ofList (sign ++ text)

def hexDigits (value : Nat) : List Char :=
  [Nat.digitChar (value / 16 % 16), Nat.digitChar (value % 16)]

def escape (c : Char) : List Char :=
  if c == '"' then ['\\', '"']
  else if c == '\\' then ['\\', '\\']
  else if c.toNat == 8 then ['\\', 'b']
  else if c.toNat == 9 then ['\\', 't']
  else if c.toNat == 10 then ['\\', 'n']
  else if c.toNat == 12 then ['\\', 'f']
  else if c.toNat == 13 then ['\\', 'r']
  else if c.toNat < 32 then ['\\', 'u', '0', '0'] ++ hexDigits c.toNat
  else [c]

def quote (text : String) : String :=
  String.ofList ('"' :: text.toList.flatMap escape ++ ['"'])

mutual
def compact : Json → String
  | .null => "null"
  | .bool value => if value then "true" else "false"
  | .integer value => toString value
  | .float value => showDouble value
  | .string text => quote text
  | .array items => "[" ++ Text.joinWith "," (compactItems items) ++ "]"
  | .object members => "\x7b" ++ Text.joinWith "," (compactMembers members) ++ "\x7d"

def compactItems : List Json → List String
  | [] => []
  | item :: rest => compact item :: compactItems rest

def compactMembers : List (String × Json) → List String
  | [] => []
  | (name, value) :: rest => (quote name ++ ":" ++ compact value) :: compactMembers rest
end

def layOut (start stop indent : String) (body : List String) : String :=
  if body.isEmpty then start ++ stop
  else
    let deeper := "\n" ++ indent ++ "  "
    start ++ deeper ++ Text.joinWith ("," ++ deeper) body ++ "\n" ++ indent ++ stop

mutual
def indented (indent : String) : Json → String
  | .array items => layOut "[" "]" indent (indentedItems (indent ++ "  ") items)
  | .object members => layOut "\x7b" "\x7d" indent (indentedMembers (indent ++ "  ") members)
  | other => compact other

def indentedItems (indent : String) : List Json → List String
  | [] => []
  | item :: rest => indented indent item :: indentedItems indent rest

def indentedMembers (indent : String) : List (String × Json) → List String
  | [] => []
  | (name, value) :: rest =>
      (quote name ++ ": " ++ indented indent value) :: indentedMembers indent rest
end

def pretty (document : Json) : String :=
  indented "" document

end ScriptPack.Json
