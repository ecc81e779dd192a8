import ScriptPack.Variables.Basic

/-!
Substitution. In a text, `$name` stands for the values of the variable of that name, with blanks
between them; without such a variable it stays as it is.
-/

namespace ScriptPack.Variables

def isNameStart (c : Char) : Bool :=
  c.isAlpha || c == '_'

def isNamePart (c : Char) : Bool :=
  c.isAlphanum || c == '_'

def valueText (environment : Variables) (name : List Char) : List Char :=
  match environment.get? (String.ofList name) with
  | some values => (Text.joinWith " " (values.map Value.render)).toList
  | none => '$' :: name

def substituteChars (environment : Variables) (text : List Char) : List Char :=
  match text with
  | [] => []
  | c :: rest =>
      if c == '$' && rest.head?.any isNameStart then
        environment.valueText (rest.takeWhile isNamePart) ++
          environment.substituteChars (rest.dropWhile isNamePart)
      else c :: environment.substituteChars rest
termination_by text.length
decreasing_by
  · have : (rest.dropWhile isNamePart).length ≤ rest.length := (List.dropWhile_suffix _).length_le
    simp only [List.length_cons]
    omega
  · simp

def substitute (environment : Variables) (text : String) : String :=
  String.ofList (environment.substituteChars text.toList)

end ScriptPack.Variables
