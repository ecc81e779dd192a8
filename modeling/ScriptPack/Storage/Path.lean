import ScriptPack.Text.Case
import ScriptPack.Text.Cut

/-!
Paths, texts of names divided by slashes. Empty names and `.` behind another name mean nothing;
`..` goes to the directory above.
-/

namespace ScriptPack.Path

def isAbsolute (path : String) : Bool :=
  path.toList.head? == some '/'

def trimReversed : List Char → List Char
  | '/' :: rest => if rest.isEmpty then ['/'] else trimReversed rest
  | '.' :: '/' :: rest => trimReversed ('/' :: rest)
  | text => text

def cutLast (path : String) : List Char × List Char :=
  let text := trimReversed path.toList.reverse
  (text.takeWhile (· != '/'), text.dropWhile (· != '/'))

def parent? (path : String) : Option String :=
  let (name, before) := cutLast path
  if name.isEmpty then none else some (String.ofList (trimReversed before).reverse)

def fileName? (path : String) : Option (List Char) :=
  let name := (cutLast path).1.reverse
  if name.isEmpty || name == ['.'] || name == ['.', '.'] then none else some name

def stem? (path : String) : Option String :=
  (fileName? path).map fun name =>
    match Text.cutAtLast? '.' name with
    | some (stem, _) => String.ofList (if stem.isEmpty then name else stem)
    | none => String.ofList name

def extension? (path : String) : Option String := do
  let name ← fileName? path
  let (stem, extension) ← Text.cutAtLast? '.' name
  if stem.isEmpty then none else some (String.ofList extension)

def join (directory path : String) : String :=
  if isAbsolute path || directory.isEmpty then path
  else if directory.toList.getLast? == some '/' then directory ++ path
  else directory ++ "/" ++ path

def steps (path : String) : List String :=
  let names := Text.splitChars (· == '/') path.toList
  let kept := names.filter (!·.isEmpty)
  let last := if names.getLast? == some [] then [['.']] else []
  (kept ++ last).map String.ofList

end ScriptPack.Path
