/-!
Cutting texts into pieces and joining them again.
-/

namespace ScriptPack.Text

def joinWith (separator : String) : List String → String
  | [] => ""
  | first :: rest => rest.foldl (fun text next => text ++ separator ++ next) first

def cutAt? (mark : Char) : List Char → Option (List Char × List Char)
  | [] => none
  | c :: rest =>
      if c == mark then some ([], rest)
      else (cutAt? mark rest).map fun (before, after) => (c :: before, after)

def cutAtLast? (mark : Char) (text : List Char) : Option (List Char × List Char) :=
  (cutAt? mark text.reverse).map fun (after, before) => (before.reverse, after.reverse)

def afterStart? : List Char → List Char → Option (List Char)
  | [], text => some text
  | _ :: _, [] => none
  | s :: start, c :: text => if s == c then afterStart? start text else none

def beforeEnd? (ending text : List Char) : Option (List Char) :=
  (afterStart? ending.reverse text.reverse).map List.reverse

def dropStart (mark : Char) (text : List Char) : List Char :=
  text.dropWhile (· == mark)

def dropEnd (mark : Char) (text : List Char) : List Char :=
  (text.reverse.dropWhile (· == mark)).reverse

def padRight (width : Nat) (text : String) : String :=
  text ++ String.ofList (List.replicate (width - text.length) ' ')

def padLeft (width : Nat) (text : String) : String :=
  String.ofList (List.replicate (width - text.length) ' ') ++ text

end ScriptPack.Text
