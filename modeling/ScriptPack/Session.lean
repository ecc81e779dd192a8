import ScriptPack.Feature
import ScriptPack.Json.Basic
import ScriptPack.Statement.Basic
import ScriptPack.Table

/-!
What is remembered through a compilation and, until a reset, from one to the next: the numbers of
generated names, which shared files and features there are, and the files read so far.
-/

namespace ScriptPack

structure Session where
  /-- How many names have been generated from each word. -/
  generated : Table String Nat := .empty
  sharedFiles : List String := []
  features : List Feature := []
  statements : Table String (List Statement) := .empty
  documents : Table String Json := .empty
  scattered : Nat := 0

namespace Session

def generateName (session : Session) (word : String) : String × Session :=
  let count := (session.generated.get? word).getD 0
  (word ++ toString count, { session with generated := session.generated.insert word (count + 1) })

def reserveFile (session : Session) (name : String) : Bool × Session :=
  if session.sharedFiles.contains name then (false, session)
  else (true, { session with sharedFiles := name :: session.sharedFiles })

def hasFeature (session : Session) (feature : Feature) : Bool :=
  session.features.contains feature

def enableFeature (session : Session) (feature : Feature) : Bool × Session :=
  if session.hasFeature feature then (false, session)
  else (true, { session with features := feature :: session.features })

def cacheStatements (session : Session) (path : String) (statements : List Statement) :
    List Statement × Session :=
  match session.statements.get? path with
  | some kept => (kept, session)
  | none =>
      (statements, { session with statements := session.statements.insert path statements })

def cacheDocument (session : Session) (path : String) (document : Json) : Json × Session :=
  match session.documents.get? path with
  | some kept => (kept, session)
  | none =>
      (document, { session with documents := session.documents.insert path document })

def nextScatter (session : Session) : Nat × Session :=
  (session.scattered, { session with scattered := session.scattered + 1 })

end Session

end ScriptPack
