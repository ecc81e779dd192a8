import ScriptPack.Storage.Path

/-!
The files below a working directory, as a value. Paths are followed name by name, as a file system
does it: every name but the last must be that of a directory, and nothing outside of the working
directory exists.
-/

namespace ScriptPack

inductive FileError where
  | notFound
  | alreadyExists
  | notDirectory
  | isDirectory
  | nameTooLong
  | notText
deriving DecidableEq, Repr

def FileError.message : FileError → String
  | notFound => "No such file or directory (os error 2)"
  | alreadyExists => "File exists (os error 17)"
  | notDirectory => "Not a directory (os error 20)"
  | isDirectory => "Is a directory (os error 21)"
  | nameTooLong => "File name too long (os error 36)"
  | notText => "stream did not contain valid UTF-8"

inductive FileEntry where
  | file (content : ByteArray)
  | directory

/-- The entries by the names that lead to them. -/
structure FileTree where
  entries : List (List String × FileEntry) := []

abbrev StorageM := EStateM FileError FileTree

namespace FileTree

def greatestName : Nat := 255

def get? (tree : FileTree) (place : List String) : Option FileEntry :=
  if place.isEmpty then some .directory else tree.entries.lookup place

def put (tree : FileTree) (place : List String) (entry : FileEntry) : FileTree :=
  ⟨(place, entry) :: tree.entries.filter fun other => !(place == other.1)⟩

def follow (tree : FileTree) (place : List String) : List String → Except FileError (List String)
  | [] => .ok place
  | name :: rest =>
      match tree.get? place with
      | none => .error .notFound
      | some (.file _) => .error .notDirectory
      | some .directory =>
          if name == "." then tree.follow place rest
          else if name == ".." then
            if place.isEmpty then .error .notFound else tree.follow place.dropLast rest
          else if greatestName < name.utf8ByteSize then .error .nameTooLong
          else tree.follow (place ++ [name]) rest

def locate (tree : FileTree) (path : String) : Except FileError (List String) :=
  if path.isEmpty || Path.isAbsolute path then .error .notFound
  else tree.follow [] (Path.steps path)

def entryAt (tree : FileTree) (path : String) : Except FileError FileEntry := do
  match tree.get? (← tree.locate path) with
  | some entry => .ok entry
  | none => .error .notFound

def isFile (tree : FileTree) (path : String) : Bool :=
  match tree.entryAt path with
  | .ok (.file _) => true
  | _ => false

def isDirectory (tree : FileTree) (path : String) : Bool :=
  match tree.entryAt path with
  | .ok .directory => true
  | _ => false

def readText (tree : FileTree) (path : String) : Except FileError String := do
  match ← tree.entryAt path with
  | .directory => .error .isDirectory
  | .file content =>
      match String.fromUTF8? content with
      | some text => .ok text
      | none => .error .notText

def size? (tree : FileTree) (path : String) : Option Nat :=
  match tree.entryAt path with
  | .ok (.file content) => some content.size
  | _ => none

def filesBelow (tree : FileTree) (path : String) (deep : Bool) : List String :=
  match tree.locate path with
  | .error _ => []
  | .ok place =>
      let found := tree.entries.filterMap fun (other, entry) =>
        match entry with
        | .directory => none
        | .file _ =>
            let below := other.drop place.length
            if other.take place.length == place && (deep || below.length == 1) then
              some (below.foldl Path.join path)
            else none
      found.mergeSort (fun left right => !(right < left))

end FileTree

namespace StorageM

def lift {α : Type} (look : FileTree → Except FileError α) : StorageM α := do
  match look (← get) with
  | .ok result => return result
  | .error error => throw error

def makeDirectory (path : String) : StorageM Unit := do
  let place ← lift (·.locate path)
  match (← get).get? place with
  | some _ => throw .alreadyExists
  | none => modify (·.put place .directory)

def unlessDirectory (path : String) (error : FileError) : StorageM Unit := do
  if (← get).isDirectory path then return else throw error

def makeDirectories : Nat → String → StorageM Unit
  | 0, _ => return
  | steps + 1, path =>
      if path.isEmpty then return
      else
        tryCatch (makeDirectory path) fun error =>
          if error = .notFound then
            match Path.parent? path with
            | none => throw .notFound
            | some parent => do
                makeDirectories steps parent
                tryCatch (makeDirectory path) (unlessDirectory path)
          else unlessDirectory path error

def writeFile (path : String) (content : ByteArray) : StorageM Unit := do
  let place ← lift (·.locate path)
  match (← get).get? place with
  | some .directory => throw .isDirectory
  | _ => modify (·.put place (.file content))

def storeFile (path : String) (content : ByteArray) : StorageM Unit := do
  match Path.parent? path with
  | some parent => makeDirectories path.length parent
  | none => pure ()
  writeFile path content

def writeText (path text : String) : StorageM Unit :=
  storeFile path text.toUTF8

end StorageM

end ScriptPack
