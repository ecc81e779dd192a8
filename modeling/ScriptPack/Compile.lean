import ScriptPack.Build.Run
import ScriptPack.Pack.Writer

/-!
Compiling scripts. A script is read into statements, which are run to give a pack; the pack may
then be written below a directory.
-/

namespace ScriptPack

structure Options where
  debug : Bool := false
  /-- The name of the root file, when it is not that of the script. -/
  packName : Option String := none
  /-- Directories to look for included files in, after that of the script. -/
  includeDirectories : List String := []
  /-- Variables that are set before the first statement. -/
  definitions : List (String × String) := []
  /-- Features that are enabled before the first statement. -/
  features : List String := []
  /-- The value of the variable `minecraftversion`. -/
  gameVersion : Option String := none

structure Stats where
  /-- The bytes of the script. -/
  sourceSize : Nat := 0
  /-- The bytes of everything written. -/
  outputSize : Nat := 0
  statementCount : Nat := 0
  fileCount : Nat := 0
  commandCount : Nat := 0
  assetCount : Nat := 0
deriving DecidableEq, Repr

def isIdentifier (name : String) : Bool :=
  match name.toList with
  | [] => false
  | first :: rest =>
      (first.isAlpha || first == '_') &&
        rest.all fun c => c.isAlphanum || c == '_' || c == ':' || c == '.'

def readValues (text : String) : List Value :=
  let literal? : Token → Option Value := fun token =>
    match token.kind with
    | .literal value => some value
    | _ => none
  match Token.readAll text with
  | .error _ => [.text text]
  | .ok tokens =>
      match tokens.mapM literal? with
      | some (value :: values) => value :: values
      | _ => [.text text]

def packNameFor (path : String) : String :=
  match (Path.stem? path).map Text.lower with
  | some stem => if stem.isEmpty then "main" else stem
  | none => "main"

def baseDirectoryFor (path : String) : String :=
  match Path.parent? path with
  | some parent => if parent.isEmpty then "." else parent
  | none => "."

def BuildM.setGivenVariable (given : String × String) : BuildM Unit := do
  let (name, text) := given
  if !isIdentifier name then throw (.setting (.invalidVariableName name))
  setVariable name (readValues text)

def BuildM.enableNamedFeature (name : String) : BuildM Unit := do
  match Feature.find? name with
  | some feature => modify (·.enableFeature feature)
  | none => throw (.setting (.unknownFeature name))

def BuildM.applyOptions (options : Options) : BuildM Unit := do
  match options.gameVersion with
  | some version => setVariable "minecraftversion" [.text version]
  | none => pure ()
  options.definitions.forM setGivenVariable
  options.features.forM enableNamedFeature

def BuildM.runScript (options : Options) (statements : List Statement) : BuildM Unit := do
  applyOptions options
  runAll statements

def readScript (file source : String) : Except Error (List Statement) :=
  match Statement.readAll source with
  | .ok statements => .ok statements
  | .error (line, fault) => .error (.source file line fault)

def Stats.ofPack (source : String) (statements : List Statement) (pack : Pack) : Stats where
  sourceSize := source.utf8ByteSize
  statementCount := statements.length
  fileCount := pack.files.length
  commandCount := pack.commandCount
  assetCount := pack.assets.length

def Build.forScript (storage : FileTree) (options : Options) (file : String) : Build :=
  let build := Build.start {} (options.packName.getD (packNameFor file)) storage
  { build with
    baseDirectory := baseDirectoryFor file
    includeDirectories := options.includeDirectories }

/-- Compiles the text of a script. The session starts afresh; as it is at the end, it is the second
result. -/
def compile (storage : FileTree) (options : Options) (file source : String) :
    Except Error (Pack × Stats) × Session :=
  match readScript file source with
  | .error error => (.error error, {})
  | .ok statements =>
      match (BuildM.runScript options statements).run (.forScript storage options file) with
      | .error error build => (.error error, build.session)
      | .ok _ build =>
          let pack := build.finish
          (.ok (pack, .ofPack source statements pack), build.session)

def readSource (storage : FileTree) (path : String) : Except Error String :=
  (storage.readText path).mapError fun cause => .unreadable path cause.message

def compileFile (storage : FileTree) (options : Options) (path : String) :
    Except Error (Pack × Stats) := do
  (compile storage options path (← readSource storage path)).1

def writePack (storage : FileTree) (pack : Pack) (output : String) : Except Error Nat × FileTree :=
  match (pack.write output).run storage with
  | .ok paths storage => (.ok (Pack.writtenSize storage paths), storage)
  | .error cause storage => (.error (.io cause.message), storage)

def compileTo (storage : FileTree) (options : Options) (path output : String) :
    Except Error (Pack × Stats) × FileTree :=
  match compileFile storage options path with
  | .error error => (.error error, storage)
  | .ok (pack, stats) =>
      match writePack storage pack output with
      | (.error error, storage) => (.error error, storage)
      | (.ok outputSize, storage) => (.ok (pack, { stats with outputSize }), storage)

end ScriptPack
