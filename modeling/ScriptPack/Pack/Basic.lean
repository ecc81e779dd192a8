import ScriptPack.Command.Line
import ScriptPack.Json.Writer
import ScriptPack.Storage.Path

/-!
What a compilation produces: files of commands, assets, and the messages that the script logged.
-/

namespace ScriptPack

structure CommandFile where
  name : String
  folder : Option String := none
  lines : List Line := []
  /-- The number of the routine whose body this is. -/
  routine : Option Nat := none

namespace CommandFile

def generatedFolder : String := "compiler"

def generated (name : String) (lines : List Line) : CommandFile :=
  { name, folder := some generatedFolder, lines }

def path (file : CommandFile) : String :=
  match file.folder with
  | some folder => folder ++ "/" ++ file.name
  | none => file.name

def call (file : CommandFile) : Command :=
  .call file.path

def append (file : CommandFile) (lines : List Line) : CommandFile :=
  { file with lines := file.lines ++ lines }

def content (file : CommandFile) : String :=
  Text.joinWith "\n" (file.lines.map Line.render) ++ "\n"

end CommandFile

inductive AssetKind where
  | entity
  | blocks
deriving DecidableEq, Repr

/-- A further file, a JSON document. -/
structure Asset where
  kind : AssetKind
  name : String
  content : Json

def Asset.path (asset : Asset) : String :=
  let folder := match asset.kind with
    | .entity => "entities"
    | .blocks => "structures"
  Path.join folder (asset.name ++ ".json")

structure Pack where
  name : String
  files : List CommandFile := []
  assets : List Asset := []
  log : List String := []

def Pack.addFile (pack : Pack) (file : CommandFile) : Pack :=
  { pack with files := pack.files ++ [file] }

def Pack.addAsset (pack : Pack) (asset : Asset) : Pack :=
  if pack.assets.any fun other => other.kind == asset.kind && other.name == asset.name then pack
  else { pack with assets := pack.assets ++ [asset] }

def Pack.commandCount (pack : Pack) : Nat :=
  pack.files.foldl (fun count file => count + file.lines.length) 0

end ScriptPack
