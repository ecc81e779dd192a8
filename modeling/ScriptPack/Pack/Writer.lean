import ScriptPack.Pack.Basic
import ScriptPack.Storage.FileTree

/-!
Writing packs. Command files go below `functions`, assets below the folders of their kinds.
-/

namespace ScriptPack.Pack

def filePath (output : String) (file : CommandFile) : String :=
  Path.join (Path.join output "functions") (file.path ++ ".mcfunction")

def assetPath (output : String) (asset : Asset) : String :=
  Path.join output asset.path

def write (pack : Pack) (output : String) : StorageM (List String) := do
  for file in pack.files do
    StorageM.writeText (filePath output file) file.content
  for asset in pack.assets do
    StorageM.writeText (assetPath output asset) asset.content.pretty
  return pack.files.map (filePath output) ++ pack.assets.map (assetPath output)

def writtenSize (tree : FileTree) (paths : List String) : Nat :=
  (paths.filterMap tree.size?).foldl (fun total size => total + size) 0

end ScriptPack.Pack
