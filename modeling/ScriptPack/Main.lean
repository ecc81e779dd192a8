import ScriptPack.CommandLine.Run

/-!
The program. It works on the files below the working directory: they are read, the command line is
run on them as a value, and what has changed is written back.
-/

namespace ScriptPack.Program

open CommandLine

def greatestDepth : Nat := 32

def loadEntries : Nat → List String → Array IO.FS.DirEntry → IO (List (List String × FileEntry))
  | 0, _, _ => return []
  | depth + 1, place, entries => do
      let mut found : List (List String × FileEntry) := []
      for entry in entries do
        let inner := place ++ [entry.fileName]
        if ← entry.path.isDir then
          found := (inner, .directory) :: found
          found := (← loadEntries depth inner (← entry.path.readDir)) ++ found
        else
          found := (inner, .file (← IO.FS.readBinFile entry.path)) :: found
      return found

def load : IO FileTree := do
  return ⟨← loadEntries greatestDepth [] (← (← IO.currentDir).readDir)⟩

def store (before after : FileTree) : IO Unit := do
  for (place, entry) in after.entries.reverse do
    let path := Text.joinWith "/" place
    match entry, before.get? place with
    | .directory, _ => IO.FS.createDirAll path
    | .file content, some (.file old) =>
        if content.toList != old.toList then IO.FS.writeBinFile path content
    | .file content, _ => IO.FS.writeBinFile path content

def perform (run : FileTree → Outcome) : IO UInt32 := do
  let start ← IO.monoMsNow
  let before ← load
  let outcome := run before
  store before outcome.storage
  let milliseconds := toString ((← IO.monoMsNow) - start)
  for line in outcome.output do
    IO.println (line.render milliseconds)
  for line in outcome.errors do
    IO.eprintln line
  return UInt32.ofNat outcome.status

/-- Compiles a script again whenever its text has changed from the one seen last. -/
partial def watch (request : CompileRequest) (options : Options) (output seen : String) :
    IO Unit := do
  IO.sleep 500
  let text ← IO.FS.readFile request.input
  if text != seen then
    discard (perform fun storage => compileAgain storage request options output)
  watch request options output text

end ScriptPack.Program

open ScriptPack in
def main (words : List String) : IO UInt32 := do
  let status ← Program.perform fun storage => CommandLine.run storage words
  match CommandLine.watched? (← Program.load) words with
  | some (request, options, output) =>
      Program.watch request options output (← IO.FS.readFile request.input)
  | none => pure ()
  return status
