import ScriptPack.Build.Stack

/-!
Writing commands. A command is written under the frames that wait for it. Several commands under
frames go into a file of their own, which is called under the frames once.
-/

namespace ScriptPack

namespace Build

def write (build : Build) (lines : List Line) : Build :=
  { build with file := build.file.append lines }

def emitKeeping (build : Build) (line : Line) : Build :=
  build.write [line.within build.frames]

def emitLine (build : Build) (line : Line) : Build :=
  { build.emitKeeping line with frames := [] }

def emit (build : Build) (command : Command) : Build :=
  build.emitLine (.plain command)

def generatedFile (build : Build) (word : String) (lines : List Line) : CommandFile × Build :=
  let (name, session) := build.session.generateName word
  (.generated name lines, { build with session })

def factorOut (build : Build) (word : String) (lines : List Line) : Line × Build :=
  let (file, build) := build.generatedFile word lines
  (.plain file.call, { build with pack := build.pack.addFile file })

/-- Writes lines where the frames are used up. With `inPlace`, or without frames, every line is
written here; otherwise more than one go into a generated file. -/
def emitBatch (build : Build) (lines : List Line) (word : String) (inPlace : Bool) : Build :=
  match lines with
  | [] => build
  | [line] => build.emitLine line
  | lines =>
      if inPlace || build.frames.isEmpty then
        { build.write (lines.map (·.within build.frames)) with frames := [] }
      else
        let (call, build) := build.factorOut word lines
        build.emitLine call

def emitBatchKeeping (build : Build) (lines : List Line) (word : String) : Build :=
  match lines with
  | [] => build
  | [line] => build.emitKeeping line
  | lines =>
      if build.frames.isEmpty then build.write lines
      else
        let (call, build) := build.factorOut word lines
        build.emitKeeping call

def emitAligned (build : Build) (commands : List Command) (word : String) : Build :=
  build.emitBatchKeeping (commands.map fun command => ⟨build.active.alignment, command⟩) word

def sharedFile (build : Build) (name : String) (commands : List Command) : Command × Build :=
  let file := CommandFile.generated name (commands.map .plain)
  let (isNew, session) := build.session.reserveFile name
  let build := { build with session }
  (file.call, if isNew then { build with pack := build.pack.addFile file } else build)

def addAsset (build : Build) (asset : Asset) : Build :=
  { build with pack := build.pack.addAsset asset }

end Build

def BuildM.emit (command : Command) : BuildM Unit :=
  modify (·.emit command)

def BuildM.emitAll (commands : List Command) (word : String) : BuildM Unit :=
  modify (·.emitBatch (commands.map .plain) word false)

def BuildM.emitSelected (command : Command) : BuildM Unit :=
  aligned (emit command)

def BuildM.emitAllSelected (commands : List Command) (word : String) : BuildM Unit :=
  aligned (emitAll commands word)

end ScriptPack
