import ScriptPack.CommandLine.Report
import ScriptPack.CommandLine.Request
import ScriptPack.Settings

/-!
Doing what a command line asks for. Files are read from a file tree and written to it, so a run is
a function of the words and the tree.
-/

namespace ScriptPack.CommandLine

/-- What a run gives. -/
structure Outcome where
  /-- The exit status: 0 for success, 1 for a failure, 2 for words that were not understood. -/
  status : Nat := 0
  output : List OutputLine := []
  /-- Lines for the standard error output. -/
  errors : List String := []
  storage : FileTree

def readDefinition (text : String) : Except SettingFault (String × String) :=
  match Text.cutAt? '=' text.toList with
  | none => .error (.invalidDefinition text)
  | some (name, value) =>
      let name := Text.trim (String.ofList name)
      if name.isEmpty then .error (.invalidDefinition text)
      else .ok (name, String.ofList value)

namespace CompileRequest

def options (request : CompileRequest) (settings : Settings) : Except SettingFault Options := do
  let definitions ← request.definitions.mapM readDefinition
  let defined := definitions.foldl Settings.putVariable []
  let isNew := fun given : String × String => !defined.any (·.1 == given.1)
  return { settings.options with
    debug := request.debug
    includeDirectories := request.includeDirectories ++ settings.includeDirectories
    definitions := defined ++ settings.definitions.filter isNew
    features := settings.features.foldl
      (fun features feature =>
        if features.contains feature then features else features ++ [feature])
      request.features }

def outputDirectory (request : CompileRequest) (settings : Settings) : String :=
  (request.output <|> settings.outputDirectory).getD (packNameFor request.input ++ "_bp")

end CompileRequest

def errorLine (file : String) (error : Error) : String :=
  "❌ " ++ error.report file

def compileLoudly (storage : FileTree) (request : CompileRequest) (options : Options)
    (output : String) : Outcome :=
  let start := OutputLine.text s!"🔨 Compiling {request.input} -> {output}"
  match compileTo storage options request.input output with
  | (.error error, storage) =>
      { status := 1, output := [start], errors := [errorLine request.input error], storage }
  | (.ok (pack, stats), storage) =>
      let detail := if request.stats then statsLines pack stats else []
      { output := start :: packLines pack stats ++ detail, storage }

def compileSilently (storage : FileTree) (request : CompileRequest) (options : Options)
    (output : String) : Outcome :=
  match compileTo storage options request.input output with
  | (.error _, storage) => { status := 1, storage }
  | (.ok _, storage) => { storage }

def compileWatched (storage : FileTree) (request : CompileRequest) (options : Options)
    (output : String) : Outcome :=
  let start := OutputLine.text s!"👀 Watching {request.input} for changes..."
  match compileTo storage options request.input output with
  | (.error error, storage) =>
      { status := 1, output := [start], errors := [errorLine request.input error], storage }
  | (.ok _, storage) =>
      { output := [start, .text "✅ Initial compilation successful"], storage }

def compileAgain (storage : FileTree) (request : CompileRequest) (options : Options)
    (output : String) : Outcome :=
  let start := OutputLine.text "🔄 File changed, recompiling..."
  match compileTo storage options request.input output with
  | (.error error, storage) =>
      { status := 1, output := [start], errors := [errorLine request.input error], storage }
  | (.ok (_, stats), storage) =>
      { output := [start, .timed s!"✅ Recompiled successfully ({stats.fileCount} files, " "ms)"]
        storage }

/-- Compiles in the way that the request asks for. A wrong definition is reported by the exit
status alone. -/
def runCompile (storage : FileTree) (settings : Settings) (request : CompileRequest) : Outcome :=
  let output := request.outputDirectory settings
  match request.options settings with
  | .error _ => { status := 1, storage }
  | .ok options =>
      if request.silent then compileSilently storage request options output
      else if request.watch then compileWatched storage request options output
      else compileLoudly storage request options output

def sourcesAt (storage : FileTree) (input : String) (deep : Bool) : List String :=
  if storage.isDirectory input then
    (storage.filesBelow input deep).filter fun path => Path.extension? path == some "mcc"
  else [input]

def runCheck (storage : FileTree) (settings : Settings) (input : String) (deep : Bool) : Outcome :=
  let checked := (sourcesAt storage input deep).map fun file =>
    (file, (compileFile storage settings.options file).isOk)
  let status := if checked.all (·.2) then 0 else 1
  { status, output := checkLines checked, storage }

def analyze (storage : FileTree) (options : Options) (input : String) :
    Except Error (List OutputLine) := do
  let source ← readSource storage input
  let tokens ← (Token.readAll source).mapError fun (line, fault) => .source input line fault
  let statements ← readScript input source
  let (pack, _) ← (compile storage options input source).1
  return analysisLines tokens statements pack

def runAnalyze (storage : FileTree) (settings : Settings) (input : String) : Outcome :=
  let start := OutputLine.text s!"🔬 Analyzing {input}"
  match analyze storage settings.options input with
  | .error error => { status := 1, output := [start], errors := [errorLine input error], storage }
  | .ok lines => { output := start :: lines, storage }

def runAction (storage : FileTree) (settings : Settings) : Action → Outcome
  | .nothing =>
      { output := [.text "No subcommand specified. Use --help for usage information."], storage }
  | .compile request => runCompile storage settings request
  | .check input deep => runCheck storage settings input deep
  | .analyze input => runAnalyze storage settings input

def loadSettings (storage : FileTree) (request : Request) : Except Error Settings :=
  match request.settings with
  | some path => Settings.load storage path
  | none => .ok {}

def Halt.outcome (storage : FileTree) : Halt → Outcome
  | refused => { status := 2, errors := ["error: unexpected arguments, see --help"], storage }
  | help => { output := [.text usage], storage }
  | version => { output := [.text versionText], storage }

def runRequest (storage : FileTree) (request : Request) : Outcome :=
  match loadSettings storage request with
  | .error error => { status := 1, errors := ["❌ " ++ error.bareMessage], storage }
  | .ok settings => runAction storage settings request.action

/-- The compilation to repeat whenever its script changes, with its options and output directory,
if that is asked for. -/
def watched? (storage : FileTree) (words : List String) :
    Option (CompileRequest × Options × String) := do
  let request ← (Request.read words).toOption
  let settings ← (loadSettings storage request).toOption
  match request.action with
  | .compile compilation =>
      let options ← (compilation.options settings).toOption
      if compilation.watch && !compilation.silent then
        some (compilation, options, compilation.outputDirectory settings)
      else none
  | _ => none

def run (storage : FileTree) (words : List String) : Outcome :=
  match Request.read words with
  | .error halt => halt.outcome storage
  | .ok request => runRequest storage request

end ScriptPack.CommandLine
