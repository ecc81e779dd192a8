import ScriptPack.About
import ScriptPack.CommandLine.Options

/-!
What a command line asks for.
-/

namespace ScriptPack.CommandLine

structure CompileRequest where
  input : String
  output : Option String := none
  /-- Variables, each with its value behind `=`. -/
  definitions : List String := []
  includeDirectories : List String := []
  features : List String := []
  debug : Bool := false
  stats : Bool := false
  silent : Bool := false
  watch : Bool := false

inductive Action where
  | nothing
  | compile (request : CompileRequest)
  | check (input : String) (deep : Bool)
  | analyze (input : String)

structure Request where
  /-- The path of the settings file. -/
  settings : Option String := none
  /-- How much is told about the work itself. -/
  verbosity : Nat := 0
  action : Action

namespace Grammar

def helpOption : OptionSpec := ⟨"help", some 'h', .help⟩

def top : Grammar where
  options := [
    ⟨"config", some 'c', .single⟩,
    ⟨"verbose", some 'v', .counted⟩,
    helpOption,
    ⟨"version", some 'V', .version⟩]
  commands := ["compile", "check", "analyze", "help"]

def compile : Grammar where
  options := [
    ⟨"output", some 'o', .single⟩,
    ⟨"define", some 'D', .repeated⟩,
    ⟨"include", some 'I', .repeated⟩,
    ⟨"feature", none, .repeated⟩,
    ⟨"debug", some 'd', .flag⟩,
    ⟨"stats", none, .flag⟩,
    ⟨"silent", some 's', .flag⟩,
    ⟨"watch", some 'w', .flag⟩,
    helpOption]
  takesInput := true

def check : Grammar where
  options := [⟨"recursive", some 'r', .flag⟩, helpOption]
  takesInput := true

def analyze : Grammar where
  options := [helpOption]
  takesInput := true

end Grammar

def readCommand (grammar : Grammar) (words : List String) : Except Halt (String × Given) := do
  let (given, _) ← readWords grammar {} none words
  match given.input with
  | some input => return (input, given)
  | none => .error .refused

def readHelp : List String → Halt
  | [] => .help
  | ["compile"] | ["check"] | ["analyze"] => .help
  | "help" :: rest => readHelp rest
  | _ => .refused

def readAction : Option (String × List String) → Except Halt Action
  | none => .ok .nothing
  | some ("compile", words) => do
      let (input, given) ← readCommand .compile words
      return .compile {
        input
        output := given.value? "output"
        definitions := given.values "define"
        includeDirectories := given.values "include"
        features := given.values "feature"
        debug := given.has "debug"
        stats := given.has "stats"
        silent := given.has "silent"
        watch := given.has "watch" }
  | some ("check", words) => do
      let (input, given) ← readCommand .check words
      return .check input (given.has "recursive")
  | some ("analyze", words) => do
      let (input, _) ← readCommand .analyze words
      return .analyze input
  | some ("help", words) => .error (readHelp words)
  | some _ => .error .refused

def Request.read (words : List String) : Except Halt Request := do
  let (given, next) ← readWords .top {} none words
  return {
    settings := given.value? "config"
    verbosity := (given.values "verbose").length
    action := ← readAction next }

def usage : String :=
  Text.joinWith "\n" [
    About.description,
    "",
    s!"Usage: {About.name} [-c FILE] [-v] [COMMAND]",
    "",
    "Commands:",
    "  compile INPUT  Compile an MCC file into a function tree",
    "  check INPUT    Check MCC files for errors without writing output",
    "  analyze INPUT  Show tokens, statements and generated files for an MCC file",
    "",
    "Options of compile:",
    "  -o, --output DIR        Output directory",
    "  -D, --define VAR=VALUE  Set a preprocessor variable",
    "  -I, --include DIR       Add include directory",
    "      --feature NAME      Enable a feature before the first statement",
    "  -d, --debug             Enable debug mode with extra logging",
    "      --stats             Show detailed compilation statistics",
    "  -s, --silent            Print nothing; report success through the exit status",
    "  -w, --watch             Watch for file changes and recompile",
    "",
    "Options of check:",
    "  -r, --recursive  Check all MCC files in directory recursively"]

def versionText : String :=
  s!"{About.name} {About.version}"

end ScriptPack.CommandLine
