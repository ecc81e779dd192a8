import ScriptPack.Problem

/-!
Errors of a compilation. An error in a script points at a line of it.
-/

namespace ScriptPack

/-- What is wrong with the options or the settings of a compilation. -/
inductive SettingFault where
  | invalidVariableName (name : String)
  | unknownFeature (name : String)
  | invalidDefinition (text : String)
  | unknownSettingsFormat
  | malformedJson
  | malformedToml
  | filesWithErrors (faulty total : Nat)
deriving DecidableEq, Repr

def SettingFault.message : SettingFault → String
  | invalidVariableName name => s!"Invalid custom variable name '{name}'"
  | unknownFeature name => s!"Unknown feature '{name}'"
  | invalidDefinition text => s!"Invalid variable definition: {text}. Use VAR=VALUE format."
  | unknownSettingsFormat => "Config file must be .json or .toml format"
  | malformedJson => "Invalid JSON config: <parse error>"
  | malformedToml => "Invalid TOML config: <parse error>"
  | filesWithErrors faulty total => s!"{faulty} of {total} files have errors"

inductive Error where
  /-- A file could not be written. -/
  | io (cause : String)
  /-- A file of the script cannot be read as statements. -/
  | source (file : String) (line : Nat) (fault : SourceFault)
  | statement (line : Nat) (code : String) (problem : Problem)
  | unreadable (path cause : String)
  | setting (fault : SettingFault)
deriving DecidableEq, Repr

def Error.line? : Error → Option Nat
  | source _ line _ => some line
  | statement line _ _ => some line
  | _ => none

def Error.bareMessage : Error → String
  | io cause => cause
  | source _ _ fault => fault.message
  | statement _ _ problem => problem.message
  | unreadable path cause => s!"File not found: {path}: {cause}"
  | setting fault => fault.message

def Error.message : Error → String
  | io cause => s!"IO error: {cause}"
  | source file line fault => s!"Tokenizer error in {file} at line {line}: " ++ fault.message
  | statement line code problem => s!"Error at line {line} ({code}): " ++ problem.message
  | unreadable path cause => s!"File not found: {path}: {cause}"
  | setting fault => "Invalid format: " ++ fault.message

def Error.report (error : Error) (file : String) : String :=
  match error.line? with
  | some line => s!"{file}:{line}: " ++ error.bareMessage
  | none => error.bareMessage

end ScriptPack
