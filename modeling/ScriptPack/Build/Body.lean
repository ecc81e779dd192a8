import ScriptPack.Build.Variable
import ScriptPack.Json.Reader
import ScriptPack.Statement.Assembly
import ScriptPack.Variables.JsonPath

/-!
Bodies that are run in place, any number of times: repetitions, templates and included files. How
a list of statements is run is given to the steps here as `run`.
-/

namespace ScriptPack

open BuildM View

namespace BuildM

def always (step : BuildM Unit) (last : Build → Build) : BuildM Unit :=
  fun build =>
    match step build with
    | .ok result build => .ok result (last build)
    | .error error build => .error error (last build)

def repeatBody (run : List Statement → BuildM Unit) (tracker : Option String)
    (body : List Statement) : Nat → Nat → BuildM Unit
  | 0, _ => return
  | count + 1, index => do
      match tracker with
      | some name => setVariable name [.int (Int32.ofNat index)]
      | none => pure ()
      run body
      repeatBody run tracker body count (index + 1)

def iterateBody (run : List Statement → BuildM Unit) (name : String) (body : List Statement) :
    List Value → BuildM Unit
  | [] => return
  | value :: rest => do
      setVariable name [value]
      run body
      iterateBody run name body rest

def withBindings (bindings : List (String × List Value)) (step : BuildM Unit) : BuildM Unit := do
  let (bound, saved) := (← get).environment.bind bindings
  modifyVariables fun _ => bound
  always step fun build => { build with environment := build.environment.restore saved }

def templateArgument (parameter : String) (token : Token) : BuildM (List Value) := do
  match token.kind with
  | .reference name => environment (VariableM.get name)
  | .literal (.text text) => return [.text ((← get).environment.substitute text)]
  | .literal value => return [value]
  | kind =>
      let word ← orFail (.invalidTemplateArgument parameter) (identifier.view? kind)
      return [.text word]

def templateArguments : List String → List Token → BuildM (List (String × List Value))
  | [], _ => return []
  | parameter :: _, [] => fail (.missingTemplateArgument parameter)
  | parameter :: parameters, token :: rest => do
      let values ← templateArgument parameter token
      let bindings ← templateArguments parameters rest
      return (parameter, values) :: bindings

def callTemplate (run : List Statement → BuildM Unit) (name : String) (tokens : List Token) :
    BuildM Unit := do
  let template ← orFail (.unknownTemplate name) ((← get).environment.templates.get? name)
  let bindings ← templateArguments template.parameters tokens
  withBindings bindings (run template.body)

def defineTemplate (name : String) (parameters : List String) : BuildM Unit := do
  if (← get).nextBlockSize? = some 0 then fail .emptyTemplate
  let body ← takeBody
  modifyVariables (·.defineTemplate { name, parameters, body })

/-- The path of a file that the script names: from the directory of the script, or else from one
of the directories for included files. -/
def findFile (file : String) : BuildM String := do
  let build ← get
  let paths := (build.baseDirectory :: build.includeDirectories).map (Path.join · file)
  orFail (.fileNotFound file) (paths.find? build.storage.isFile)

def readFile (file path : String) : BuildM String := do
  ofExcept (fun cause => .unreadableFile file cause.message) ((← get).storage.readText path)

def scriptEnding : String := ".mcc"

def scriptName (file : String) : String :=
  if file.endsWith scriptEnding then file else file ++ scriptEnding

def scriptStatements (file path : String) : BuildM (List Statement) := do
  match (← get).session.statements.get? path with
  | some statements => return statements
  | none =>
      let source ← readFile file path
      match Statement.readAll source with
      | .error (line, fault) => throw (.source file line fault)
      | .ok statements => session (·.cacheStatements path statements)

def includeScript (run : List Statement → BuildM Unit) (file : String) : BuildM Unit := do
  let file := scriptName file
  let path ← findFile file
  if Problem.greatestIncludeDepth ≤ (← get).includeDepth then fail (.includesTooDeep file)
  let statements ← scriptStatements file path
  modify fun build => { build with includeDepth := build.includeDepth + 1 }
  always (run statements) fun build => { build with includeDepth := build.includeDepth - 1 }

def jsonDocument (file path : String) : BuildM Json := do
  match (← get).session.documents.get? path with
  | some document => return document
  | none =>
      let text ← readFile file path
      let document ← orFail (.environment (.json .malformed)) (Json.read? text)
      session (·.cacheDocument path document)

end BuildM

namespace ArgumentM

def runRepeat (run : List Statement → BuildM Unit) : ArgumentM Unit := do
  let amount ← next integer
  let tracker ← next? identifier
  let body ← takeBody
  repeatBody run tracker body amount.toInt.toNat 0

def runIterate (run : List Statement → BuildM Unit) : ArgumentM Unit := do
  let input ← next identifier
  let current ← next identifier
  let values ← environment (VariableM.get input)
  let body ← takeBody
  iterateBody run current body values

def leadingWords : List Token → List String
  | [] => []
  | token :: rest =>
      match identifier.view? token.kind with
      | some word => word :: leadingWords rest
      | none => []

def runTemplate (run : List Statement → BuildM Unit) : ArgumentM Unit := do
  let name ← next identifier
  let tokens ← get
  if (← getThe Build).nextIsBlock then defineTemplate name (leadingWords tokens)
  else callTemplate run name tokens

def runInclude (run : List Statement → BuildM Unit) : ArgumentM Unit := do
  let file ← next string
  includeScript run file

def runImportJson : ArgumentM Unit := do
  let file ← next string
  let output ← next identifier
  let place ← next string
  let path ← findFile file
  let document ← jsonDocument file path
  let values ← ofExcept .environment (document.valuesAt place)
  setVariable output values

end ArgumentM

end ScriptPack
