import ScriptPack.Text.Cut

/-!
The words of a command line. Options have long names behind two dashes and may have letters behind
one; a value follows as the next word, behind `=`, or right behind the letter. The word `--` makes
values of all words after it.
-/

namespace ScriptPack.CommandLine

/-- What the use of an option means. -/
inductive OptionKind where
  /-- It stands alone, once. -/
  | flag
  /-- It stands alone, any number of times. -/
  | counted
  /-- It has a value and is used once. -/
  | single
  /-- It has a value each time it is used. -/
  | repeated
  /-- It asks for the help text. -/
  | help
  /-- It asks for the version. -/
  | version
deriving DecidableEq, Repr

def OptionKind.takesValue : OptionKind → Bool
  | single | repeated => true
  | _ => false

def OptionKind.isOnce : OptionKind → Bool
  | flag | single => true
  | _ => false

structure OptionSpec where
  name : String
  letter : Option Char
  kind : OptionKind
deriving DecidableEq, Repr

/-- What may be written in one part of a command line. -/
structure Grammar where
  options : List OptionSpec
  /-- Whether one word that is no option's value is expected. -/
  takesInput : Bool := false
  /-- Words that start the next part. -/
  commands : List String := []

/-- Why there is nothing to run. -/
inductive Halt where
  /-- The words are not those of a command line. -/
  | refused
  | help
  | version
deriving DecidableEq, Repr

/-- What has been read: the used options with their values, in order, and the expected word. -/
structure Given where
  options : List (String × String) := []
  input : Option String := none

namespace Given

def has (given : Given) (name : String) : Bool :=
  given.options.any (·.1 == name)

def values (given : Given) (name : String) : List String :=
  given.options.filterMap fun (other, value) => if other == name then some value else none

def value? (given : Given) (name : String) : Option String :=
  (given.values name).head?

def use (given : Given) (option : OptionSpec) (value : String) : Except Halt Given :=
  match option.kind with
  | .help => .error .help
  | .version => .error .version
  | kind =>
      if kind.isOnce && given.has option.name then .error .refused
      else .ok { given with options := given.options ++ [(option.name, value)] }

def addInput (given : Given) (grammar : Grammar) (word : String) : Except Halt Given :=
  if grammar.takesInput && given.input.isNone then .ok { given with input := some word }
  else .error .refused

end Given

/-- An option by its long name, with what is behind `=`. The second result is the option whose
value is to follow. -/
def readLong (grammar : Grammar) (given : Given) (text : List Char) :
    Except Halt (Given × Option OptionSpec) :=
  let (name, value?) := match Text.cutAt? '=' text with
    | some (name, value) => (name, some (String.ofList value))
    | none => (text, none)
  match grammar.options.find? (·.name == String.ofList name), value? with
  | none, _ => .error .refused
  | some option, none =>
      if option.kind.takesValue then .ok (given, some option)
      else (given.use option "").map (·, none)
  | some option, some value =>
      if option.kind.takesValue then (given.use option value).map (·, none) else .error .refused

def readLetters (grammar : Grammar) (given : Given) :
    List Char → Except Halt (Given × Option OptionSpec)
  | [] => .ok (given, none)
  | letter :: rest =>
      match grammar.options.find? (·.letter == some letter) with
      | none => .error .refused
      | some option =>
          if option.kind.takesValue then
            match rest with
            | [] => .ok (given, some option)
            | '=' :: value => (given.use option (String.ofList value)).map (·, none)
            | value => (given.use option (String.ofList value)).map (·, none)
          else
            match given.use option "" with
            | .ok given => readLetters grammar given rest
            | .error halt => .error halt

/-- Reads words up to one that starts the next part; the second result is that word with the words
behind it. While the value of an option is waited for no other option may stand. -/
def readWords (grammar : Grammar) (given : Given) (waiting : Option OptionSpec) :
    List String → Except Halt (Given × Option (String × List String))
  | [] => if waiting.isSome then .error .refused else .ok (given, none)
  | word :: rest =>
      if waiting.isNone && grammar.commands.contains word then .ok (given, some (word, rest))
      else
        match word.toList, waiting with
        | '-' :: _ :: _, some _ => .error .refused
        | ['-', '-'], none => do
            let given ← rest.foldlM (fun given word => given.addInput grammar word) given
            return (given, none)
        | '-' :: '-' :: text, none => do
            let (given, waiting) ← readLong grammar given text
            readWords grammar given waiting rest
        | '-' :: letter :: letters, none => do
            let (given, waiting) ← readLetters grammar given (letter :: letters)
            readWords grammar given waiting rest
        | _, some option => do
            let given ← given.use option word
            readWords grammar given none rest
        | _, none => do
            let given ← given.addInput grammar word
            readWords grammar given none rest

end ScriptPack.CommandLine
