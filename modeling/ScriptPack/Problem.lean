import ScriptPack.Counter.Error
import ScriptPack.Feature
import ScriptPack.Token.Lexer
import ScriptPack.Variables.Error

/-!
The causes for which compiling a statement fails, and the wording of each.
-/

namespace ScriptPack

inductive Problem where
  | value (cause : ValueError)
  | counter (cause : CounterError)
  | environment (cause : VariableError)
  | endOfStatement
  | unexpectedToken (expected found : String)
  | invalidPattern
  | unclosedCall (name : String)
  | unknownRoutine (name : String)
  | missingParameters (name : String)
  | noReturnValue
  | invalidArgument (token : String)
  | unknownValue (token : String)
  | expectedAssignment
  | extraTokens (tokens : List String)
  | expectedParenthesis (name : String)
  | unknownRecord (name : String)
  | invalidPrecision
  | unreachable
  | unexpectedClose
  | emptyBody
  | featureDisabled (feature : Feature)
  | invertedPosition
  | incomparableLiteral (kind : String)
  | incomparableRecord (name : String)
  | incomparableCount (kind name : String)
  | expectedConjunction (token : String)
  | danglingNegation
  | unknownCondition (word : String)
  | invalidCondition (token : String)
  | noConditions
  | noConditionBody
  | noBranchBody
  | noConditionBefore
  | invalidBlockMode (word : String) (modes : List String)
  | invalidActionbarMode (word : String)
  | invalidTitleMode (word : String)
  | undefinedInitial (name : String)
  | unsupportedItemAttribute (word : String)
  | unknownItemAttribute (word : String)
  | invalidDirection (word : String)
  | scatterSizeUnknown
  | scatterTooLarge
  | invalidNullMode (word : String)
  | invalidTagMode (word : String)
  | unknownFeature
  | defaultsNotTrailing
  | noRoutineBody
  | resultOutsideRoutine
  | invalidResult (kind : String)
  | mixedResults
  | noRecordBody
  | unfinishedRecord
  | noComparedValue
  | noValuesBody
  | noValuesBefore
  | noOtherwiseBody
  | emptyTemplate
  | unknownTemplate (name : String)
  | missingTemplateArgument (parameter : String)
  | invalidTemplateArgument (parameter : String)
  | fileNotFound (file : String)
  | includesTooDeep (file : String)
  | unreadableFile (file cause : String)
  | tooDeep
deriving DecidableEq, Repr

namespace Problem

def greatestIncludeDepth : Nat := 16

def greatestScatter : Int32 × Int32 × Int32 := (64, 256, 64)

def message : Problem → String
  | value cause => cause.message
  | counter cause => cause.message
  | environment cause => cause.message
  | endOfStatement => "Unexpected end of statement."
  | unexpectedToken expected found =>
      s!"Invalid token type. Expected {expected} but got {found}"
  | invalidPattern =>
      "Invalid call pattern. Make sure you included all arguments of the right type."
  | unclosedCall name => s!"Unclosed parenthesis in call to '{name}'."
  | unknownRoutine name => s!"Unknown function '{name}'."
  | missingParameters name => s!"Missing parameters for function {name}"
  | noReturnValue => "Cannot use function in statement since it doesn't return a value."
  | invalidArgument token => s!"Invalid argument '{token}'. Expected a value or literal."
  | unknownValue token => s!"Unknown value '{token}'."
  | expectedAssignment => "Expected an assignment operator."
  | extraTokens tokens =>
      "Unexpected tokens after operation: " ++ Text.joinWith " " tokens
  | expectedParenthesis name => s!"Expected '(' after function name '{name}'."
  | unknownRecord name => s!"Unknown struct '{name}'."
  | invalidPrecision =>
      "Decimal precision must be between 0 and " ++ toString Value.greatestPrecision ++ "."
  | unreachable => "Unreachable code detected."
  | unexpectedClose => "Unexpected closing bracket."
  | emptyBody => "No valid statements inside block."
  | featureDisabled feature =>
      "Feature not enabled: " ++ feature.label ++ ". Enable using the command 'feature " ++
        feature.name ++ "' at the top of the file."
  | invertedPosition => "Cannot invert a 'positioned' comparison."
  | incomparableLiteral kind => s!"Cannot compare a value with a {kind}."
  | incomparableRecord name => s!"Cannot compare struct value '{name}'."
  | incomparableCount kind name =>
      s!"Cannot compare an entity count with {kind} value '{name}'."
  | expectedConjunction token => s!"Unexpected token '{token}' in condition. Expected 'and'."
  | danglingNegation => "Expected a condition after 'not'."
  | unknownCondition word => s!"Unknown condition '{word}'."
  | invalidCondition token => s!"Invalid condition starting at '{token}'."
  | noConditions => "No valid conditions specified."
  | noConditionBody => "Unexpected end of file when running comparison."
  | noBranchBody => "Unexpected end-of-file after if/else statement."
  | noConditionBefore => "No if statement before this else."
  | invalidBlockMode word modes =>
      s!"Invalid block handling mode '{word}'. Valid options are " ++ Text.joinWith ", " modes ++ "."
  | invalidActionbarMode word => s!"Invalid actionbar subcommand '{word}'. Must be 'times'."
  | invalidTitleMode word =>
      s!"Invalid title subcommand '{word}'. Must be 'times' or 'subtitle'."
  | undefinedInitial name => s!"Attempted to initialize undefined variable '{name}'."
  | unsupportedItemAttribute word =>
      s!"Item attribute '{word}' needs a generated structure, which this compiler does not produce."
  | unknownItemAttribute word => s!"Unknown give attribute '{word}'."
  | invalidDirection word =>
      s!"Invalid direction '{word}'. Valid options are LEFT, RIGHT, UP, DOWN, FORWARD, BACKWARD."
  | scatterSizeUnknown =>
      "Scatter command requires all coordinate arguments to be relative or exact. " ++
        "(the size needs to be known at compile time.)"
  | scatterTooLarge =>
      let (x, y, z) := greatestScatter
      "Scatter zone size cannot be larger than " ++ Number.showInt32 x ++ "x" ++
        Number.showInt32 y ++ "x" ++ Number.showInt32 z ++ "."
  | invalidNullMode word =>
      s!"Invalid mode for null command: {word}. " ++
        "Valid options are CREATE, SINGLE, REMOVE, or CLASS"
  | invalidTagMode word =>
      s!"Invalid mode for tag command: {word}. Valid options are ADD, REMOVE, SINGLE"
  | unknownFeature => "No valid feature specified."
  | defaultsNotTrailing =>
      "All parameters following a parameter with a default must also have defaults."
  | noRoutineBody => "No block following function definition."
  | resultOutsideRoutine => "Cannot return a value outside of a function."
  | invalidResult kind => s!"Cannot return a {kind} value."
  | mixedResults => "Every return in a function must return the same type."
  | noRecordBody => "No block after struct definition."
  | unfinishedRecord => "Unexpected end-of-file following struct definition."
  | noComparedValue => "Expected a value to compare against."
  | noValuesBody => "End of file after $if statement."
  | noValuesBefore => "No $if statement before this $else."
  | noOtherwiseBody => "End of file after $else statement."
  | emptyTemplate => "Cannot have empty macro."
  | unknownTemplate name => s!"Macro '{name}' does not exist."
  | missingTemplateArgument parameter => s!"Missing argument '{parameter}' in macro call."
  | invalidTemplateArgument parameter =>
      s!"Invalid argument type for '{parameter}' in macro call."
  | fileNotFound file => s!"Cannot find file '{file}'."
  | includesTooDeep file =>
      "Maximum include depth of " ++ toString greatestIncludeDepth ++ s!" reached at '{file}'."
  | unreadableFile file cause => s!"Cannot read file '{file}': {cause}"
  | tooDeep => "Bodies run each other too deeply."

end Problem

end ScriptPack
