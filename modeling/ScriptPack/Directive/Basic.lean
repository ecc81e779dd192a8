import ScriptPack.Feature
import ScriptPack.Token.View

/-!
The directives of the language. A statement whose first word is a keyword runs the directive of
that keyword on the rest of its tokens; the keywords that work on variables start with `$`.
-/

namespace ScriptPack

/-- A summary of the values of a variable. -/
inductive Aggregate where
  | sum
  | median
  | mean
deriving DecidableEq, Repr

/-- Where a title is shown. -/
inductive TitlePlace where
  | title
  | actionbar
deriving DecidableEq, Repr

inductive Directive where
  | setVariable
  | count (up : Bool)
  | arithmetic (op : ArithOp)
  | power
  | swap
  | whenValues
  | otherwiseValues
  | repeatBody
  | log
  | template
  | includeFile
  | changeCase (style : Text.TextCase)
  | aggregate (kind : Aggregate)
  | iterate
  | element
  | length
  | importJson
  | rawCommand
  | select
  | print (everyone : Bool)
  | define
  | initialise
  | condition
  | otherwise
  | give
  | teleport
  | teleportHere
  | move
  | face
  | faceHere
  | rotate
  | block
  | fill
  | scatter
  | replace
  | kill
  | remove
  | title (place : TitlePlace) (everyone : Bool)
  | say
  | halt
  | damage
  | nullEntity
  | tag
  | limit
  | feature
  | routine
  | result
  | record
deriving DecidableEq, Repr

/-- What a token at some place of a call may be. -/
inductive Shape where
  | string
  | integer
  | number
  | coordinate
  | selector
  | identifier
  | operand
  | literal
  | textOrWord
  | notJson
deriving DecidableEq, Repr

def Shape.admits : Shape → TokenKind → Bool
  | string, kind => View.string.admits kind
  | integer, kind => View.integer.admits kind
  | number, kind => View.number.admits kind
  | coordinate, kind => View.coordinate.admits kind
  | selector, kind => View.selector.admits kind
  | identifier, kind => View.identifier.admits kind
  | operand, kind => View.operand.admits kind
  | literal, kind => View.literal.admits kind
  | textOrWord, kind => View.string.admits kind || View.identifier.admits kind
  | notJson, kind =>
      match kind with
      | .literal (.json _) => false
      | _ => true

namespace Directive

def all : List Directive := [
  setVariable, count true, count false, arithmetic .add, arithmetic .sub, arithmetic .mul,
  arithmetic .div, arithmetic .mod, power, swap, whenValues, otherwiseValues, repeatBody, log,
  template, includeFile, changeCase .friendly, changeCase .upper, changeCase .lower,
  aggregate .sum, aggregate .median, aggregate .mean, iterate, element, length, importJson,
  rawCommand, select, print true, print false, define, initialise, condition, otherwise, give,
  teleport, teleportHere, move, face, faceHere, rotate, block, fill, scatter, replace, kill,
  remove, title .title true, title .title false, title .actionbar true, title .actionbar false,
  say, halt, damage, nullEntity, tag, limit, feature, routine, result, record]

def keyword : Directive → String
  | setVariable => "$var"
  | count true => "$inc"
  | count false => "$dec"
  | arithmetic .add => "$add"
  | arithmetic .sub => "$sub"
  | arithmetic .mul => "$mul"
  | arithmetic .div => "$div"
  | arithmetic .mod => "$mod"
  | power => "$pow"
  | swap => "$swap"
  | whenValues => "$if"
  | otherwiseValues => "$else"
  | repeatBody => "$repeat"
  | log => "$log"
  | template => "$macro"
  | includeFile => "$include"
  | changeCase .friendly => "$strfriendly"
  | changeCase .upper => "$strupper"
  | changeCase .lower => "$strlower"
  | aggregate .sum => "$sum"
  | aggregate .median => "$median"
  | aggregate .mean => "$mean"
  | iterate => "$iterate"
  | element => "$get"
  | length => "$len"
  | importJson => "$json"
  | rawCommand => "mc"
  | select => "select"
  | print true => "globalprint"
  | print false => "print"
  | define => "define"
  | initialise => "init"
  | condition => "if"
  | otherwise => "else"
  | give => "give"
  | teleport => "tp"
  | teleportHere => "tphere"
  | move => "move"
  | face => "face"
  | faceHere => "facehere"
  | rotate => "rotate"
  | block => "block"
  | fill => "fill"
  | scatter => "scatter"
  | replace => "replace"
  | kill => "kill"
  | remove => "remove"
  | title .title true => "globaltitle"
  | title .title false => "title"
  | title .actionbar true => "globalactionbar"
  | title .actionbar false => "actionbar"
  | say => "say"
  | halt => "halt"
  | damage => "damage"
  | nullEntity => "null"
  | tag => "tag"
  | limit => "limit"
  | feature => "feature"
  | routine => "function"
  | result => "return"
  | record => "struct"

def description : Directive → String
  | setVariable => "Set a preprocessor variable."
  | count true => "Increment a preprocessor variable by 1."
  | count false => "Decrement a preprocessor variable by 1."
  | arithmetic .add => "Add to a preprocessor variable."
  | arithmetic .sub => "Subtract from a preprocessor variable."
  | arithmetic .mul => "Multiply a preprocessor variable."
  | arithmetic .div => "Divide a preprocessor variable."
  | arithmetic .mod => "Modulo a preprocessor variable."
  | power => "Raise a preprocessor variable to a power."
  | swap => "Swap two preprocessor variables."
  | whenValues => "Compare preprocessor values at compile time."
  | otherwiseValues => "Run when the last $if was false."
  | repeatBody => "Repeat the next statement or block."
  | log => "Print a message during compilation."
  | template => "Define or call a macro."
  | includeFile => "Compile another file in place."
  | changeCase .friendly => "Title-case text."
  | changeCase .upper => "Uppercase text."
  | changeCase .lower => "Lowercase text."
  | aggregate .sum => "Sum the elements of a variable."
  | aggregate .median => "Median of the elements of a variable."
  | aggregate .mean => "Mean of the elements of a variable."
  | iterate => "Run the next block once per element."
  | element => "Read one element of a variable."
  | length => "Length of a variable."
  | importJson => "Load values from a JSON file."
  | rawCommand => "Run a raw command."
  | select => "Change the selected entity."
  | print true => "Print to every player."
  | print false => "Print to the selected entity."
  | define => "Define a value."
  | initialise => "Initialise values for every player."
  | condition => "Run code when a condition holds."
  | otherwise => "Run code when the last if did not."
  | give => "Give an item."
  | teleport => "Teleport the selected entity."
  | teleportHere => "Teleport entities to the selected entity."
  | move => "Move relative to facing direction."
  | face => "Face an entity or position."
  | faceHere => "Make entities face the selected entity."
  | rotate => "Rotate the selected entity."
  | block => "Place a block."
  | fill => "Fill an area with a block."
  | scatter => "Scatter a block over an area."
  | replace => "Replace one block with another over an area."
  | kill => "Kill entities."
  | remove => "Remove entities without a death."
  | title .title true => "Show a title to every player."
  | title .title false => "Show a title to the selected entity."
  | title .actionbar true => "Show an actionbar to every player."
  | title .actionbar false => "Show an actionbar to the selected entity."
  | say => "Say text as the selected entity."
  | halt => "Stop execution of the current tick."
  | damage => "Damage the selected entity."
  | nullEntity => "Manage null entities."
  | tag => "Add or remove tags."
  | limit => "Limit how many entities are selected."
  | feature => "Enable a compiler feature."
  | routine => "Define a function."
  | result => "Return a value from a function."
  | record => "Define a struct."

def positionShape : List Shape := [.coordinate, .coordinate, .coordinate]

/-- The shapes of the leading tokens, one of which a call must have; a directive without shapes
takes anything. -/
def patterns : Directive → List (List Shape)
  | setVariable => [[.identifier, .notJson]]
  | count _ => [[.identifier]]
  | arithmetic _ | power => [[.identifier, .literal], [.identifier, .identifier]]
  | swap => [[.identifier, .identifier]]
  | whenValues => [[.identifier]]
  | repeatBody => [[.integer]]
  | log => [[.string]]
  | template => [[.identifier]]
  | includeFile => [[.string]]
  | changeCase _ | aggregate _ => [[.identifier]]
  | iterate => [[.identifier, .identifier]]
  | element => [[.identifier, .integer, .identifier]]
  | length => [[.identifier, .identifier]]
  | importJson => [[.string, .identifier, .string]]
  | rawCommand => [[.string]]
  | select => [[.selector]]
  | print _ => [[.string]]
  | define => [[.identifier]]
  | initialise | give => [[.textOrWord]]
  | teleport | face => [[.selector], positionShape]
  | teleportHere | faceHere => [[.selector]]
  | move => [[.identifier, .number]]
  | rotate => [[.number]]
  | block =>
      [.textOrWord :: positionShape, .identifier :: .textOrWord :: positionShape]
  | fill =>
      [.textOrWord :: positionShape ++ positionShape,
        .identifier :: .textOrWord :: positionShape ++ positionShape]
  | scatter => [.textOrWord :: .integer :: positionShape ++ positionShape]
  | replace => [[.textOrWord]]
  | title _ _ => [[.string], [.identifier]]
  | say => [[.string]]
  | damage => [[.integer]]
  | nullEntity => [[.identifier]]
  | tag => [[.identifier, .textOrWord]]
  | feature => [[.identifier]]
  | result => [[.operand]]
  | record => [[.identifier]]
  | otherwiseValues | condition | otherwise | kill | remove | halt | limit | routine => []

def resolves : Directive → Bool
  | template => false
  | _ => true

def feature? : Directive → Option Feature
  | nullEntity => some .nulls
  | _ => none

def accepts (directive : Directive) (tokens : List Token) : Bool :=
  directive.patterns.isEmpty || directive.patterns.any fun pattern =>
    pattern.length ≤ tokens.length &&
      (pattern.zip tokens).all fun (shape, token) => shape.admits token.kind

def find? (word : String) : Option Directive :=
  all.find? fun directive => Text.sameWord directive.keyword word

def ofToken? : TokenKind → Option Directive
  | .word word => (find? word).filter fun directive => !directive.keyword.startsWith "$"
  | .reference word => find? ("$" ++ word)
  | _ => none

end Directive

end ScriptPack
