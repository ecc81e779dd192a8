import ScriptPack.Compile
import ScriptPack.Number.Fixed

/-!
What the program prints about its work.
-/

namespace ScriptPack.CommandLine

/-- A line of output. How long the work took is not known before it is printed. -/
inductive OutputLine where
  | text (text : String)
  /-- The milliseconds that the work took stand between the two texts. -/
  | timed (before after : String)
deriving DecidableEq, Repr

def OutputLine.render (milliseconds : String) : OutputLine → String
  | text line => line
  | timed before after => before ++ milliseconds ++ after

def largestFile? (pack : Pack) : Option CommandFile :=
  pack.files.foldl
    (fun largest? file =>
      match largest? with
      | none => some file
      | some largest => if file.lines.length < largest.lines.length then some largest else some file)
    none

def quotient (left right : Nat) : Number.Double :=
  (Number.Binary.ofInt left).div (.ofInt right)

def packLines (pack : Pack) (stats : Stats) : List OutputLine :=
  (pack.log.map fun message => .text s!"   [log] {message}") ++ [
    .text "✅ Compilation successful!",
    .text s!"   Files: {stats.fileCount}",
    .text s!"   Output: {stats.outputSize} bytes",
    .timed "   Time: " "ms"]

def statsLines (pack : Pack) (stats : Stats) : List OutputLine :=
  let largest := match largestFile? pack with
    | some file =>
        [s!"   Largest file: {file.path} ({file.lines.length} commands)"]
    | none => []
  let average :=
    if 0 < stats.fileCount then
      ["   Commands per file: " ++ (quotient stats.commandCount stats.fileCount).showTenths]
    else []
  ([ "",
    "📊 Detailed Statistics:",
    s!"   Source size: {stats.sourceSize} bytes",
    s!"   Statements: {stats.statementCount}",
    s!"   Function files: {stats.fileCount}",
    s!"   Commands: {stats.commandCount}",
    s!"   Assets: {stats.assetCount}"] ++ largest ++ average).map .text

def successRate (faulty total : Nat) : Number.Double :=
  (quotient (total - faulty) total).mul (.ofInt 100)

def checkLines (checked : List (String × Bool)) : List OutputLine :=
  let total := checked.length
  let faulty := checked.countP (!·.2)
  let files := checked.map fun (file, good) => (if good then "✅ " else "❌ ") ++ file
  let summary :=
    if 1 < total then [
      "",
      "📊 Check Summary:",
      s!"   Total files: {total}",
      s!"   Files with errors: {faulty}",
      "   Success rate: " ++ (successRate faulty total).showTenths ++ "%"]
    else []
  (files ++ summary).map .text

def numbered (line : Nat) (text : String) : String :=
  "  " ++ Text.padLeft 4 (toString line) ++ "  " ++ text

def analysisLines (tokens : List Token) (statements : List Statement) (pack : Pack) :
    List OutputLine :=
  let tokenLines := tokens.map fun token => numbered token.line token.render
  let statementLines := statements.map fun statement =>
    numbered statement.line (Text.padRight 24 statement.describe ++ " " ++ statement.source)
  let fileLines := pack.files.map fun file =>
    s!"  {file.path}.mcfunction  ({file.lines.length} commands)"
  let assetLines :=
    if pack.assets.isEmpty then []
    else ["", s!"Assets ({pack.assets.length}):"] ++ pack.assets.map fun asset => "  " ++ asset.path
  ([s!"Tokens ({tokens.length}):"] ++ tokenLines ++
    ["", s!"Statements ({statements.length}):"] ++ statementLines ++
    ["", s!"Files ({pack.files.length}):"] ++ fileLines ++ assetLines ++ [""]).map .text

end ScriptPack.CommandLine
