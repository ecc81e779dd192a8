import ScriptPack.Counter.Scoreboard
import ScriptPack.Json.Writer

/-!
Texts with parts that the game fills in when it shows them: scores and names of entities.
-/

namespace ScriptPack

inductive RawTerm where
  | text (text : String)
  | score (target objective : String)
  | selector (selector : String)
deriving DecidableEq, Repr

def RawTerm.toJson : RawTerm → Json
  | text content => .object [("text", .string content)]
  | score target objective =>
      .object [("score", .object [("name", .string target), ("objective", .string objective)])]
  | selector target => .object [("selector", .string target)]

def rawText (terms : List RawTerm) : String :=
  (Json.object [("rawtext", .array (terms.map RawTerm.toJson))]).compact

/-- The scores that show a time: minutes, seconds, and two to compute them with. -/
structure TimeScores where
  minutes : String
  seconds : String
  rest : String
  unit : String

def TimeScores.atPlace (index : Nat) : TimeScores where
  minutes := "_mcc_t_mins" ++ toString index
  seconds := "_mcc_t_secs" ++ toString index
  rest := "_mcc_t_temp" ++ toString index
  unit := "_mcc_t_const" ++ toString index

namespace Counter

/-- The commands that prepare the scores by which a counter is shown. `index` keeps the places of
one text apart. -/
def displaySetup (counter : Counter) (target : String) (index : Nat) : List Command :=
  match counter.kind with
  | .time =>
      let scores := TimeScores.atPlace index
      let step := fun left op right => Command.operation target left op target right
      [.objectiveAdd scores.minutes, .objectiveAdd scores.seconds, .objectiveAdd scores.rest,
        .objectiveAdd scores.unit,
        .scoreSet target scores.unit 20,
        step scores.rest .copy counter.name,
        step scores.rest (.arith .div) scores.unit,
        step scores.seconds .copy scores.rest,
        .scoreSet target scores.unit 60,
        step scores.rest (.arith .div) scores.unit,
        step scores.minutes .copy scores.rest,
        step scores.rest (.arith .mul) scores.unit,
        step scores.seconds (.arith .sub) scores.rest]
  | _ => []

mutual
def displayOf (target : String) (index : Nat) (name : String) : CounterKind → List RawTerm
  | .time =>
      let scores := TimeScores.atPlace index
      [.score target scores.minutes, .text ":", .score target scores.seconds]
  | .decimal _ => [.score target (name ++ ":w"), .text ".", .score target (name ++ ":d")]
  | .record _ fields => .text "[" :: displayFields target index name false fields ++ [.text "]"]
  | .int | .bool => [.score target name]

def displayFields (target : String) (index : Nat) (name : String) (comma : Bool) :
    List (String × String × CounterKind) → List RawTerm
  | [] => []
  | (_, key, kind) :: rest =>
      (if comma then [.text ", "] else []) ++ displayOf target index (name ++ ":" ++ key) kind ++
        displayFields target index name true rest
end

def display (counter : Counter) (target : String) (index : Nat) : List RawTerm :=
  displayOf target index counter.name counter.kind

end Counter

end ScriptPack
