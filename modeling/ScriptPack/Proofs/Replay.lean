import Mathlib.Algebra.Order.Ring.Int
import ScriptPack.Build.Run

/-!
What the commands of a pack do to the scores of the entity that executes them. Score commands act on
a table of scores, frames that test scores decide whether a line is executed, and a call runs the
lines of another file. Everything else has no replay, and neither has a division by zero.
-/

namespace ScriptPack

/-- The scores of the executing entity by objective. One that was never set counts as zero. -/
abbrev Scores := String → Int32

namespace Scores

def put (scores : Scores) (objective : String) (value : Int32) : Scores :=
  fun other => if other = objective then value else scores other

@[simp]
theorem put_same (scores : Scores) (objective : String) (value : Int32) :
    scores.put objective value objective = value := by
  simp [put]

theorem put_other {scores : Scores} {objective other : String} {value : Int32}
    (different : other ≠ objective) : scores.put objective value other = scores other := by
  simp [put, different]

end Scores

namespace ArithOp

/-- What the game computes from two scores: results wrap around at 32 bits, quotients are cut off
toward zero, and a zero divisor has no result. -/
def compute? (op : ArithOp) (left right : Int32) : Option Int32 :=
  match op with
  | add => some (.ofInt (left.toInt + right.toInt))
  | sub => some (.ofInt (left.toInt - right.toInt))
  | mul => some (.ofInt (left.toInt * right.toInt))
  | div => if right = 0 then none else some (.ofInt (left.toInt.tdiv right.toInt))
  | mod => if right = 0 then none else some (.ofInt (left.toInt.tmod right.toInt))

theorem compute?_add (left right : Int32) : add.compute? left right = some (left + right) := by
  simp [compute?]

theorem compute?_sub (left right : Int32) : sub.compute? left right = some (left - right) := by
  simp [compute?]

theorem compute?_mul (left right : Int32) : mul.compute? left right = some (left * right) := by
  simp [compute?]

/-- Literals are combined before the game runs exactly as the game combines scores. -/
theorem onInt32_eq_ok_iff {op : ArithOp} {left right value : Int32} :
    op.onInt32 left right = .ok value ↔ op.compute? left right = some value := by
  have quotient : Int32.ofInt (left.toInt.tdiv right.toInt) = left / right := by
    rw [Int32.ofInt_tdiv left.minValue_le_toInt left.toInt_le right.minValue_le_toInt
      right.toInt_le, Int32.ofInt_toInt, Int32.ofInt_toInt]
  have remainder : Int32.ofInt (left.toInt.tmod right.toInt) = left % right := by
    rw [Int32.ofInt_tmod left.minValue_le_toInt left.toInt_le right.minValue_le_toInt
      right.toInt_le, Int32.ofInt_toInt, Int32.ofInt_toInt]
  by_cases zero : right = 0
  · subst zero
    cases op <;> simp [onInt32, compute?]
  · cases op <;> simp [onInt32, compute?, zero, quotient, remainder]

end ArithOp

/-- What an operation leaves in its first score. Only copies and arithmetic are covered. -/
def ScoreOp.compute? (op : ScoreOp) (left right : Int32) : Option Int32 :=
  match op with
  | .copy => some right
  | .arith op => op.compute? left right
  | _ => none

abbrev Calls := String → Scores → Option Scores

/-- The scores after a command of the executing entity on its own scores. -/
def Command.replay? (calls : Calls) (command : Command) (scores : Scores) : Option Scores :=
  match command with
  | objectiveAdd _ => some scores
  | scoreSet target objective value =>
      if target = selfTarget then some (scores.put objective value) else none
  | scoreAdd target objective value =>
      if target = selfTarget then
        (ArithOp.add.compute? (scores objective) value).map (scores.put objective)
      else none
  | scoreRemove target objective value =>
      if target = selfTarget then
        (ArithOp.sub.compute? (scores objective) value).map (scores.put objective)
      else none
  | operation target objective op source other =>
      if target = selfTarget ∧ source = selfTarget then
        (op.compute? (scores objective) (scores other)).map (scores.put objective)
      else none
  | call path => calls path scores
  | _ => none

def replayAll? (calls : Calls) : List Command → Scores → Option Scores
  | [], scores => some scores
  | command :: rest, scores => (command.replay? calls scores).bind (replayAll? calls rest)

/-- Whether a frame lets the executing entity through. Only tests of its own scores are covered. -/
def Frame.admits? (frame : Frame) (scores : Scores) : Option Bool :=
  match frame with
  | .under selector =>
      if selector = { Selector.self with scores := selector.scores } then
        some (selector.scores.all fun clause => clause.range.contains (scores clause.objective))
      else none
  | .given _ => none

/-- Whether all frames let the executing entity through, tested from the outermost to the first
that does not. -/
def Frame.admitAll? (scores : Scores) : List Frame → Option Bool
  | [] => some true
  | frame :: rest =>
      match frame.admits? scores with
      | some true => admitAll? scores rest
      | other => other

namespace Line

/-- The scores after a line: its command is executed where its frames let the entity through. -/
def replay? (calls : Calls) (line : Line) (scores : Scores) : Option Scores :=
  match Frame.admitAll? scores line.frames with
  | some true => line.command.replay? calls scores
  | some false => some scores
  | none => none

@[simp]
theorem replay?_plain (calls : Calls) (command : Command) (scores : Scores) :
    (plain command).replay? calls scores = command.replay? calls scores := rfl

end Line

def replayLines? (calls : Calls) : List Line → Scores → Option Scores
  | [], scores => some scores
  | line :: rest, scores => (line.replay? calls scores).bind (replayLines? calls rest)

/-- The file that a path names. Files are written in order, so of several the last remains. -/
def Pack.fileAt? (files : List CommandFile) (path : String) : Option CommandFile :=
  files.reverse.find? fun file => file.path == path

/-- What calls do when the files of a pack may call each other to a depth. -/
def Pack.calls (files : List CommandFile) : Nat → Calls
  | 0 => fun _ _ => none
  | depth + 1 => fun path scores =>
      (fileAt? files path).bind fun file => replayLines? (calls files depth) file.lines scores

section Append

variable (calls : Calls)

@[simp]
theorem replayAll?_nil (scores : Scores) : replayAll? calls [] scores = some scores := rfl

theorem replayAll?_cons (command : Command) (rest : List Command) (scores : Scores) :
    replayAll? calls (command :: rest) scores =
      (command.replay? calls scores).bind (replayAll? calls rest) := rfl

@[simp]
theorem replayAll?_singleton (command : Command) (scores : Scores) :
    replayAll? calls [command] scores = command.replay? calls scores :=
  Option.bind_fun_some _

theorem replayAll?_append (first second : List Command) (scores : Scores) :
    replayAll? calls (first ++ second) scores =
      (replayAll? calls first scores).bind (replayAll? calls second) := by
  induction first generalizing scores with
  | nil => rfl
  | cons command rest ih =>
    rw [List.cons_append, replayAll?_cons, replayAll?_cons, Option.bind_assoc]
    exact congrArg _ (funext ih)

@[simp]
theorem replayLines?_nil (scores : Scores) : replayLines? calls [] scores = some scores := rfl

theorem replayLines?_cons (line : Line) (rest : List Line) (scores : Scores) :
    replayLines? calls (line :: rest) scores =
      (line.replay? calls scores).bind (replayLines? calls rest) := rfl

theorem replayLines?_append (first second : List Line) (scores : Scores) :
    replayLines? calls (first ++ second) scores =
      (replayLines? calls first scores).bind (replayLines? calls second) := by
  induction first generalizing scores with
  | nil => rfl
  | cons line rest ih =>
    rw [List.cons_append, replayLines?_cons, replayLines?_cons, Option.bind_assoc]
    exact congrArg _ (funext ih)

theorem replayLines?_plain (commands : List Command) (scores : Scores) :
    replayLines? calls (commands.map .plain) scores = replayAll? calls commands scores := by
  induction commands generalizing scores with
  | nil => rfl
  | cons command rest ih =>
    rw [List.map_cons, replayLines?_cons, replayAll?_cons, Line.replay?_plain]
    exact congrArg _ (funext ih)

end Append

end ScriptPack
