import ScriptPack.Build.Arguments

/-!
Conditions. A condition is a chain of comparisons joined by `and`, each negated or not. It becomes
commands that prepare scores and frames that let only those entities through for which the whole
chain holds.
-/

namespace ScriptPack

open Counter CounterM Number Selector View

inductive Test where
  /-- A flag is set. -/
  | flag (counter : Counter)
  | value (counter : Counter) (op : CompareOp) (other : Operand)
  /-- The executing entity has the selector's clauses. -/
  | self (selector : Selector)
  /-- The number of entities that a selector selects. -/
  | count (selector : Selector) (op : CompareOp) (other : Operand)
  /-- A selector selects an entity at all. -/
  | some (selector : Selector)
  | block (clause : BlockClause)
  /-- Later comparisons look from another position. -/
  | positioned (position : Position)

structure Comparison where
  test : Test
  negated : Bool := false

namespace Comparison

def readTest (board : Scoreboard) (tokens : List Token) : Except Problem (Test × List Token) :=
  match tokens with
  | [] => .error .endOfStatement
  | token :: rest =>
      match token.kind with
      | .counter accessor =>
          match board.get accessor with
          | .error error => .error (.counter error)
          | .ok counter =>
              if counter.kind = .bool ∧ !comparison.isNext rest then .ok (.flag counter, rest)
              else do
                let (op, rest) ← comparison.take rest
                let (other, rest) ← operand.take rest
                return (.value counter op other, rest)
      | .literal (.selector selector) => .ok (.self selector, rest)
      | .word word =>
          match Text.lower word with
          | "count" => do
              let (selector, rest) ← selector.take rest
              let (op, rest) ← comparison.take rest
              let (other, rest) ← operand.take rest
              return (.count selector op other, rest)
          | "any" => do
              let (selector, rest) ← selector.take rest
              return (.some selector, rest)
          | "block" => do
              let (position, rest) ← takePosition rest
              let (block, rest) ← takeName rest
              let (data, rest) := integer.takeIf rest
              return (.block (.of position block data), rest)
          | "positioned" => do
              let (position, rest) ← takePosition rest
              return (.positioned position, rest)
          | _ => .error (.unknownCondition word)
      | _ => .error (.invalidCondition token.render)

theorem exists_of_readTest {board : Scoreboard} {tokens rest : List Token} {test : Test}
    (read : readTest board tokens = .ok (test, rest)) :
    ∃ first taken, tokens = first :: (taken ++ rest) := by
  unfold readTest at read
  split at read
  · simp at read
  · rename_i token tail
    split at read
    · split at read
      · simp at read
      · split at read
        · cases read
          exact ⟨token, [], rfl⟩
        · obtain ⟨⟨op, afterOp⟩, opTaken, read⟩ := exists_ok_of_bind read
          obtain ⟨⟨other, afterOther⟩, otherTaken, read⟩ := exists_ok_of_bind read
          cases read
          obtain ⟨_, rfl⟩ := exists_of_take opTaken
          obtain ⟨_, rfl⟩ := exists_of_take otherTaken
          exact ⟨token, [_, _], rfl⟩
    · cases read
      exact ⟨token, [], rfl⟩
    · split at read
      · obtain ⟨⟨selector, afterSelector⟩, selectorTaken, read⟩ := exists_ok_of_bind read
        obtain ⟨⟨op, afterOp⟩, opTaken, read⟩ := exists_ok_of_bind read
        obtain ⟨⟨other, afterOther⟩, otherTaken, read⟩ := exists_ok_of_bind read
        cases read
        obtain ⟨_, rfl⟩ := exists_of_take selectorTaken
        obtain ⟨_, rfl⟩ := exists_of_take opTaken
        obtain ⟨_, rfl⟩ := exists_of_take otherTaken
        exact ⟨token, [_, _, _], rfl⟩
      · obtain ⟨⟨selector, afterSelector⟩, selectorTaken, read⟩ := exists_ok_of_bind read
        cases read
        obtain ⟨_, rfl⟩ := exists_of_take selectorTaken
        exact ⟨token, [_], rfl⟩
      · obtain ⟨⟨position, afterPosition⟩, positionTaken, read⟩ := exists_ok_of_bind read
        obtain ⟨⟨block, afterBlock⟩, blockTaken, read⟩ := exists_ok_of_bind read
        simp only [pure, Except.pure, Except.ok.injEq, Prod.mk.injEq] at read
        obtain ⟨-, rfl⟩ := read
        obtain ⟨x, y, z, rfl⟩ := exists_of_takePosition positionTaken
        obtain ⟨name, rfl⟩ := exists_of_takeName blockTaken
        obtain ⟨data, same⟩ := takeIf_suffix integer afterBlock
        exact ⟨token, x :: y :: z :: name :: data, by simp [same]⟩
      · obtain ⟨⟨position, afterPosition⟩, positionTaken, read⟩ := exists_ok_of_bind read
        cases read
        obtain ⟨_, _, _, rfl⟩ := exists_of_takePosition positionTaken
        exact ⟨token, [_, _, _], rfl⟩
      · simp at read
    · simp at read

/-- Reads a chain of comparisons; `negated` tells whether an odd number of negations stands before
the tokens. -/
def readChain (board : Scoreboard) (negated : Bool) (tokens : List Token) :
    Except Problem (List Comparison) :=
  match tokens with
  | [] => if negated then .error .danglingNegation else .ok []
  | ⟨.negation, _⟩ :: rest => readChain board (!negated) rest
  | first :: others =>
      match _read : readTest board (first :: others) with
      | .error problem => .error problem
      | .ok (test, []) => .ok [⟨test, negated⟩]
      | .ok (test, joint :: rest) =>
          match joint.kind with
          | .both => do
              let chain ← readChain board false rest
              return ⟨test, negated⟩ :: chain
          | _ => .error (.expectedConjunction joint.render)
termination_by tokens.length
decreasing_by
  · simp
  · obtain ⟨_, _, same⟩ := exists_of_readTest _read
    rw [same]
    simp only [List.length_cons, List.length_append]
    omega

end Comparison

/-- What a comparison becomes: commands that prepare it, and the frame that tests it. -/
structure LoweredTest where
  setup : List Line := []
  frame : Frame

/-- What a chain becomes: commands that prepare it, the frames these stand under, and the frames
that test the whole chain. -/
structure LoweredChain where
  setup : List Line := []
  setupFrames : List Frame
  frames : List Frame

namespace BuildM

def scoreFrame (objective : String) (range : Range) : Frame :=
  .under (self.withScore objective range)

def stepUp (value : Int32) : Int32 :=
  if value = Int32.maxValue then value else value + 1

def stepDown (value : Int32) : Int32 :=
  if value = Int32.minValue then value else value - 1

def rangeFor (op : CompareOp) (value : Int32) : Range :=
  match op with
  | .eq => .exactly value
  | .ne => (Range.exactly value).invert
  | .lt => .atMost (stepDown value)
  | .le => .atMost value
  | .gt => .atLeast (stepUp value)
  | .ge => .atLeast value

/-- Negates a test without negation of its own: a temporary flag marks the entities that pass, and
those without the mark are let through. -/
def lowerNegated (selector : Selector) : BuildM LoweredTest := do
  let mark ← counters (temporary .bool)
  modifyScoreboard (·.keepTemporaries)
  return {
    setup := [.plain (.scoreSet selfTarget mark.name 0),
      ⟨[.under selector], .scoreSet selfTarget mark.name 1⟩]
    frame := scoreFrame mark.name (.exactly 0) }

def literalNumber (literal : Value) : BuildM Single :=
  match literal with
  | .bool value => return .ofInt (if value then 1 else 0)
  | literal => orFail (.incomparableLiteral literal.kindName) literal.number?

def refuseRecord (counter : Counter) : BuildM Unit :=
  match counter.kind with
  | .record _ _ => fail (.incomparableRecord counter.name)
  | _ => return

/-- The commands, score and value by which a counter is compared with a literal. Decimals, on
either side, are compared as fixed-point numbers. -/
def compareLiteral (counter : Counter) (literal : Value) :
    BuildM (List Command × String × Int32) := do
  let number ← literalNumber literal
  let places := literal.precision
  if counter.kind.isIntegerLike && places == 0 then
    return ([], counter.name, number.roundInt32)
  else
    let precision := max counter.kind.precision places
    let (fixed, commands) ← counters (counter.fixedPoint selfTarget precision)
    let factor : Single := .ofInt32 (tenPower precision)
    return (commands, fixed, (number.mul factor).roundInt32)

def difference (left right : Counter) : BuildM (List Command × String) := do
  if left.kind.isIntegerLike && right.kind.isIntegerLike then
    let result ← counters (temporary .int)
    return ([combine selfTarget result.name none left.name,
      combine selfTarget result.name (some .sub) right.name], result.name)
  else
    let precision := max left.kind.precision right.kind.precision
    let (fixedLeft, leftCommands) ← counters (left.fixedPoint selfTarget precision)
    let (fixedRight, rightCommands) ← counters (right.fixedPoint selfTarget precision)
    return (leftCommands ++ rightCommands ++
      [combine selfTarget fixedLeft (some .sub) fixedRight], fixedLeft)

def lowerValue (counter : Counter) (op : CompareOp) (other : Operand) : BuildM LoweredTest := do
  refuseRecord counter
  let (commands, objective, value) ← match other with
    | .literal literal => compareLiteral counter literal
    | .counter accessor => do
        let other ← counters (get accessor)
        refuseRecord other
        let (commands, objective) ← difference counter other
        pure (commands, objective, 0)
  if !commands.isEmpty then modifyScoreboard (·.keepTemporaries)
  return { setup := commands.map .plain, frame := scoreFrame objective (rangeFor op value) }

def countingTag : String := "_mcc_counting"

/-- Counts the entities of a selector into a temporary of the executing entity, which every one
of them finds by a tag. -/
def lowerCount (selector : Selector) (op : CompareOp) (other : Operand) : BuildM LoweredTest := do
  let total ← counters (temporary .int)
  modifyScoreboard (·.keepTemporaries)
  let count : List Line := [
    .plain (.scoreSet selfTarget total.name 0),
    .plain (.tagAdd selfTarget countingTag),
    ⟨[.under selector], .scoreAdd ("@e[tag=" ++ countingTag ++ "]") total.name 1⟩,
    .plain (.tagRemove selfTarget countingTag)]
  match other with
  | .literal literal =>
      let number ← literalNumber literal
      return { setup := count, frame := scoreFrame total.name (rangeFor op number.roundInt32) }
  | .counter accessor =>
      let other ← counters (get accessor)
      if !other.kind.isIntegerLike then
        fail (.incomparableCount other.kind.render other.name)
      let subtract := combine selfTarget total.name (some .sub) other.name
      return {
        setup := count ++ [.plain subtract]
        frame := scoreFrame total.name (rangeFor op 0) }

def lowerFilter (selector : Selector) (negated : Bool) : BuildM LoweredTest :=
  if negated then lowerNegated selector else return { frame := .under selector }

def lowerTest (comparison : Comparison) : BuildM LoweredTest :=
  let negated := comparison.negated
  match comparison.test with
  | .flag counter =>
      return { frame := scoreFrame counter.name (.exactly (if negated then 0 else 1)) }
  | .value counter op other => lowerValue counter (if negated then op.inverted else op) other
  | .self selector => lowerFilter { selector with base := .self } negated
  | .count selector op other => lowerCount selector (if negated then op.inverted else op) other
  | .some selector => lowerCount selector (if negated then .lt else .ge) (.literal (.int 1))
  | .block clause => lowerFilter { self with blockClause := some clause } negated
  | .positioned position =>
      if negated then fail .invertedPosition
      else return { frame := .under { self with offset := some position } }

/-- Lowers comparisons in order onto what the earlier ones have become. A position moves the
preparation of the later ones too. -/
def lowerOnto (lowered : LoweredChain) : List Comparison → BuildM LoweredChain
  | [] => return lowered
  | comparison :: rest => do
      let part ← lowerTest comparison
      let moved := match comparison.test with
        | .positioned _ => [part.frame]
        | _ => []
      lowerOnto {
        setup := lowered.setup ++ part.setup
        setupFrames := lowered.setupFrames ++ moved
        frames := lowered.frames ++ [part.frame] } rest

def lowerChain (chain : List Comparison) : BuildM LoweredChain := do
  let alignment := (← get).active.alignment
  lowerOnto { setupFrames := alignment, frames := alignment } chain

def emitSetup (lowered : LoweredChain) : BuildM Unit :=
  modify fun build =>
    if lowered.setup.isEmpty then build
    else if lowered.setupFrames.isEmpty then build.emitBatchKeeping lowered.setup "compareSetup"
    else
      let inner := { build with frames := build.frames ++ lowered.setupFrames }
      { inner.emitBatch lowered.setup "compareSetup" false with frames := build.frames }

/-- Lets the next statement or block run where a chain holds. The inside of a block of several
statements goes into a file of its own. -/
def guardNext (lowered : LoweredChain) : BuildM Unit := do
  if !(← get).hasNext then fail .noConditionBody
  emitSetup lowered
  modify (·.pushSelector .self)
  let addFrames := fun (build : Build) => { build with frames := build.frames ++ lowered.frames }
  match (← get).nextBlockSize? with
  | none => modify fun build => (addFrames build).popAfterNext
  | some 1 => modify fun build => (addFrames build).enterBlock.popAfterNext
  | some _ =>
      modify fun build =>
        let (file, build) := build.generatedFile "branch" []
        (build.emitLine ⟨lowered.frames, file.call⟩).setHooks {
          opening := [.pushFile file]
          closing := [.popFile, .popSelector] }

def skipEmptyBody : BuildM Bool := do
  if (← get).nextBlockSize? = some 0 then
    modify fun build =>
      (build.pushSelector .self).setHooks { closing := [.popSelector], skip := true }
    return true
  else return false

def runChain (chain : List Comparison) : BuildM Unit := do
  if chain.isEmpty then fail .noConditions
  if ← skipEmptyBody then return
  guardNext (← lowerChain chain)

/-- Runs the next statement or block where the chain does not hold. A single comparison is
negated; of several, a flag keeps whether all hold. -/
def runNegatedChain (chain : List Comparison) : BuildM Unit := do
  match chain with
  | [] => fail .noConditions
  | [single] => runChain [{ single with negated := !single.negated }]
  | chain =>
      if ← skipEmptyBody then return
      let alignment := (← get).active.alignment
      let failed ← counters (temporary .bool)
      modifyScoreboard (·.keepTemporaries)
      modify (·.emitKeeping ⟨alignment, .scoreSet selfTarget failed.name 1⟩)
      let lowered ← lowerChain chain
      emitSetup lowered
      modify (·.emitKeeping ⟨lowered.frames, .scoreSet selfTarget failed.name 0⟩)
      runChain [{ test := .flag failed }]

end BuildM

end ScriptPack
