import ScriptPack.Build.State

/-!
The stacks of selectors and files, and the blocks that push and pop them.
-/

namespace ScriptPack

namespace Build

def setActive (build : Build) (selector : Selector) : Build :=
  { build with active := selector }

def pushSelector (build : Build) (selector : Selector) : Build :=
  { build with active := selector, outerSelectors := build.active :: build.outerSelectors }

def popSelector (build : Build) : Build :=
  match build.outerSelectors with
  | [] => build
  | selector :: rest => { build with active := selector, outerSelectors := rest }

/-- Makes `@s` name the selected entities: under a selector that `@s` does not name, the next
command is executed by its entities. -/
def align (build : Build) : Build :=
  if build.active.needsAlign then
    let build := { build with frames := build.frames ++ [Frame.under build.active] }
    build.pushSelector .self
  else build.pushSelector build.active

def pushFile (build : Build) (file : CommandFile) : Build :=
  { build with file, outerFiles := build.file :: build.outerFiles }

def popFile (build : Build) : Build :=
  match build.outerFiles with
  | [] => { build with unreachable := none }
  | file :: rest =>
      { build with
        file
        outerFiles := rest
        pack := build.pack.addFile build.file
        unreachable := none }

def apply (build : Build) : BlockAction → Build
  | .pushSelector selector => build.pushSelector selector
  | .popSelector => build.popSelector
  | .pushFile file => build.pushFile file
  | .popFile => build.popFile

def openBlock (build : Build) (size : Nat) : Build :=
  let hooks := build.pendingBlock.getD {}
  let build := { build with pendingBlock := none }
  let build :=
    if hooks.skip then { build with upcoming := build.upcoming.drop size }
    else hooks.opening.foldl apply build
  { build with openBlocks := hooks.closing :: build.openBlocks, unreachable := none }

def closeBlock? (build : Build) : Option Build :=
  match build.openBlocks with
  | [] => none
  | actions :: rest =>
      some { actions.foldl apply { build with openBlocks := rest } with unreachable := none }

def enterBlock (build : Build) : Build :=
  match build.upcoming with
  | statement :: rest =>
      if statement.isOpenBlock then
        { build with upcoming := rest, openBlocks := [] :: build.openBlocks }
      else build
  | [] => build

def setHooks (build : Build) (hooks : BlockHooks) : Build :=
  { build with pendingBlock := some hooks }

def markUnreachable (build : Build) : Build :=
  { build with unreachable := some 1 }

def popAfterNext (build : Build) : Build :=
  { build with pendingPops := 2 :: build.pendingPops }

/-- Counts a statement for the innermost scheduled pop. A pop that comes due also completes the
statement that the one around it waits for. The result is how many come due and those that still
wait. -/
def countDown : List Nat → Nat × List Nat
  | [] => (0, [])
  | waiting :: rest =>
      if waiting ≤ 1 then
        let (due, rest) := countDown rest
        (due + 1, rest)
      else (0, (waiting - 1) :: rest)

/-- Pops the selectors that are due after a statement. Frames that the statement has not used go
with them, and code after a halt under a condition is reachable. -/
def settlePops (build : Build) : Build :=
  let (due, pendingPops) := countDown build.pendingPops
  if due == 0 then { build with pendingPops }
  else
    let build := Nat.repeat popSelector due build
    { build with pendingPops, frames := [], unreachable := none }

def rememberCondition (build : Build) (tokens : List Token) : Build :=
  { build with lastConditions := build.lastConditions.insert build.depth tokens }

def lastCondition? (build : Build) : Option (List Token) :=
  build.lastConditions.get? build.depth

def rememberChoice (build : Build) (chosen : Bool) : Build :=
  { build with lastChoices := build.lastChoices.insert build.depth chosen }

def lastChoice? (build : Build) : Option Bool :=
  build.lastChoices.get? build.depth

end Build

def BuildM.aligned (step : BuildM Unit) : BuildM Unit := do
  modify Build.align
  step
  modify Build.popSelector

/-- The body that follows a directive: the inside of a block, or a single statement. It is taken
off the statements to run. -/
def BuildM.takeBody : BuildM (List Statement) := do
  let build ← get
  match build.upcoming with
  | [] => fail .emptyBody
  | statement :: rest =>
      match statement.size? with
      | none =>
          set { build with upcoming := rest }
          return [statement]
      | some 0 => fail .emptyBody
      | some size =>
          set { build with upcoming := rest.drop (size + 1) }
          return rest.take size

def BuildM.takeStatement? : BuildM (Option Statement) :=
  modifyGet fun build =>
    match build.upcoming with
    | [] => (none, build)
    | statement :: rest => (some statement, { build with upcoming := rest })

end ScriptPack
