import ScriptPack.Build.Arguments
import ScriptPack.RawText.Interpolation

/-!
Messages to players: in the chat, as titles and on the action bar.
-/

namespace ScriptPack

open BuildM View

/-- Where a message is shown. -/
inductive Display where
  | chat
  | title
  | subtitle
  | actionbar
deriving DecidableEq, Repr

def Display.command (display : Display) (target text : String) : Command :=
  match display with
  | chat => .tellraw target text
  | title => .titleraw target "title" text
  | subtitle => .titleraw target "subtitle" text
  | actionbar => .titleraw target "actionbar" text

def Display.word : Display → String
  | chat => "print"
  | _ => "title"

def BuildM.audience (everyone : Bool) : BuildM String := do
  let build ← get
  return if everyone then "@a" else build.active.render

/-- Shows a message. One with scores is shown by each player on their own, since the scores are
theirs. -/
def BuildM.showMessage (text : String) (display : Display) (everyone : Bool) : BuildM Unit := do
  let message := Message.ofText (← get).scoreboard selfTarget text
  if message.readsScores then
    let commands := message.setup ++ [display.command selfTarget message.rawText]
    if everyone then
      modify fun build =>
        { build with frames := build.frames ++ [Frame.under { base := .players }] }
      emitAll commands display.word
    else emitAllSelected commands display.word
  else emit (display.command (← audience everyone) message.rawText)

def ArgumentM.runPrint (everyone : Bool) : ArgumentM Unit := do
  let text ← next string
  showMessage text .chat everyone

def ArgumentM.runTitleTimes (everyone : Bool) : ArgumentM Unit := do
  let target ← audience everyone
  let fadeIn ← next integer
  let stay ← next integer
  let fadeOut ← next integer
  emit (.titleTimes target fadeIn stay fadeOut)

def ArgumentM.runTitle (place : TitlePlace) (everyone : Bool) : ArgumentM Unit := do
  match ← next? identifier with
  | some word =>
      match Text.lower word, place with
      | "times", _ => runTitleTimes everyone
      | "subtitle", .title => do
          let text ← next string
          showMessage text .subtitle everyone
      | _, .title => fail (.invalidTitleMode word)
      | _, .actionbar => fail (.invalidActionbarMode word)
  | none =>
      let text ← next string
      let display := match place with
        | .title => Display.title
        | .actionbar => .actionbar
      showMessage text display everyone

end ScriptPack
