import ScriptPack.Command.Basic
import ScriptPack.Selector.Printer

/-!
Lines of command files. A line is a command under the frames that decide who executes it, where,
and under which tests; frames are written in front of the command, outermost first.
-/

namespace ScriptPack

inductive Frame where
  /-- Executed by the entities of a selector. -/
  | under (selector : Selector)
  /-- Executed under a text given from outside. -/
  | given (text : String)
deriving DecidableEq, Repr

def Frame.render : Frame → String
  | under selector => selector.executeText
  | given text => text

def Frame.ofText (text : String) : List Frame :=
  if text.isEmpty then [] else [.given text]

def Frame.renderAll (frames : List Frame) : String :=
  String.join (frames.map render)

structure Line where
  frames : List Frame := []
  command : Command
deriving DecidableEq, Repr

def Line.plain (command : Command) : Line :=
  { command }

def Line.within (frames : List Frame) (line : Line) : Line :=
  { line with frames := frames ++ line.frames }

def Line.render (line : Line) : String :=
  Frame.renderAll line.frames ++ line.command.render

def Selector.alignment (selector : Selector) : List Frame :=
  if selector.needsAlign then [.under selector] else []

end ScriptPack
