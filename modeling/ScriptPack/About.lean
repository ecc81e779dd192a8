import ScriptPack.Build.State

/-!
What the program says about itself.
-/

namespace ScriptPack.About

def name : String := "mcc"

def version : String := "0.1.0"

def description : String :=
  "MCCompiled - compile MCC scripts into Minecraft Bedrock function trees"

def languageVersion : String := Build.languageVersion

def features : List String := Feature.all.map Feature.name

def supports (feature : String) : Bool :=
  features.contains feature

end ScriptPack.About
