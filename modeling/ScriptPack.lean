import ScriptPack.Digest
import ScriptPack.Main
import ScriptPack.Proofs.ArgumentLists
import ScriptPack.Proofs.ArgumentPassing
import ScriptPack.Proofs.Bindings
import ScriptPack.Proofs.Choices
import ScriptPack.Proofs.ConditionGrammar
import ScriptPack.Proofs.DecimalPlaces
import ScriptPack.Proofs.DeclaredOnce
import ScriptPack.Proofs.DistinctScores
import ScriptPack.Proofs.FilePaths
import ScriptPack.Proofs.Flags
import ScriptPack.Proofs.GeneratedNames
import ScriptPack.Proofs.GuardedAssignment
import ScriptPack.Proofs.KeptTemporaries
import ScriptPack.Proofs.Leaks
import ScriptPack.Proofs.MessageTexts
import ScriptPack.Proofs.Reach
import ScriptPack.Proofs.Reductions
import ScriptPack.Proofs.ScoreRanges
import ScriptPack.Proofs.SelectorMerge
import ScriptPack.Proofs.SetupPositions
import ScriptPack.Proofs.TokenLines
import ScriptPack.Proofs.Unreachable
import ScriptPack.Proofs.VariableUpdates
