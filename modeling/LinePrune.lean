import LinePrune.Command
import LinePrune.FileTree.Setup
import LinePrune.Main
import LinePrune.Proofs.Command.ExitCodes
import LinePrune.Proofs.Command.Noninterference
import LinePrune.Proofs.Command.OptionOrder
import LinePrune.Proofs.Command.Snapshot
import LinePrune.Proofs.Config.Acceptance
import LinePrune.Proofs.Config.PartialTexts
import LinePrune.Proofs.Config.RoundTrip
import LinePrune.Proofs.Config.SpelledPositions
import LinePrune.Proofs.Edit.ByteAccount
import LinePrune.Proofs.Edit.RepeatedRuns
import LinePrune.Proofs.Edit.RunsInParts
import LinePrune.Proofs.Edit.TerminatorKinds
import LinePrune.Proofs.Edit.WiderRules
import LinePrune.Proofs.Line.ByteScan
import LinePrune.Proofs.Line.Normalization
import LinePrune.Proofs.Report.FileName
import LinePrune.Proofs.Report.OutputLines
import LinePrune.Proofs.Report.Transcript
import LinePrune.Proofs.Rules.DefectMessage
import LinePrune.Proofs.Sample.Lines
import LinePrune.Proofs.Selection.Conservation
import LinePrune.Proofs.Selection.EquivalentTriggers
import LinePrune.Proofs.Selection.Occurrences
import LinePrune.Proofs.Selection.RemovedPositions
import LinePrune.Proofs.Target.ReadBack
import LinePrune.Proofs.Text.Escapes
import LinePrune.Proofs.Toml.OrderedKeys
