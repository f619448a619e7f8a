import FlowDecl.Files.Tree
import FlowDecl.Interchange.Encode
import FlowDecl.Main
import FlowDecl.Names.Registry
import FlowDecl.Options.Writer
import FlowDecl.Proofs.Emission
import FlowDecl.Proofs.Files.FileNames
import FlowDecl.Proofs.Files.Tree
import FlowDecl.Proofs.Interchange.Defects
import FlowDecl.Proofs.Interchange.History
import FlowDecl.Proofs.Interchange.RoundTrip
import FlowDecl.Proofs.Interchange.Unseen
import FlowDecl.Proofs.Layout.Brackets
import FlowDecl.Proofs.Layout.FilledPositions
import FlowDecl.Proofs.Layout.Lines
import FlowDecl.Proofs.Layout.PrintOptions
import FlowDecl.Proofs.Layout.ProgramLines
import FlowDecl.Proofs.Layout.Relocation
import FlowDecl.Proofs.Layout.SinkRuns
import FlowDecl.Proofs.Layout.Unambiguity
import FlowDecl.Proofs.Layout.UnionRenderings
import FlowDecl.Proofs.Names.Sharing
import FlowDecl.Proofs.Options.RoundTrip
import FlowDecl.Proofs.Placement.OutputPath
import FlowDecl.Proofs.Run.Accounting
import FlowDecl.Proofs.Run.Outputs
import FlowDecl.Proofs.Run.Settings
import FlowDecl.Tree
