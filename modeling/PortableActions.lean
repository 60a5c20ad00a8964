import PortableActions.ActionTable
import PortableActions.ArgsFiles.Session
import PortableActions.Invocation
import PortableActions.Platform.Detection
import PortableActions.Runner
import PortableActions.Settings.Validation
import PortableActions.Shell.Launcher
import PortableActions.Proofs.CommandLine.Handover
import PortableActions.Proofs.ArgsFiles.Creation
import PortableActions.Proofs.CommandLine.Contribution
import PortableActions.Proofs.CommandLine.Delivery
import PortableActions.Proofs.CommandLine.FirstMarkers
import PortableActions.Proofs.CommandLine.LostEscapes
import PortableActions.Proofs.CommandLine.OpenMarkers
import PortableActions.Proofs.CommandLine.Verbatim
import PortableActions.Proofs.Invocation.Agreement
import PortableActions.Proofs.Invocation.Rendering
import PortableActions.Proofs.Template.Acceptance
import PortableActions.Proofs.Template.Constructs
import PortableActions.Proofs.ArgsFiles.Naming
import PortableActions.Proofs.ArgsFiles.Deletion
import PortableActions.Proofs.ArgsFiles.Ledger
import PortableActions.Proofs.Invocation.Cleanup
import PortableActions.Proofs.Runner.Chain
import PortableActions.Proofs.Template.Printing
import PortableActions.Proofs.Text.Measure
import PortableActions.Proofs.Template.Completion
import PortableActions.Proofs.Invocation.Laziness
import PortableActions.Proofs.CommandLine.Stages
import PortableActions.Proofs.CommandLine.Enclosure
import PortableActions.Proofs.CommandLine.Growth
import PortableActions.Proofs.Invocation.Overflow
import PortableActions.Proofs.Template.Prefixes
import PortableActions.Proofs.Template.Refusals
import PortableActions.Proofs.Template.OptIn
import PortableActions.Proofs.CommandLine.MarkedPath
import PortableActions.Proofs.CommandLine.RoundTrip
import PortableActions.Proofs.Template.Sightings
import PortableActions.Proofs.Template.Wrapping
import PortableActions.Proofs.Template.Strewn
import PortableActions.Proofs.Path.NormalForm
import PortableActions.Proofs.CommandLine.PathLists
import PortableActions.Proofs.Text.Alteration
import PortableActions.Proofs.Path.Alteration
import PortableActions.Proofs.CommandLine.Alteration
import PortableActions.Proofs.Template.Adjacency
import PortableActions.Proofs.CommandLine.Slots
import PortableActions.Proofs.Invocation.References
import PortableActions.Proofs.Template.Composition
import PortableActions.Proofs.Path.Names
import PortableActions.Proofs.CommandLine.NativeWords
import PortableActions.Proofs.CommandLine.Symbols
import PortableActions.Proofs.ArgsFiles.Outcome
import PortableActions.Proofs.CommandLine.AbsolutePaths
import PortableActions.Proofs.Text.Decoding
import PortableActions.Proofs.Text.LineEnds
import PortableActions.Proofs.Invocation.Streaming
import PortableActions.Proofs.CommandLine.DriveColons
