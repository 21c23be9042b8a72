import BuildConstants.FileTree
import BuildConstants.Main
import BuildConstants.Proofs.Cache.Event
import BuildConstants.Proofs.Generation.Signal
import BuildConstants.Proofs.Generation.Output
import BuildConstants.Proofs.Declaration.Identity
import BuildConstants.Proofs.Cache.Pass
import BuildConstants.Proofs.Cache.History
import BuildConstants.Proofs.Cache.Transparency
import BuildConstants.Proofs.Cache.Place
import BuildConstants.Proofs.Cache.Contents
import BuildConstants.Proofs.Cache.Reuse
import BuildConstants.Proofs.Generation.Isolation
import BuildConstants.Proofs.Generation.Locality
import BuildConstants.Proofs.Generation.Cancellation
import BuildConstants.Proofs.Command.Agreement
import BuildConstants.Proofs.Property.RoundTrip
import BuildConstants.Proofs.Property.Lookup
import BuildConstants.Proofs.Command.Staleness
import BuildConstants.Proofs.Command.Foresight
import BuildConstants.Proofs.Command.Confinement
import BuildConstants.Proofs.SourceUnit.Allocation
import BuildConstants.Proofs.Generation.Extension
import BuildConstants.Proofs.Declaration.Document
import BuildConstants.Proofs.Manifest.Reading
import BuildConstants.Proofs.Property.Resolution
import BuildConstants.Proofs.Declaration.Verdict
import BuildConstants.Proofs.SourceUnit.Literal
import BuildConstants.Proofs.Group.Index
import BuildConstants.Proofs.Text.Replace
import BuildConstants.Proofs.Diagnostic.Message
import BuildConstants.Proofs.Command.Finding
import BuildConstants.Proofs.Command.Notice
import BuildConstants.Proofs.Command.Course
import BuildConstants.Proofs.Command.Failing
import BuildConstants.Proofs.Command.Look
import BuildConstants.Proofs.Command.Aftermath
import BuildConstants.Proofs.Command.Faultless
