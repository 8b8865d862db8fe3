import ScenarioDocs.Command.Run
import ScenarioDocs.Discovery.Coverage
import ScenarioDocs.Document.Replacement
import ScenarioDocs.Document.Shown
import ScenarioDocs.FileSystem.Tree
import ScenarioDocs.Findings.Reader
import ScenarioDocs.Main
import ScenarioDocs.Proofs.Document.Current
import ScenarioDocs.Proofs.Document.Interrupted
import ScenarioDocs.Proofs.FileSystem.Directories
import ScenarioDocs.Proofs.Marker.Reading
import ScenarioDocs.Proofs.Path.Steps
import ScenarioDocs.Proofs.Schema.Decoding
import ScenarioDocs.Proofs.Source.RoundTrip
import ScenarioDocs.Proofs.Source.Spelling
import ScenarioDocs.Proofs.FileSystem.Tree
import ScenarioDocs.Proofs.Discovery.Batches
import ScenarioDocs.Proofs.Source.Locations
import ScenarioDocs.Proofs.Discovery.Opening
import ScenarioDocs.Proofs.Discovery.Coverage
import ScenarioDocs.Proofs.Discovery.Scopes
import ScenarioDocs.Proofs.FileSystem.Growth
import ScenarioDocs.Proofs.FileSystem.Later
import ScenarioDocs.Proofs.Document.Locks
import ScenarioDocs.Proofs.Document.Exclusive
import ScenarioDocs.Proofs.Document.Apart
import ScenarioDocs.Proofs.Document.Turns
import ScenarioDocs.Proofs.Document.Attempts
import ScenarioDocs.Proofs.Document.Generating
import ScenarioDocs.Proofs.Findings.RoundTrip
import ScenarioDocs.Proofs.Config.RoundTrip
import ScenarioDocs.Proofs.Schema.Acceptance
import ScenarioDocs.Proofs.Source.Independence
import ScenarioDocs.Proofs.Document.Persisting
import ScenarioDocs.Proofs.Document.Confined
import ScenarioDocs.Proofs.Command.Touches
import ScenarioDocs.Proofs.Source.Schemas
import ScenarioDocs.Proofs.Marker.Faults
import ScenarioDocs.Proofs.Marker.Printing
import ScenarioDocs.Proofs.Discovery.Appending
import ScenarioDocs.Proofs.Discovery.Ways
import ScenarioDocs.Proofs.Discovery.Order
import ScenarioDocs.Proofs.Discovery.Recursive
import ScenarioDocs.Proofs.Config.DocumentPath
import ScenarioDocs.Proofs.Source.Spacing
import ScenarioDocs.Proofs.Discovery.SourcePaths
