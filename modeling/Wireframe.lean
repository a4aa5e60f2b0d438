import Wireframe.Main
import Wireframe.Markup.Table
import Wireframe.Proofs.Patch.Edit
import Wireframe.Proofs.Document.Canonical
import Wireframe.Proofs.Document.Fingerprint
import Wireframe.Proofs.Document.WellFormed
import Wireframe.Proofs.Command.Rereading
import Wireframe.Proofs.Command.Refusals
import Wireframe.Proofs.Digest.Framing
import Wireframe.Proofs.Markup.WellFormed
import Wireframe.Proofs.Markup.Outline
import Wireframe.Proofs.Command.Gate
import Wireframe.Proofs.Bundle.Erasure
import Wireframe.Proofs.Document.Ambiguity
import Wireframe.Proofs.Bundle.StyleReading
import Wireframe.Proofs.Bundle.StyleSheet
import Wireframe.Proofs.Document.Reports
import Wireframe.Proofs.Document.Unknown
import Wireframe.Proofs.Patch.InPlace
import Wireframe.Proofs.Patch.Sequence
import Wireframe.Proofs.Patch.Spelling
import Wireframe.Proofs.Patch.Batch
import Wireframe.Proofs.Node.Frame
import Wireframe.Proofs.Patch.Freshness
import Wireframe.Proofs.Document.Strictness
import Wireframe.Proofs.Calendar.Count
import Wireframe.Proofs.Calendar.Order
import Wireframe.Proofs.Calendar.Text
import Wireframe.Proofs.Codec.Exchange
import Wireframe.Proofs.Document.CreatedAt
import Wireframe.Proofs.Patch.RoundTrip
import Wireframe.Proofs.Command.Generation
import Wireframe.Proofs.Bundle.ScriptReading
import Wireframe.Proofs.Bundle.Shells
import Wireframe.Proofs.Bundle.Manifest
import Wireframe.Proofs.Markup.Entities
import Wireframe.Proofs.Node.Search
