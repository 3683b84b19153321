import Dbml.Main
import Dbml.Proofs.Source.Written
import Dbml.Proofs.Segment.Partition
import Dbml.Proofs.Assembly.Declaration
import Dbml.Proofs.Assembly.Ownership
import Dbml.Proofs.Assembly.Membership
import Dbml.Proofs.Canonical.Document
import Dbml.Proofs.Canonical.Writing
import Dbml.Proofs.Segment.Layout
import Dbml.Proofs.Canonical.Scanning
import Dbml.Proofs.Canonical.Columns
import Dbml.Proofs.Canonical.Tables
import Dbml.Proofs.Canonical.Assembling
import Dbml.Proofs.Segment.Places
import Dbml.Proofs.Segment.Removal
import Dbml.Proofs.Finding.Silent
import Dbml.Proofs.Table.Heading
import Dbml.Proofs.Table.Inline
import Dbml.Proofs.Assembly.Discovery
import Dbml.Proofs.Assembly.FirstDeclaration
import Dbml.Proofs.Statement.Found
import Dbml.Proofs.Statement.Removal
import Dbml.Proofs.Recovery.PassedOver
import Dbml.Proofs.Recovery.Overlooked
import Dbml.Proofs.Assembly.Removal
import Dbml.Proofs.Document.Relationships
import Dbml.Proofs.Document.Recovery
import Dbml.Proofs.Document.SkippedBlock
import Dbml.Proofs.Source.Lossless
import Dbml.Proofs.Token.Printing
import Dbml.Proofs.Model.RoundTrip
import Dbml.Proofs.Respacing.Document
import Dbml.Proofs.Segment.Unclosed
import Dbml.Proofs.Joining.Document
import Dbml.Proofs.Checked.Document
import Dbml.Proofs.Document.Guarded
import Dbml.Proofs.Assembly.Identity
import Dbml.Proofs.Segment.DepthLimit
import Dbml.Proofs.Verbatim.Document
import Dbml.Proofs.LineEnds.Document
import Dbml.Proofs.Document.Aliases
import Dbml.Proofs.Assembly.Kept
import Dbml.Proofs.Table.Body
import Dbml.Proofs.Document.Reaching
import Dbml.Proofs.Document.Colors
import Dbml.Proofs.Document.Session
import Dbml.Proofs.Segment.Unquoted
import Dbml.Proofs.Document.Regrouping
import Dbml.Proofs.CommandLine
import Dbml.Proofs.Model.Presentation
import Dbml.Proofs.Document.Notes
import Dbml.Proofs.Document.PrimaryKeys
import Dbml.Proofs.Document.ColumnLines
import Dbml.Proofs.Document.ReferenceForms
import Dbml.Proofs.Segment.Headers
import Dbml.Proofs.Reference.Targets
import Dbml.Proofs.Table.SettingsOrder
import Dbml.Proofs.Color.Hash
import Dbml.Proofs.Source.Slices
import Dbml.Proofs.Source.Blanked
import Dbml.Proofs.Keywords.Document
import Dbml.Proofs.Source.Partners
import Dbml.Proofs.Source.Commas
import Dbml.Proofs.Source.LineIndex
import Dbml.Proofs.Table.TypeRun
import Dbml.Proofs.Document.Locations
import Dbml.Proofs.Document.Members
