import Bulletin.Text.CharSet
import Bulletin.Text.Split
import Bulletin.Text.Columns
import Bulletin.Text.Bytes
import Bulletin.Markup
import Bulletin.Lexer
import Bulletin.Diagnostic
import Bulletin.Binary64
import Bulletin.Value
import Bulletin.Value.Datum
import Bulletin.Error
import Bulletin.Element.Draft
import Bulletin.Engine
import Bulletin.Template.Part
import Bulletin.Template.Variables
import Bulletin.Output
import Bulletin.Control.Scan
import Bulletin.Control.Bindings
import Bulletin.Export
import Bulletin.Proofs.Modes
import Bulletin.Proofs.Printing
import Bulletin.Proofs.Rendering
import Bulletin.Proofs.Scanning
import Bulletin.Proofs.Faults
import Bulletin.Proofs.Segments
import Bulletin.Proofs.Tags
import Bulletin.Proofs.Scopes
import Bulletin.Proofs.Nesting
import Bulletin.Proofs.Recording
import Bulletin.Proofs.Dependence
import Bulletin.Proofs.Keeping
import Bulletin.Proofs.Sending
import Bulletin.Proofs.Supply
import Bulletin.Proofs.Versions
import Bulletin.Proofs.Streaming
import Bulletin.Proofs.Handover
import Bulletin.Proofs.Origins
import Bulletin.Proofs.Dangling
import Bulletin.Proofs.Extension
import Bulletin.Proofs.Layout
import Bulletin.Proofs.Renumbering
import Bulletin.Proofs.Lockstep
import Bulletin.Proofs.Invalid
import Bulletin.Proofs.Strays
import Bulletin.Proofs.Carets
import Bulletin.Proofs.Recall
import Bulletin.Proofs.Progress
import Bulletin.Proofs.Representing
import Bulletin.Proofs.Conversions
import Bulletin.Proofs.Equality
import Bulletin.Proofs.Exports
import Bulletin.Proofs.Registers
