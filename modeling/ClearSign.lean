import ClearSign.Main
import ClearSign.Proofs.ClearSigning
import ClearSign.Proofs.Deviations
import ClearSign.Proofs.Dispatch
import ClearSign.Proofs.Drafts
import ClearSign.Proofs.Envelope
import ClearSign.Proofs.Events
import ClearSign.Proofs.FieldSequences
import ClearSign.Proofs.FirstFault
import ClearSign.Proofs.FixedLength
import ClearSign.Proofs.Isolation
import ClearSign.Proofs.Locality
import ClearSign.Proofs.Recovery
import ClearSign.Proofs.Strictness
import ClearSign.Proofs.Truncation
import ClearSign.Proofs.Canonical.Varint
import ClearSign.Proofs.Reduction
import ClearSign.Proofs.ShortestForm
import ClearSign.Proofs.PrefixedReads
import ClearSign.Proofs.InputLimit
import ClearSign.Proofs.TypeTags
import ClearSign.Proofs.PlainText
import ClearSign.Proofs.ShortAddress
import ClearSign.Proofs.Unescape
import ClearSign.Proofs.ShownNames
import ClearSign.Proofs.Impersonation
import ClearSign.Proofs.HexText
import ClearSign.Proofs.Arguments
import ClearSign.Proofs.Reports
import ClearSign.Proofs.Sessions
