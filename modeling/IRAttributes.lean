import IRAttributes.Description
import IRAttributes.Json.Form
import IRAttributes.Request
import IRAttributes.Proofs.Access
import IRAttributes.Proofs.Alignment
import IRAttributes.Proofs.Applying
import IRAttributes.Proofs.Ascending
import IRAttributes.Proofs.Batches
import IRAttributes.Proofs.Building
import IRAttributes.Proofs.Clashes
import IRAttributes.Proofs.Complaints
import IRAttributes.Proofs.Copying
import IRAttributes.Proofs.Counting
import IRAttributes.Proofs.Departures
import IRAttributes.Proofs.Forms
import IRAttributes.Proofs.Joint
import IRAttributes.Proofs.Lasting
import IRAttributes.Proofs.Legality
import IRAttributes.Proofs.Looking
import IRAttributes.Proofs.Lookups
import IRAttributes.Proofs.Merging
import IRAttributes.Proofs.MapLaws
import IRAttributes.Proofs.Narrowing
import IRAttributes.Proofs.NormalForm
import IRAttributes.Proofs.Numbering
import IRAttributes.Proofs.Padding
import IRAttributes.Proofs.Precedence
import IRAttributes.Proofs.Readback
import IRAttributes.Proofs.Recording
import IRAttributes.Proofs.Reordering
import IRAttributes.Proofs.Refusal
import IRAttributes.Proofs.Revision
import IRAttributes.Proofs.Shares
import IRAttributes.Proofs.Shelves
import IRAttributes.Proofs.Shortcuts
import IRAttributes.Proofs.Spelling
import IRAttributes.Proofs.Transcript
import IRAttributes.Proofs.Vetting
