import Offside.Block.Total
import Offside.SymbolStore
import Offside.Main
import Offside.Proofs.Kinds
import Offside.Proofs.Outcomes
import Offside.Proofs.Outline
import Offside.Proofs.Sections
import Offside.Proofs.Nesting
import Offside.Proofs.Places
import Offside.Proofs.Acceptance
import Offside.Proofs.Reading
import Offside.Proofs.Faults
import Offside.Proofs.Runs
import Offside.Proofs.Emission
import Offside.Proofs.Preservation
import Offside.Proofs.Clashes
import Offside.Proofs.Relabelling
import Offside.Proofs.Indentation
import Offside.Proofs.Numbers
import Offside.Proofs.Definitions
import Offside.Proofs.Extraction
import Offside.Proofs.Cutting
import Offside.Proofs.Sides
import Offside.Proofs.Causes
import Offside.Proofs.Hidden
import Offside.Proofs.Extracts
import Offside.Proofs.Expressions
import Offside.Proofs.Safety
import Offside.Proofs.Comments
import Offside.Proofs.Literals
import Offside.Proofs.Returns
import Offside.Proofs.Braces
import Offside.Proofs.Reports
import Offside.Proofs.History
import Offside.Proofs.Trimming
import Offside.Proofs.Lowercase
import Offside.Proofs.Registrations
import Offside.Proofs.Scanning
import Offside.Proofs.Translation
import Offside.Proofs.Tokens
import Offside.Proofs.Splitting
import Offside.Proofs.Retranslation
import Offside.Proofs.Arguments
import Offside.Proofs.Joining
import Offside.Proofs.Queues
import Offside.Proofs.Taking
import Offside.Proofs.Order
import Offside.Proofs.Shapes
import Offside.Proofs.Signs
import Offside.Proofs.Calls
import Offside.Proofs.Closed
import Offside.Proofs.Empties
import Offside.Proofs.Signatures
import Offside.Proofs.Loops
import Offside.Proofs.Inference
import Offside.Proofs.Grouping
import Offside.Proofs.Masking
import Offside.Proofs.Documents
import Offside.Proofs.Requests
import Offside.Proofs.Invocations
import Offside.Proofs.Commands
