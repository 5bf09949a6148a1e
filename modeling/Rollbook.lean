import Rollbook.Main
import Rollbook.Migration
import Rollbook.Session
import Rollbook.Proofs.Results
import Rollbook.Proofs.Statement
import Rollbook.Proofs.Integrity
import Rollbook.Proofs.Operation
import Rollbook.Proofs.Course
import Rollbook.Proofs.History
import Rollbook.Proofs.AbsentTarget
import Rollbook.Proofs.Seat
import Rollbook.Proofs.Vacancy
import Rollbook.Proofs.Composite
import Rollbook.Proofs.Codec
import Rollbook.Proofs.ClientError
import Rollbook.Proofs.Isolation
import Rollbook.Proofs.Footprint
import Rollbook.Proofs.Outcome
import Rollbook.Proofs.Revised
import Rollbook.Proofs.Taken
import Rollbook.Proofs.Creation
import Rollbook.Proofs.DuplicateText
import Rollbook.Proofs.ReferenceText
import Rollbook.Proofs.Verdict
import Rollbook.Proofs.Untouched
import Rollbook.Proofs.Records
import Rollbook.Proofs.Lookup
import Rollbook.Proofs.Search
import Rollbook.Proofs.Removal
import Rollbook.Proofs.Admission
import Rollbook.Proofs.Overriding
import Rollbook.Proofs.RoundTrip
import Rollbook.Proofs.Reduction
import Rollbook.Proofs.Bytes
import Rollbook.Proofs.Grammar
import Rollbook.Proofs.OrderedTree
import Rollbook.Proofs.Layout
import Rollbook.Proofs.Layering
import Rollbook.Proofs.Withheld
