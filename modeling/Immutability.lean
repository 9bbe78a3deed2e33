import Immutability.Main
import Immutability.Proofs.Checks
import Immutability.Proofs.Analysis
import Immutability.Proofs.Ledger
import Immutability.Proofs.Grounded
import Immutability.Proofs.FrameFlow
import Immutability.Proofs.Policies
import Immutability.Proofs.RequestOrder
import Immutability.Proofs.Termination
import Immutability.Proofs.WriteOnce
import Immutability.Proofs.GivenVerdicts
import Immutability.Proofs.WellFormed
import Immutability.Proofs.PlainRecursion
import Immutability.Proofs.Offsets
import Immutability.Proofs.JsonText
import Immutability.Proofs.ReportText
import Immutability.Proofs.Assembly
import Immutability.Proofs.Receiver
import Immutability.Proofs.Escape
import Immutability.Proofs.Reassignment
import Immutability.Proofs.StoredValues
import Immutability.Proofs.CheckErrors
import Immutability.Proofs.Serving
import Immutability.Proofs.LocalSlots
import Immutability.Proofs.Bounds
import Immutability.Proofs.Agreement
import Immutability.Proofs.ServingOrder
import Immutability.Proofs.Descriptors
import Immutability.Proofs.Listing
import Immutability.Proofs.StackWords
import Immutability.Proofs.CutOrigins
import Immutability.Proofs.ReassignmentRule
import Immutability.Proofs.CheckOrder
import Immutability.Proofs.Join
import Immutability.Proofs.OriginDepth
import Immutability.Proofs.ReportedCycles
import Immutability.Proofs.ArrayTypes
import Immutability.Proofs.CanonicalNames
