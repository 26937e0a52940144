import Conformance.Calendar.Timestamp
import Conformance.Proofs.Matching.Aliases
import Conformance.Proofs.Matching.Conformity
import Conformance.Proofs.Matching.InOrder
import Conformance.Proofs.Registry.History
import Conformance.Proofs.Registry.Log
import Conformance.Proofs.TypeExpr.RoundTrip
import Conformance.Registry.SettingsReader
import Conformance.Proofs.Matching.Dangling
import Conformance.Proofs.Matching.Errors
import Conformance.Proofs.Check.Agreement
import Conformance.Proofs.Check.Sharing
import Conformance.Proofs.Matching.Extension
import Conformance.Proofs.Matching.Dependence
import Conformance.Proofs.Matching.Weakening
import Conformance.Proofs.Matching.Reordering
import Conformance.Proofs.Matching.Inlining
import Conformance.Proofs.Matching.Pruning
import Conformance.Proofs.Matching.Erasure
import Conformance.Proofs.Matching.Indiscernible
import Conformance.Proofs.Requirement.Description
import Conformance.Proofs.Value.NormalForm
import Conformance.Proofs.Matching.Absence
import Conformance.Proofs.Matching.Cycles
import Conformance.Proofs.Value.Shown
import Conformance.Proofs.Matching.Pointer
import Conformance.Proofs.Matching.Undeclared
import Conformance.Proofs.Matching.Brackets
import Conformance.Proofs.Matching.LinkedLists
import Conformance.Proofs.Registry.Resolution
import Conformance.Proofs.Matching.Instances
import Conformance.Proofs.Registry.Permutation
import Conformance.Proofs.TypeExpr.Rejection
import Conformance.Proofs.Double.Nearest
import Conformance.Proofs.Matching.Integers
