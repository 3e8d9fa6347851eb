import MultiDispatch.Main
import MultiDispatch.Proofs.Acceptance
import MultiDispatch.Proofs.Accounting
import MultiDispatch.Proofs.ByteOrder
import MultiDispatch.Proofs.CandidateEntries
import MultiDispatch.Proofs.DispatchSafety
import MultiDispatch.Proofs.ExitStatus
import MultiDispatch.Proofs.ForeignTypes
import MultiDispatch.Proofs.Growth
import MultiDispatch.Proofs.Holdings
import MultiDispatch.Proofs.IndexAsList
import MultiDispatch.Proofs.ManifestModules
import MultiDispatch.Proofs.NullPositions
import MultiDispatch.Proofs.OrderIndependence
import MultiDispatch.Proofs.OutcomeEquality
import MultiDispatch.Proofs.PartialLoading
import MultiDispatch.Proofs.ProbeReports
import MultiDispatch.Proofs.QueryAnswers
import MultiDispatch.Proofs.Redeclaration
import MultiDispatch.Proofs.ReentrantUse
import MultiDispatch.Proofs.Reregistration
import MultiDispatch.Proofs.Reset
import MultiDispatch.Proofs.ResolutionEvents
import MultiDispatch.Proofs.Substitution
import MultiDispatch.Proofs.Survivors
import MultiDispatch.Proofs.TypeAddresses
import MultiDispatch.Proofs.VerdictTests
