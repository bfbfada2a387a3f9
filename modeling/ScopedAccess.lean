import ScopedAccess.Main
import ScopedAccess.Proofs.Authorizer.Availability
import ScopedAccess.Proofs.Authorizer.Locality
import ScopedAccess.Proofs.Authorizer.Lookups
import ScopedAccess.Proofs.Authorizer.Recompilation
import ScopedAccess.Proofs.Authorizer.Renewal
import ScopedAccess.Proofs.Authorizer.Tally
import ScopedAccess.Proofs.Http.Agreement
import ScopedAccess.Proofs.ImpliedClosure
import ScopedAccess.Proofs.PermissionText
import ScopedAccess.Proofs.Query.Questions
import ScopedAccess.Proofs.Rearrangement
import ScopedAccess.Proofs.Store.Reconciliation
import ScopedAccess.Proofs.Store.RoundTrip
import ScopedAccess.Store.Migration
