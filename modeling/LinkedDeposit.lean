import LinkedDeposit.Http.Script
import LinkedDeposit.Main
import LinkedDeposit.Rdf.Exchange
import LinkedDeposit.Proofs.Deposit.Placement
import LinkedDeposit.Proofs.Deposit.WalkTranscript
import LinkedDeposit.Proofs.Deposit.RunTranscript
import LinkedDeposit.Proofs.Deposit.Finish
import LinkedDeposit.Proofs.Deposit.Announcement
import LinkedDeposit.Proofs.Deposit.Coverage
import LinkedDeposit.Proofs.Repository.Evolution
import LinkedDeposit.Proofs.Repository.Operation
import LinkedDeposit.Proofs.Repository.Schedule
import LinkedDeposit.Proofs.Repository.Coherence
import LinkedDeposit.Proofs.Repository.Serial
import LinkedDeposit.Proofs.Repository.LostUpdate
import LinkedDeposit.Proofs.Deposit.Minted
import LinkedDeposit.Proofs.Link.Rewrite
import LinkedDeposit.Proofs.Link.Rebase
import LinkedDeposit.Proofs.Ldp.Address
import LinkedDeposit.Proofs.Deposit.InMemory
import LinkedDeposit.Proofs.Deposit.Linked
import LinkedDeposit.Proofs.Package.Distinct
import LinkedDeposit.Proofs.Deposit.Fresh
import LinkedDeposit.Proofs.Deposit.Progress
import LinkedDeposit.Proofs.Ldp.PatchModes
import LinkedDeposit.Proofs.Rdf.Reading
import LinkedDeposit.Proofs.Rdf.Upload
import LinkedDeposit.Proofs.Deposit.Unlinked
import LinkedDeposit.Proofs.Ldp.Operation
import LinkedDeposit.Proofs.Ldp.Exchange
import LinkedDeposit.Proofs.Rdf.Refusal
import LinkedDeposit.Proofs.Ldp.Conversation
import LinkedDeposit.Proofs.Ldp.Work
import LinkedDeposit.Proofs.Url.Below
import LinkedDeposit.Proofs.Ldp.Finishing
import LinkedDeposit.Proofs.Ldp.Ending
import LinkedDeposit.Proofs.Ldp.Confinement
import LinkedDeposit.Proofs.Ldp.Canonical
import LinkedDeposit.Proofs.Rdf.FreshLabels
import LinkedDeposit.Proofs.Rdf.Telling
import LinkedDeposit.Proofs.Rdf.Flattening
import LinkedDeposit.Proofs.Rdf.NTriples
import LinkedDeposit.Proofs.Rdf.Injection
import LinkedDeposit.Proofs.Package.Alike
import LinkedDeposit.Proofs.Package.Forms
import LinkedDeposit.Proofs.Link.Renamed
import LinkedDeposit.Proofs.Link.Settled
import LinkedDeposit.Proofs.Link.Skolem
import LinkedDeposit.Proofs.Package.Accepted
import LinkedDeposit.Proofs.Rdf.Naming
import LinkedDeposit.Proofs.Repository.Structure
import LinkedDeposit.Proofs.Deposit.Crowd
import LinkedDeposit.Proofs.Deposit.Twins
import LinkedDeposit.Proofs.Deposit.Alongside
import LinkedDeposit.Proofs.Deposit.Undisturbed
import LinkedDeposit.Proofs.Deposit.Interference
import LinkedDeposit.Proofs.Deposit.AllOrNothing
import LinkedDeposit.Proofs.Rdf.SameText
import LinkedDeposit.Proofs.Rdf.Update
import LinkedDeposit.Proofs.Rdf.LeastPatch
import LinkedDeposit.Proofs.Link.Locality
import LinkedDeposit.Proofs.Repository.Failure
import LinkedDeposit.Proofs.Session.Lifetime
import LinkedDeposit.Proofs.Ldp.Lifetime
import LinkedDeposit.Proofs.Ldp.Condition
import LinkedDeposit.Proofs.Text.Cutting
import LinkedDeposit.Proofs.Json.Quoting
import LinkedDeposit.Proofs.Json.Written
import LinkedDeposit.Proofs.Event.Sinks
import LinkedDeposit.Proofs.Deposit.Breach
import LinkedDeposit.Proofs.Ldp.LinkHeader
import LinkedDeposit.Proofs.Package.TopLevel
import LinkedDeposit.Proofs.Package.Inside
