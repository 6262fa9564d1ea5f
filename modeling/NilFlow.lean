import NilFlow.Policy
import NilFlow.Program.File
import NilFlow.Program.Index
import NilFlow.Proofs.Arrangement
import NilFlow.Proofs.Influence
import NilFlow.Proofs.RoundTrip
import NilFlow.Proofs.Routes
import NilFlow.Proofs.Stabilisation
import NilFlow.Proofs.TriggerIdentity
import NilFlow.Proofs.Uniqueness
import NilFlow.Proofs.Verdicts
import NilFlow.RecordSet.Compare
import NilFlow.RecordSet.Store
import NilFlow.SiteIndex
import NilFlow.Trigger.Build
import NilFlow.Trigger.PayloadCodec
import NilFlow.Proofs.Freshness
import NilFlow.Proofs.Stamping
import NilFlow.Proofs.Settings
import NilFlow.Proofs.PayloadFormat
import NilFlow.Proofs.Matching
import NilFlow.Proofs.NameLookup
import NilFlow.Proofs.ReturnOwners
import NilFlow.Proofs.CanonicalGuards
import NilFlow.Proofs.MergeLog
import NilFlow.Proofs.ReportTexts
import NilFlow.Proofs.UpwardSearch
import NilFlow.Proofs.InsertionHistory
