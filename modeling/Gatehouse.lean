import Gatehouse.Admission.Exact
import Gatehouse.Logging
import Gatehouse.Main
import Gatehouse.Storage.Memory
import Gatehouse.Storage.Watched
import Gatehouse.Proofs.Admission.Life
import Gatehouse.Proofs.Admission.ExactBucket
import Gatehouse.Proofs.Admission.Windows
import Gatehouse.Proofs.Admission.Alike
import Gatehouse.Proofs.Admission.Sweeping
import Gatehouse.Proofs.Admission.Isolation
import Gatehouse.Proofs.Guard.Order
import Gatehouse.Proofs.Text.Bytes
import Gatehouse.Proofs.Json.Text
import Gatehouse.Proofs.Json.Number
import Gatehouse.Proofs.Json.RoundTrip
import Gatehouse.Proofs.Json.Depth
import Gatehouse.Proofs.Json.Numeral
import Gatehouse.Proofs.Json.Reread
import Gatehouse.Proofs.Storage.Document
import Gatehouse.Proofs.Storage.Store
import Gatehouse.Proofs.FileTree
import Gatehouse.Proofs.Storage.Folder
import Gatehouse.Proofs.Storage.Refinement
import Gatehouse.Proofs.Storage.Replacing
import Gatehouse.Proofs.Storage.Failure
import Gatehouse.Proofs.Storage.Crash
import Gatehouse.Proofs.Lifecycle.Course
import Gatehouse.Proofs.Lifecycle.WholeLife
import Gatehouse.Proofs.Storage.Exchange
import Gatehouse.Proofs.Account.Session
import Gatehouse.Proofs.Storage.Ownership
import Gatehouse.Proofs.Lifecycle.Sharing
import Gatehouse.Proofs.Storage.Handles
import Gatehouse.Proofs.Storage.Reopening
import Gatehouse.Proofs.Storage.Rereading
import Gatehouse.Proofs.Settings.Accepted
import Gatehouse.Proofs.Admission.Levels
import Gatehouse.Proofs.Admission.Overlap
import Gatehouse.Proofs.Admission.Waiting
import Gatehouse.Proofs.Admission.Specificity
import Gatehouse.Proofs.Admission.Refusal
import Gatehouse.Proofs.Admission.FullBucket
import Gatehouse.Proofs.Admission.Bookkeeping
import Gatehouse.Proofs.Guard.Permission
import Gatehouse.Proofs.Guard.RetryAfter
import Gatehouse.Proofs.Guard.Books
import Gatehouse.Proofs.Account.Record
import Gatehouse.Proofs.Storage.Custody
import Gatehouse.Proofs.Account.Register
import Gatehouse.Proofs.Http.Passage
import Gatehouse.Proofs.Admission.Coverage
import Gatehouse.Proofs.Admission.RouteRequests
import Gatehouse.Proofs.Account.Fields
import Gatehouse.Proofs.Account.Survival
import Gatehouse.Proofs.Admission.LiveBuckets
import Gatehouse.Proofs.Lifecycle.Parts
import Gatehouse.Proofs.Lifecycle.OneCleanUp
import Gatehouse.Proofs.CommandLine.Words
import Gatehouse.Proofs.CommandLine.Options
import Gatehouse.Proofs.CommandLine.Lines
import Gatehouse.Proofs.Settings.Omission
import Gatehouse.Proofs.Settings.Sources
