import Allotment.Adjustment
import Allotment.Controller.Backend
import Allotment.Controller.Basic
import Allotment.Controller.Bench
import Allotment.Controller.Schedule
import Allotment.Controller.Store
import Allotment.Daemon.Service
import Allotment.Daemon.Settings
import Allotment.Decimal.Literal
import Allotment.Decimal.Shortest
import Allotment.Dict
import Allotment.Encoding.Inventory
import Allotment.Encoding.Outcome
import Allotment.Encoding.Words
import Allotment.Encoding.Workload
import Allotment.Inventory
import Allotment.Json.Printer
import Allotment.Json.Reader
import Allotment.Json.Record
import Allotment.Json.Value
import Allotment.Ledger
import Allotment.Main
import Allotment.Notice
import Allotment.Numeral
import Allotment.Outcome
import Allotment.Plan.Basic
import Allotment.Plan.Candidates
import Allotment.Plan.Guard
import Allotment.Policy.Cascade
import Allotment.Policy.Effective
import Allotment.Policy.Options
import Allotment.Policy.ProcessDefaults
import Allotment.Policy.Setting
import Allotment.Quantity.Basic
import Allotment.Quantity.Printer
import Allotment.Quantity.Reader
import Allotment.Quantity.Suffix
import Allotment.Recommendation
import Allotment.Resource
import Allotment.Schedule.Basic
import Allotment.Schedule.Field
import Allotment.Schedule.Occurrence
import Allotment.Text
import Allotment.Time.Calendar
import Allotment.Time.Draw
import Allotment.Time.Span
import Allotment.Timetable.Action
import Allotment.Timetable.Basic
import Allotment.Timetable.Clock
import Allotment.Timetable.Drill
import Allotment.Workload
import Allotment.Proofs.Plan.Pass
import Allotment.Proofs.Plan.Settled
import Allotment.Proofs.Plan.Difference
import Allotment.Proofs.Quantity.Order
import Allotment.Proofs.Plan.Typing
import Allotment.Proofs.Encoding.Typing
import Allotment.Proofs.Plan.History
import Allotment.Proofs.Quantity.RoundTrip
import Allotment.Proofs.Encoding.RoundTrip
import Allotment.Proofs.Plan.Persisted
import Allotment.Proofs.Controller.ScheduledRun
import Allotment.Proofs.Controller.Convergence
import Allotment.Proofs.Daemon.DryRun
import Allotment.Proofs.Time.Calendar
import Allotment.Proofs.Schedule.Search
import Allotment.Proofs.Timetable.Step
import Allotment.Proofs.Timetable.Exclusion
import Allotment.Proofs.Policy.Scope
import Allotment.Proofs.Plan.TextGate
import Allotment.Proofs.Controller.Effects
import Allotment.Proofs.Controller.Review
import Allotment.Proofs.Policy.Rejected
import Allotment.Proofs.Timetable.Caller
import Allotment.Proofs.Timetable.Board
import Allotment.Proofs.Controller.Tracking
import Allotment.Proofs.Inventory.Listing
import Allotment.Proofs.Timetable.Retirement
import Allotment.Proofs.Plan.Comparisons
import Allotment.Proofs.Encoding.Documents
import Allotment.Proofs.Plan.MinDiff
import Allotment.Proofs.Reading
import Allotment.Proofs.Text.Blanks
import Allotment.Proofs.Plan.Independence
import Allotment.Proofs.Plan.DerivedLimit
import Allotment.Proofs.Quantity.Grammar
import Allotment.Proofs.Quantity.Steps
import Allotment.Proofs.Schedule.Grammar
import Allotment.Proofs.Plan.Reordering
import Allotment.Proofs.Quantity.CanonicalText
import Allotment.Proofs.Schedule.Horizon
import Allotment.Proofs.Time.SpanGrammar
import Allotment.Proofs.Time.SpanScan
import Allotment.Proofs.Keys
import Allotment.Proofs.Plan.Unprovided
import Allotment.Proofs.Inventory.Faithful
import Allotment.Proofs.Controller.Reporting
import Allotment.Proofs.Policy.Defaults
