import EventRelay.Accounts.Session
import EventRelay.Event.Document
import EventRelay.Ledger.Document
import EventRelay.Main
import EventRelay.Rehearsal.Stage
import EventRelay.Text.Padding
import EventRelay.Proofs.Ledger.History
import EventRelay.Proofs.Ledger.Copies
import EventRelay.Proofs.Consumer.Course
import EventRelay.Proofs.Crew.Basic
import EventRelay.Proofs.Crew.Chart
import EventRelay.Proofs.Crew.Finality
import EventRelay.Proofs.Crew.Turns
import EventRelay.Proofs.Crew.Selection
import EventRelay.Proofs.Crew.Counting
import EventRelay.Proofs.Crew.Attempts
import EventRelay.Proofs.Crew.Laws
import EventRelay.Proofs.Crew.Lifecycle
import EventRelay.Proofs.Work.History
import EventRelay.Proofs.Consumer.Alarm
import EventRelay.Proofs.Crew.Roster
import EventRelay.Proofs.Crew.Rounds
import EventRelay.Proofs.Crew.Alarms
import EventRelay.Proofs.Crew.Ownership
import EventRelay.Proofs.Crew.Solo
import EventRelay.Proofs.Crew.Groups
import EventRelay.Proofs.Crew.Shapes
import EventRelay.Proofs.Crew.Reopening
import EventRelay.Proofs.Alone.Basic
import EventRelay.Proofs.Retry.Delays
import EventRelay.Proofs.Alone.Delivery
import EventRelay.Proofs.Alone.Outcomes
import EventRelay.Proofs.Alone.Scans
import EventRelay.Proofs.Alone.Life
import EventRelay.Proofs.Scope.Nesting
import EventRelay.Proofs.Ledger.Keys
import EventRelay.Proofs.Producer.Account
import EventRelay.Proofs.Crew.Habits
import EventRelay.Proofs.Crew.Publications
import EventRelay.Proofs.Row.Tending
import EventRelay.Proofs.Row.Treatment
import EventRelay.Proofs.Row.Company
import EventRelay.Proofs.Row.Conditions
import EventRelay.Proofs.Row.Order
import EventRelay.Proofs.Row.Motion
import EventRelay.Proofs.Json.Texts
import EventRelay.Proofs.Json.Numerals
import EventRelay.Proofs.Json.RoundTrip
import EventRelay.Proofs.Crew.Origins
import EventRelay.Proofs.Crew.Dispatches
import EventRelay.Proofs.Crew.DeepPayloads
import EventRelay.Proofs.Ledger.Versions
import EventRelay.Proofs.Crew.Serial
import EventRelay.Proofs.Crew.Trail
import EventRelay.Proofs.Json.Payloads
import EventRelay.Proofs.WorkUnit.Completion
import EventRelay.Proofs.Scope.Abandonment
import EventRelay.Proofs.Daemon.Rehearsed
import EventRelay.Proofs.Ledger.Selection
import EventRelay.Proofs.Routes.Choice
import EventRelay.Proofs.Alone.Independence
import EventRelay.Proofs.Producer.Sequence
import EventRelay.Proofs.Crew.Messages
import EventRelay.Proofs.Time.Sums
import EventRelay.Proofs.Retry.Schedules
import EventRelay.Proofs.Accounts.Agreement
import EventRelay.Proofs.Consumer.Panics
import EventRelay.Proofs.Time.Calendar
import EventRelay.Proofs.Time.DateTexts
import EventRelay.Proofs.Time.Regularity
import EventRelay.Proofs.Json.Accepted
import EventRelay.Proofs.Json.Readers
import EventRelay.Proofs.Ledger.Documents
import EventRelay.Proofs.Work.Paths
import EventRelay.Proofs.Consumer.Acquisition
import EventRelay.Proofs.Ledger.Truncation
