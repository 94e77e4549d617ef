import EventRelay.Accounts.Basic
import EventRelay.Clock
import EventRelay.Surroundings
/-!
# A branch and its clerks

A branch has a ledger in memory, a channel, a clock and three clerks, who handle the events about
accounts. The mailer sends statements on small amounts; the first attempt at each fails. The
reviewer looks at the others, and never gets hold of whom he has to ask. The auditor takes note of
everything that nobody else handles. Failures for good go to an operator. What clerks and operator
have to say goes into a log.
-/

namespace EventRelay.Accounts

/-! ### The log -/

inductive Level where
  | info
  | warning
  | error
  deriving DecidableEq, Repr

structure LogLine where
  level : Level
  message : String
  /-- Texts and whole numbers by name. -/
  fields : List (String × Json)

/-! ### Clerks -/

/-- Those who handle events, in the order in which they are asked. -/
inductive Clerk where
  | mailer
  | reviewer
  | auditor
  deriving DecidableEq, Repr

namespace Clerk

def all : List Clerk := [.mailer, .reviewer, .auditor]

/-- The types of events that change a balance. -/
def movements : EventTypes := .many ["account.withdrawn", "account.deposited"]

def types : Clerk → EventTypes
  | .mailer | .reviewer => movements
  | .auditor => .all

/-- Statements are mailed on amounts below this one. -/
def reviewedFrom : Int := 1000

/-- Which events a clerk takes. An event without an amount counts as one of zero. -/
def accepts (c : Clerk) (event : Event) : Bool :=
  match c with
  | .mailer => ((event.payload.get "amount").signed?.getD 0) < reviewedFrom
  | .reviewer | .auditor => true

end Clerk

def handlers : List Handler :=
  Clerk.all.mapIdx fun slot clerk => ⟨slot, clerk.types⟩

/-! ### The branch -/

structure Branch where
  store : Store := .empty
  clock : Clock
  channel : Broadcast
  /-- The events on which the mailer has tried to send a statement. -/
  tried : List String := []
  log : List LogLine := []

namespace Branch

def say (b : Branch) (level : Level) (message : String) (fields : List (String × Json)) : Branch :=
  { b with log := b.log ++ [⟨level, message, fields⟩] }

def handle (b : Branch) (event : Event) : Clerk → Verdict × Branch
  | .mailer =>
    if b.tried.contains event.id then
      (.ok, b.say .info "statement mailed"
        [("event_id", .text event.id), ("payload", .text event.payload.toText)])
    else (.failed "smtp relay timed out", { b with tried := event.id :: b.tried })
  | .reviewer => (.failed ("fraud service unavailable for " ++ event.id), b)
  | .auditor =>
    (.ok, b.say .info "audited"
      [("event_id", .text event.id), ("event_type", .text event.eventType)])

def notify (b : Branch) (notice : Escalation.Notice) : Branch :=
  b.say .error "operator notified" [("subject", .text notice.subject), ("body", .text notice.body)]

def reply : Work.Replies Branch
  | .now, b => (.done b.clock.now, b)
  | .find key, b => (.done (.ok (b.store.find? key)), b)
  | .create record, b =>
    let (creation, store) := b.store.create record
    (.done (.ok creation), { b with store })
  | .update record, b =>
    let (done, store) := b.store.update record
    (.ofChecked (done.map .ok), { b with store })
  | .tombstone record now, b =>
    let (done, store) := b.store.tombstone record now
    (.ofChecked (done.map .ok), { b with store })
  | .due now limit, b => (.done (.ok (b.store.due now limit)), b)
  | .send event, b =>
    let (result, channel) := b.channel.send event
    (.done result, { b with channel })
  | .accepts slot event, b =>
    (.done (.ok ((Clerk.all[slot]?.map (·.accepts event)).getD false)), b)
  | .handle slot event, b =>
    match Clerk.all[slot]? with
    | none => (.stalled, b)
    | some clerk =>
      let (verdict, b) := b.handle event clerk
      (.done verdict, b)
  | .supports _ _, b => (.done (.ok true), b)
  | .escalate _ event record reason, b =>
    (.done .ok, b.notify (Escalation.notice event record reason))

/-- The branch as a daemon sees it. Its clock goes with the time that passes for the daemon. -/
def surroundings : Surroundings Branch where
  reply := reply
  subscribe b :=
    let (receiver, channel) := b.channel.subscribe
    (some receiver, { b with channel })
  unsubscribe receiver b := { b with channel := b.channel.unsubscribe receiver }
  receive receiver b :=
    let (item?, channel) := b.channel.receive receiver
    (item?, { b with channel })
  waiting receiver b := b.channel.waiting receiver
  elapse span b := { b with clock := b.clock.set (b.clock.now.plus span) }

end Branch

end EventRelay.Accounts
