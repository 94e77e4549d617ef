import EventRelay.Codec
import EventRelay.Escalation
import EventRelay.Ledger.Guarded
import EventRelay.Ledger.Message
import EventRelay.Retry
import EventRelay.Routes
/-!
# Consuming events

A consumer takes an event, makes one handler try it, and writes down how that went. The ledger row
under the event's key decides who may try: on a first delivery (`Consumer.deliver`) the worker that
creates the row, on a later one (`Consumer.redeliver`) whoever finds it waiting. The result is a
guarded write, so of several workers at one row a single one gets its result stored.

What a handler does wrong, a panic included, becomes a planned retry, or once the retries are used
up a final failure, which is escalated. Only the ledger's own errors reach the caller.
-/

namespace EventRelay

structure Consumer where
  config : Config
  routes : Routes
  rule : RetryRule
  chain : List Nat
  codec : Codec

namespace Consumer

inductive Outcome where
  | succeeded
  /-- Somebody has handled the event, or is about to. -/
  | skipped (status : Status)
  | rescheduled (retryTimes : Nat) (nextRetryTime : Instant)
  | failed
  | unhandled
  | missing
  /-- The row has moved on during the attempt, whose result is lost. -/
  | conflict
  deriving DecidableEq, Repr

def key (c : Consumer) (eventId : String) : Key :=
  .active eventId .consume c.config.ownerGroup

/-- Until when a worker that starts now may hold its row. Then the row is due for a retry. -/
def leaseUntil (c : Consumer) (now : Instant) : Instant :=
  now.plus c.config.processingTimeout

/-- The row for an event that nobody has tried yet. It is held by its creator from the start. -/
def freshRecord (c : Consumer) (event : Event) (payload : Bytes) (now : Instant) : Record where
  id := 0
  eventId := event.id
  action := .consume
  ownerGroup := c.config.ownerGroup
  ownerName := c.config.ownerName
  eventType := event.eventType
  status := .retrying
  payload := some payload
  message := none
  retryTimes := 0
  maxRetryTimes := event.maxRetries c.config.defaultMaxRetries
  nextRetryTime := some (c.leaseUntil now)
  version := 0
  deleteMarker := 0
  createTime := now
  updateTime := now

/-! ### Who may try -/

/-- Whether a worker got hold of the row for an event. -/
inductive Hold where
  | owned (r : Record)
  /-- The row belongs to somebody else, or is finished. -/
  | busy (status : Status)
  deriving DecidableEq, Repr

def claim (c : Consumer) (r : Record) : Work (Except Error (Option Record)) :=
  .ask .now fun now => r.write (.claimed (c.leaseUntil now))

/-- Gets hold of a row that is there: only one that is merely created can be taken over. -/
def join (c : Consumer) (r : Record) : Work (Except Error Hold) :=
  match r.status with
  | .created =>
    (c.claim r).onOk fun
      | some claimed => .done (.ok (.owned claimed))
      | none => .done (.ok (.busy .created))
  | status => .done (.ok (.busy status))

/-- Creates the row; whoever comes second has to do with the row of the first. -/
def found (c : Consumer) (event : Event) : Work (Except Error Hold) :=
  .ask .now fun now =>
    match c.codec.encode event.payload with
    | .error e => .done (.error e)
    | .ok payload =>
      .ask (.create (c.freshRecord event payload now)) fun
        | .ok (.created r) => .done (.ok (.owned r))
        | .ok (.existing winner) => c.join winner
        | .error e => .done (.error e)

/-- Deletes a failed row, as somebody has decided to deliver its event anew, and creates another
one. -/
def reopen (c : Consumer) (event : Event) (r : Record) : Work (Except Error Hold) :=
  .ask .now fun now =>
    .ask (.tombstone r now) fun
      | .ok true => c.found event
      | .ok false => .done (.ok (.busy .failed))
      | .error e => .done (.error e)

/-- Gets hold of the row for an event, creating it where there is none. -/
def acquire (c : Consumer) (event : Event) : Work (Except Error Hold) :=
  .ask (.find (c.key event.id)) fun
    | .ok none => c.found event
    | .ok (some r) => if r.status = .failed then c.reopen event r else c.join r
    | .error e => .done (.error e)

/-! ### The attempt -/

/-- Writes down how an attempt ended; a refused write makes the end a conflict. -/
def conclude (r : Record) (t : Transition) (outcome : Outcome) : Work (Except Error Outcome) :=
  (r.write t).onOk fun
    | some _ => .done (.ok outcome)
    | none => .done (.ok .conflict)

/-- Writes down that a row has failed for good, and if that was accepted tells the escalation
handlers. -/
def giveUp (c : Consumer) (event : Event) (r : Record) (message reason : String) :
    Work (Except Error Outcome) :=
  (r.write (.failed message)).onOk fun
    | some stored =>
      (Escalation.escalate c.chain event stored reason).bind fun _ => .done (.ok .failed)
    | none => .done (.ok .conflict)

/-- What stands before the reason when all retries are used up. -/
def exhausted : String := "max retries exceeded: "

/-- Plans another attempt, as long as the rule allows one. A retry that cannot be counted or has no
time is a panic. -/
def onFailure (c : Consumer) (event : Event) (r : Record) (reason : String) :
    Work (Except Error Outcome) :=
  if c.rule.allows r.retryTimes r.maxRetryTimes then
    match next32 r.retryTimes with
    | .error overflow => .crash overflow.message
    | .ok n =>
      .ask .now fun now =>
        match c.rule.time now n with
        | .error fault => .crash fault.message
        | .ok t =>
          conclude r (.retryScheduled n t (Message.truncate reason)) (.rescheduled n t)
  else c.giveUp event r (exhausted ++ Message.truncate reason) reason

/-- Makes the first handler that accepts the event try it. -/
def attempt (c : Consumer) (event : Event) (r : Record) : Work (Except Error Outcome) :=
  (Work.firstThat (fun slot => .request (.accepts slot event))
      (c.routes.candidates event.eventType)).bind fun
    | none =>
      conclude r (.failed ("no handler matched event type " ++ event.eventType)) .unhandled
    | some slot =>
      .ask (.handle slot event) fun
        | .ok => conclude r .succeeded .succeeded
        | .failed reason => c.onFailure event r reason
        | .panicked text => c.onFailure event r ("handler panicked: " ++ text)

/-! ### Deliveries -/

/-- The first delivery of an event. A delivery of an event that is known already is skipped, unless
it has failed for good. -/
def deliver (c : Consumer) (event : Event) : Work (Except Error Outcome) :=
  (c.acquire event).onOk fun
    | .owned r => c.attempt event r
    | .busy status => .done (.ok (.skipped status))

/-- A later delivery, which goes on from the row of the first. -/
def redeliver (c : Consumer) (event : Event) : Work (Except Error Outcome) :=
  .ask (.find (c.key event.id)) fun
    | .ok none => .done (.ok .missing)
    | .ok (some r) =>
      match r.status with
      | .retrying => c.attempt event r
      | .created =>
        (c.claim r).onOk fun
          | some claimed => c.attempt event claimed
          | none => .done (.ok (.skipped .created))
      | status => .done (.ok (.skipped status))
    | .error e => .done (.error e)

/-- What escalation handlers are told of a row from which no event can be made. -/
def remains (r : Record) : Event where
  id := r.eventId
  eventType := r.eventType
  payload := .null
  occurredOn := r.createTime
  maxRetryOverride := some r.maxRetryTimes

def abandon (c : Consumer) (r : Record) (reason : String) : Work (Except Error Outcome) :=
  c.giveUp (remains r) r ("replay aborted: " ++ Message.truncate reason) reason

end Consumer

end EventRelay
