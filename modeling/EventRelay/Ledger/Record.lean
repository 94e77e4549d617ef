import EventRelay.Error
import EventRelay.Text.Utf8
import EventRelay.Time.Instant
/-!
# Ledger records

One record stands for one attempt to publish or to consume an event. Active records are told apart
by event, action and owner group; a deleted one gives its key free by carrying a delete marker.

A `Transition` says what happens to a record. `Record.transition` makes the changed copy, which
still has the version it was read with: the store counts it up when it accepts the copy.
-/

namespace EventRelay

structure Key where
  eventId : String
  action : Action
  ownerGroup : String
  /-- Zero for an active row. -/
  deleteMarker : Int
  deriving DecidableEq, Repr

/-- The key of the active row of an event. -/
def Key.active (eventId : String) (action : Action) (ownerGroup : String) : Key :=
  ⟨eventId, action, ownerGroup, 0⟩

structure Record where
  id : Int
  eventId : String
  action : Action
  /-- The publishing node or the consumer group. -/
  ownerGroup : String
  ownerName : String
  eventType : String
  status : Status
  /-- The serialized payload, from which the event can be replayed. -/
  payload : Option Bytes
  /-- The last error, already cut to length. -/
  message : Option String
  retryTimes : Nat
  maxRetryTimes : Nat
  nextRetryTime : Option Instant
  version : Int
  deleteMarker : Int
  createTime : Instant
  updateTime : Instant
  deriving DecidableEq, Repr

namespace Record

def key (r : Record) : Key :=
  ⟨r.eventId, r.action, r.ownerGroup, r.deleteMarker⟩

/-- A row is due when it is active, is about consuming, waits for a retry and its time has come. -/
def isDue (r : Record) (now : Instant) : Bool :=
  r.deleteMarker = 0 && r.action = .consume && r.status = .retrying
    && match r.nextRetryTime with
      | some t => decide (t ≤ now)
      | none => false

end Record

inductive Transition where
  | succeeded
  /-- A worker takes over a created row until its lease ends. -/
  | claimed (leaseUntil : Instant)
  /-- The attempt failed and another one is planned. -/
  | retryScheduled (retryTimes : Nat) (nextRetryTime : Instant) (message : String)
  /-- The event could not be sent and waits for somebody to send it again. -/
  | deliveryDeferred (message : String)
  | failed (message : String)
  deriving DecidableEq, Repr

def Transition.status : Transition → Status
  | .succeeded => .success
  | .claimed _ | .retryScheduled _ _ _ | .deliveryDeferred _ => .retrying
  | .failed _ => .failed

namespace Record

/-- The columns that a transition changes besides status and time of update. -/
def apply (r : Record) : Transition → Record
  | .succeeded => { r with message := none, nextRetryTime := none }
  | .claimed leaseUntil => { r with nextRetryTime := some leaseUntil }
  | .retryScheduled retryTimes nextRetryTime message =>
    { r with retryTimes, nextRetryTime := some nextRetryTime, message := some message }
  | .deliveryDeferred message => { r with message := some message }
  | .failed message => { r with nextRetryTime := none, message := some message }

/-- The copy that a transition makes of a record. There is none where the lifecycle has no such
step. -/
def transition (r : Record) (t : Transition) (now : Instant) : Except Error Record :=
  if r.status.canBecome t.status then
    .ok { r.apply t with status := t.status, updateTime := now }
  else .error (.illegalTransition r.status t.status)

def revised (r : Record) : Record :=
  { r with version := r.version + 1 }

/-- The copy with its version counted up, which has to fit into 64 bits. -/
def revise (r : Record) : Except Overflow Record :=
  (within64 .add (r.version + 1)).map fun version => { r with version }

/-- The copy that gives its key free: the marker is its own number, and at least one. -/
def deleted (r : Record) (now : Instant) : Record :=
  { r with deleteMarker := max r.id 1, updateTime := now }

end Record

end EventRelay
