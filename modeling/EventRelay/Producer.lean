import EventRelay.Codec
import EventRelay.Config.Basic
import EventRelay.Ledger.Guarded
import EventRelay.Ledger.Message
/-!
# Publishing events

A producer writes down that an event is going out, sends it, and writes down whether that worked.
Publishing never fails: the change that the event tells of has happened already. An event that was
sent before is not sent again, and one that could not be written down is sent nevertheless.
-/

namespace EventRelay

structure Producer where
  config : Config
  codec : Codec

namespace Producer

inductive Outcome where
  | delivered
  | deferred (reason : String)
  | duplicate
  /-- Nothing could be written down about it. -/
  | unrecorded (delivered : Bool)
  deriving DecidableEq, Repr

def freshRecord (p : Producer) (event : Event) (now : Instant) : Record where
  id := 0
  eventId := event.id
  action := .publish
  ownerGroup := p.config.ownerGroup
  ownerName := p.config.ownerName
  eventType := event.eventType
  status := .created
  payload := (p.codec.encode event.payload).toOption
  message := none
  retryTimes := 0
  maxRetryTimes := event.maxRetries p.config.defaultMaxRetries
  nextRetryTime := none
  version := 0
  deleteMarker := 0
  createTime := now
  updateTime := now

/-- Sends an event that has a row. A write that fails or is refused changes nothing about what
happened. -/
def send (event : Event) (r : Record) : Work Outcome :=
  .ask (.send event) fun
    | .ok () => (r.write .succeeded).bind fun _ => .done .delivered
    | .error e =>
      let reason := Message.truncate e.message
      (r.write (.deliveryDeferred reason)).bind fun _ => .done (.deferred reason)

def sendUnrecorded (event : Event) : Work Outcome :=
  .ask (.send event) fun sent => .done (.unrecorded sent.isOk)

def publish (p : Producer) (event : Event) : Work Outcome :=
  .ask .now fun now =>
    .ask (.create (p.freshRecord event now)) fun
      | .ok (.created r) => send event r
      | .ok (.existing r) => if r.status = .success then .done .duplicate else send event r
      | .error _ => sendUnrecorded event

end Producer

end EventRelay
