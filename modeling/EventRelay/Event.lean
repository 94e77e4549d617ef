import EventRelay.Json.Value
import EventRelay.Time.Instant
/-!
# Events

A fact that something has happened: who it is about is in the payload, which the relay does not look
into. The type decides which handlers are asked.
-/

namespace EventRelay

structure Event where
  id : String
  eventType : String
  payload : Json
  occurredOn : Instant
  /-- The greatest number of retries, when it differs from the configured one. -/
  maxRetryOverride : Option Nat
  deriving Inhabited

/-- The limit on retries for an event. -/
def Event.maxRetries (e : Event) (configured : Nat) : Nat :=
  e.maxRetryOverride.getD configured

end EventRelay
