import EventRelay.Json.Printer
import EventRelay.Routes
import EventRelay.Time.Rfc3339
import EventRelay.Work
/-!
# Escalation

When an event has failed for good, the first escalation handler that supports its type is told, with
the row as it is stored. What that handler does, an error and a panic included, changes nothing any
more. The usual handler of this kind composes a notice for an operator.
-/

namespace EventRelay.Escalation

/-- Tells the first handler of a chain that supports the type; the reply says whether there was
one. -/
def escalate (chain : List Nat) (event : Event) (record : Record) (reason : String) : Work Bool :=
  (Work.firstThat (fun slot => .request (.supports slot event.eventType)) chain).bind fun
    | none => .done false
    | some slot => .ask (.escalate slot event record reason) fun _ => .done true

structure Notice where
  subject : String
  body : String
  deriving DecidableEq, Repr

def notice (event : Event) (record : Record) (reason : String) : Notice where
  subject := "[event failed] " ++ event.eventType ++ " (" ++ event.id ++ ")"
  body := "\n".intercalate
    [ "event_id: " ++ event.id,
      "event_type: " ++ event.eventType,
      "owner: " ++ record.ownerGroup ++ "/" ++ record.ownerName,
      "retries: " ++ toString record.retryTimes ++ "/" ++ toString record.maxRetryTimes,
      "occurred_on: " ++ event.occurredOn.writeWithOffset,
      "failed_at: " ++ record.updateTime.writeWithOffset,
      "message: " ++ record.message.getD "",
      "error: " ++ reason,
      "payload: " ++ event.payload.toText ]

end EventRelay.Escalation
