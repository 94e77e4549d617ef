import EventRelay.Event
import EventRelay.Json.Printer
import EventRelay.Time.Reading
/-!
# Events as documents

An event is written with all its fields in a fixed order. Reading wants every field but the limit on
retries, which may be missing or null.
-/

namespace EventRelay.Event

open Json.Reader

def shape : Shape Event where
  name := "Event"
  start := ⟨"", "", .null, ⟨0, 0⟩, none⟩
  openEnded := false
  fields :=
    [ field "id" string (fun v e => { e with id := v }) true,
      field "event_type" string (fun v e => { e with eventType := v }) true,
      field "payload" json (fun v e => { e with payload := v }) true,
      field "occurred_on" Instant.reader (fun v e => { e with occurredOn := v }) true,
      field "max_retry_override" (optional (unsigned "u32" 32))
        (fun v e => { e with maxRetryOverride := v }) false ]

def reader : Json.Reader Event :=
  shape.reader

def toMembers (e : Event) : List (String × Json) :=
  [ ("id", .text e.id), ("event_type", .text e.eventType), ("payload", e.payload),
    ("occurred_on", e.occurredOn.toJson),
    ("max_retry_override", e.maxRetryOverride.elim .null fun n => .integer n) ]

def toText (e : Event) : String :=
  String.ofList ('\x7b' :: Json.writeMembers true e.toMembers)

end EventRelay.Event
