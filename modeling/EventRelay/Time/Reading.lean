import EventRelay.Json.Reader
import EventRelay.Time.Rfc3339
import EventRelay.Time.Spelled
/-!
# Times in documents

Readers for the two kinds of time that documents hold: instants as date texts and durations in
words.
-/

namespace EventRelay

def Instant.reader : Json.Reader Instant :=
  .textWith "an RFC 3339 formatted date and time string" fun s =>
    (Instant.ofText s).mapError fun fault => .refused fault.message

def Instant.toJson (t : Instant) : Json :=
  .text t.write

def Duration.reader : Json.Reader Duration :=
  .textWith "a duration" fun s =>
    match Duration.ofText s with
    | .ok d => .ok d
    | .error .unreadable => .error (.invalidValue (.text s) "a duration")
    | .error .overflow => .error (.crash overflowReport)

end EventRelay
