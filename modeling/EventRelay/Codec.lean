import EventRelay.Error
import EventRelay.Json.Parser
import EventRelay.Json.Printer
/-!
# Payload codecs

How payloads become octets in the ledger and are read back for a replay. The type of the event is
known when reading, for codecs that depend on it. `Codec.json` is the one in common use:
it writes values of any depth, and reads those that the document reader accepts.
-/

namespace EventRelay

/-- A pair of writer and reader of payloads. -/
structure Codec where
  encode : Json → Except Error Bytes
  decode : Bytes → (eventType : String) → Except Error Json

namespace Codec

def json : Codec where
  encode payload := .ok payload.toBytes
  decode bytes eventType :=
    (Json.parse bytes).mapError fun fault =>
      .parse ("payload of " ++ eventType ++ ": " ++ fault.messageIn bytes)

end Codec

end EventRelay
