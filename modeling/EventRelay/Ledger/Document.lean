import EventRelay.Json.Printer
import EventRelay.Ledger.Record
import EventRelay.Time.Reading
/-!
# Ledger records as documents

A record is written with all its fields in a fixed order, the payload as a sequence of octets.
Reading wants every field but payload, message and next retry time, which may be missing or null.
-/

namespace EventRelay.Record

open Json.Reader

/-- What the fields hold before they are read. -/
def blank : Record :=
  { id := 0, eventId := "", action := .consume, ownerGroup := "", ownerName := "", eventType := ""
    status := .created, payload := none, message := none, retryTimes := 0, maxRetryTimes := 0
    nextRetryTime := none, version := 0, deleteMarker := 0, createTime := ⟨0, 0⟩
    updateTime := ⟨0, 0⟩ }

def signed : Json.Reader Int :=
  integer "i64" leastInt64 greatestInt64

def octets : Json.Reader Bytes :=
  sequence ((unsigned "u8" 8).map UInt8.ofNat)

def shape : Shape Record where
  name := "LedgerRecord"
  start := blank
  openEnded := false
  fields :=
    [ field "id" signed (fun v r => { r with id := v }) true,
      field "event_id" string (fun v r => { r with eventId := v }) true,
      field "action" (choice Action.alternatives) (fun v r => { r with action := v }) true,
      field "owner_group" string (fun v r => { r with ownerGroup := v }) true,
      field "owner_name" string (fun v r => { r with ownerName := v }) true,
      field "event_type" string (fun v r => { r with eventType := v }) true,
      field "status" (choice Status.alternatives) (fun v r => { r with status := v }) true,
      field "payload" (optional octets) (fun v r => { r with payload := v }) false,
      field "message" (optional string) (fun v r => { r with message := v }) false,
      field "retry_times" (unsigned "u32" 32) (fun v r => { r with retryTimes := v }) true,
      field "max_retry_times" (unsigned "u32" 32) (fun v r => { r with maxRetryTimes := v }) true,
      field "next_retry_time" (optional Instant.reader)
        (fun v r => { r with nextRetryTime := v }) false,
      field "version" signed (fun v r => { r with version := v }) true,
      field "delete_marker" signed (fun v r => { r with deleteMarker := v }) true,
      field "create_time" Instant.reader (fun v r => { r with createTime := v }) true,
      field "update_time" Instant.reader (fun v r => { r with updateTime := v }) true ]

def reader : Json.Reader Record :=
  shape.reader

def toMembers (r : Record) : List (String × Json) :=
  [ ("id", .integer r.id), ("event_id", .text r.eventId), ("action", .text r.action.name),
    ("owner_group", .text r.ownerGroup), ("owner_name", .text r.ownerName),
    ("event_type", .text r.eventType), ("status", .text r.status.name),
    ("payload", r.payload.elim .null fun bs => .array (bs.map fun b => .integer b.toNat)),
    ("message", r.message.elim .null .text), ("retry_times", .integer r.retryTimes),
    ("max_retry_times", .integer r.maxRetryTimes),
    ("next_retry_time", r.nextRetryTime.elim .null Instant.toJson),
    ("version", .integer r.version), ("delete_marker", .integer r.deleteMarker),
    ("create_time", r.createTime.toJson), ("update_time", r.updateTime.toJson) ]

def toText (r : Record) : String :=
  String.ofList ('\x7b' :: Json.writeMembers true r.toMembers)

end EventRelay.Record
