import EventRelay.Ledger.Record
/-!
# The ledger in memory

Rows by their keys, and a counter for their numbers. Creating a row under a taken key gives back
the row that is there. Changes name the version they were made from and are refused when the row
has moved on; a finished row accepts no change but its deletion, which files it under a new key. A
row whose version cannot be counted up any more accepts no change at all, and an attempt to delete
it loses the row.

The order in which the rows are kept carries no meaning.
-/

namespace EventRelay

/-- The rows of a ledger and the greatest number given to one. -/
structure Store where
  rows : List Record
  lastId : Int
  deriving Repr

/-- What creating a row gave. -/
inductive Creation where
  | created (r : Record)
  | existing (r : Record)
  deriving DecidableEq, Repr

def Creation.record : Creation → Record
  | .created r | .existing r => r

namespace Store

def empty : Store := ⟨[], 0⟩

def size (s : Store) : Nat := s.rows.length

def find? (s : Store) (key : Key) : Option Record :=
  s.rows.find? fun r => r.key = key

/-- Creates a row, which gets the next number. -/
def create (s : Store) (r : Record) : Creation × Store :=
  match s.find? r.key with
  | some winner => (.existing winner, s)
  | none =>
    let row := { r with id := s.lastId + 1 }
    (.created row, ⟨s.rows ++ [row], s.lastId + 1⟩)

def replace (s : Store) (r : Record) : Store :=
  { s with rows := s.rows.map fun old => if old.key = r.key then r else old }

/-- Stores a changed copy, unless the row is gone, has another version or is finished. -/
def update (s : Store) (r : Record) : Except Overflow Bool × Store :=
  match s.find? r.key with
  | none => (.ok false, s)
  | some stored =>
    if stored.version = r.version ∧ stored.status.isTerminal = false then
      match r.revise with
      | .ok next => (.ok true, s.replace next)
      | .error overflow => (.error overflow, s)
    else (.ok false, s)

def erase (s : Store) (key : Key) : Store :=
  { s with rows := s.rows.filter fun r => r.key ≠ key }

/-- Deletes the row of a record, unless it is gone or has another version: it is marked and filed
under its new key, where it displaces a row that is there. -/
def tombstone (s : Store) (r : Record) (now : Instant) : Except Overflow Bool × Store :=
  match s.find? r.key with
  | none => (.ok false, s)
  | some stored =>
    if stored.version = r.version then
      let rest := s.erase r.key
      match (stored.deleted now).revise with
      | .error overflow => (.error overflow, rest)
      | .ok marked =>
        let rest := rest.erase marked.key
        (.ok true, { rest with rows := rest.rows ++ [marked] })
    else (.ok false, s)

/-! ### Selection -/

/-- Due rows come by fewest retries, then oldest, then lowest number. -/
def precedes (a b : Record) : Bool :=
  if a.retryTimes ≠ b.retryTimes then a.retryTimes < b.retryTimes
  else if a.createTime ≠ b.createTime then a.createTime < b.createTime
  else a.id ≤ b.id

/-- The due rows in their order, at most `limit` of them. -/
def due (s : Store) (now : Instant) (limit : Nat) : List Record :=
  ((s.rows.filter (·.isDue now)).mergeSort precedes).take limit

def records (s : Store) : List Record :=
  s.rows.mergeSort fun a b =>
    if a.id ≠ b.id then a.id < b.id
    else if a.deleteMarker ≠ b.deleteMarker then a.deleteMarker < b.deleteMarker
    else a.eventId ≤ b.eventId

/-- The rows that another state of the ledger did not have, or not as they are. -/
def changedSince (s before : Store) : List Record :=
  s.records.filter fun r => !before.rows.contains r

end Store

end EventRelay
