import EventRelay.Error
import EventRelay.Event
/-!
# Broadcasting events in memory

A channel keeps the last events that were sent through it, as many as its capacity says, and each
receiver's place among all events ever sent. A receiver that is so far behind that events it has not
seen are gone is told how many it has lost, once, and goes on with the oldest one kept. What is sent
while nobody receives is refused.
-/

namespace EventRelay

structure Broadcast where
  capacity : Nat
  /-- How many events were sent. -/
  sent : Nat
  /-- The last of them, oldest first, at most as many as the capacity. -/
  kept : List Event
  /-- The receivers by number, with how many events each is done with. -/
  receivers : List (Nat × Nat)
  /-- The greatest number given to a receiver. -/
  lastReceiver : Nat

namespace Broadcast

inductive RoomFault where
  | none
  | beyondNumbers
  | beyondMemory
  deriving DecidableEq, Repr

def RoomFault.message : RoomFault → String
  | .none => "broadcast channel capacity cannot be zero"
  | .beyondNumbers => "broadcast channel capacity exceeded `usize::MAX / 2`"
  | .beyondMemory => "capacity overflow"

/-- A channel with room for so many events, rounded up to a power of two. -/
def withRoom (capacity : Nat) : Broadcast :=
  ⟨capacity.nextPowerOfTwo, 0, [], [], 0⟩

/-- The number of places, each of more than 128 octets, that memory has no addresses for. -/
def addressable : Nat := pow2 56

def ofCapacity (capacity : Nat) : Except RoomFault Broadcast :=
  if capacity = 0 then .error .none
  else if greatestInt64.toNat < capacity then .error .beyondNumbers
  else if addressable ≤ capacity.nextPowerOfTwo then .error .beyondMemory
  else .ok (withRoom capacity)

def send (b : Broadcast) (event : Event) : Except Error Unit × Broadcast :=
  if b.receivers.isEmpty then (.error (.transport "no active subscriber"), b)
  else
    let kept := b.kept ++ [event]
    (.ok (), { b with sent := b.sent + 1, kept := kept.drop (kept.length - b.capacity) })

/-- A new receiver, which gets what is sent from now on. -/
def subscribe (b : Broadcast) : Nat × Broadcast :=
  let receiver := b.lastReceiver + 1
  (receiver, { b with receivers := (receiver, b.sent) :: b.receivers, lastReceiver := receiver })

def unsubscribe (b : Broadcast) (receiver : Nat) : Broadcast :=
  { b with receivers := b.receivers.filter fun known => known.1 ≠ receiver }

def moveTo (b : Broadcast) (receiver place : Nat) : Broadcast :=
  { b with
    receivers := b.receivers.map fun known => if known.1 = receiver then (receiver, place) else known }

def gone (b : Broadcast) : Nat :=
  b.sent - b.kept.length

/-- What a receiver gets next, if anything: an event, or how many it has lost. -/
def receive (b : Broadcast) (receiver : Nat) : Option (Except Error Event) × Broadcast :=
  match b.receivers.lookup receiver with
  | none => (none, b)
  | some place =>
    if place < b.gone then
      (some (.error (.transport ("channel lagged by " ++ toString (b.gone - place)))),
        b.moveTo receiver b.gone)
    else
      match b.kept[place - b.gone]? with
      | none => (none, b)
      | some event => (some (.ok event), b.moveTo receiver (place + 1))

/-- How many items wait for a receiver at most. -/
def waiting (b : Broadcast) (receiver : Nat) : Nat :=
  match b.receivers.lookup receiver with
  | none => 0
  | some place => b.sent - place

end Broadcast

end EventRelay
