import EventRelay.Rehearsal.World
import EventRelay.Scope
/-!
# Rehearsals

A rehearsal sets a relay up in a world of doubles and tries it out step by step. The relay can be set
up anew in the same world; handlers play their scripts from the beginning then, while units of work
and daemons go on with the relay that they were made for.

A step may be held up for ever by a handler. It is given up then where it stands; what it has done
so far stays.
-/

namespace EventRelay.Rehearsal

/-- What a relay is set up from. -/
structure Setup where
  config : Config := {}
  handlers : List HandlerDouble := []
  escalations : List EscalationDouble := []
  codecs : Codecs := {}
  schedule? : Option Schedule := none

structure Stage where
  /-- What the present relay was set up from. -/
  setup : Setup
  world : World
  relay : Relay
  /-- Receivers of the channel by name. -/
  receivers : List (String × Nat) := []
  /-- Units of work by name, each with the producer it was made for. -/
  units : List (String × Producer × WorkUnit) := []
  /-- The daemon that somebody holds a handle to. -/
  daemon? : Option Daemon := none
  /-- Daemons whose handles are gone. They were all told to stop. -/
  detached : List Daemon := []

/-- The numbers of so many doubles that come after those already in the world. -/
def slotsFrom (first count : Nat) : List Nat :=
  (List.range count).map (first + ·)

def Setup.build (setup : Setup) (w : World) : Except Error (Relay × World) := do
  let slots := slotsFrom w.handlers.length setup.handlers.length
  let handlers := slots.zipWith (fun slot (double : HandlerDouble) => ⟨slot, double.types⟩)
    setup.handlers
  let chain := slotsFrom w.escalations.length setup.escalations.length
  let relay ← Relay.ofConfig setup.config setup.schedule? handlers chain setup.codecs
  return (relay,
    { w with
      handlers := w.handlers ++ setup.handlers.map fun double => (double, relay.consumer)
      escalations := w.escalations ++ setup.escalations })

def Setup.stage (setup : Setup) (w : World) : Except Error Stage := do
  let (relay, world) ← setup.build w
  return { setup, world, relay }

namespace Stage

/-- Sets up the relay anew. -/
def rebuild (s : Stage) (setup : Setup) : Except Error Stage := do
  let (relay, world) ← setup.build s.world
  return { s with setup, world, relay }

/-! ### Workers -/

def carryOut {α : Type} (s : Stage) (work : Work α) : Work.Progress α × Stage :=
  let (progress, world) := work.run World.reply s.world
  (progress, { s with world })

def publish (s : Stage) (event : Event) : Work.Progress Producer.Outcome × Stage :=
  s.carryOut (s.relay.producer.publish event)

def deliver (s : Stage) (event : Event) (again : Bool) :
    Work.Progress (Except Error Consumer.Outcome) × Stage :=
  s.carryOut (if again then s.relay.consumer.redeliver event else s.relay.consumer.deliver event)

def scan (s : Stage) (batch : Nat) : Work.Progress (Except Error ScanReport) × Stage :=
  let (progress, world) := s.relay.replayer.run World.reply batch s.world
  (progress, { s with world })

def runOnce (s : Stage) : Work.Progress (Except Error ScanReport) × Stage :=
  s.scan s.relay.replayer.config.batchSize

/-! ### The clock and the ledger -/

def setClock (s : Stage) (t : Instant) : Stage :=
  { s with world.clock := s.world.clock.set t }

def advance (s : Stage) (millis : Int) : Except TimeFault Stage :=
  (s.world.clock.advance millis).map fun clock => { s with world.clock := clock }

def seed (s : Stage) (record : Record) : Bool × Stage :=
  match s.world.store.create record with
  | (.created _, store) => (true, { s with world.store := store })
  | (.existing _, store) => (false, { s with world.store := store })

/-- Another node moves a row on; `none` if there is no such row. -/
def write (s : Stage) (key : Key) (t : Transition) :
    Work.Progress (Option (Except Error Bool)) × Stage :=
  match s.world.store.find? key with
  | none => (.done none, s)
  | some row =>
    match row.transition t s.world.clock.now with
    | .error e => (.done (some (.error e)), s)
    | .ok next =>
      let (done, store) := s.world.store.update next
      (.ofChecked (done.map fun done => some (.ok done)), { s with world.store := store })

/-- Another node deletes a row; `none` if there is no such row. -/
def tombstone (s : Stage) (key : Key) : Work.Progress (Option Bool) × Stage :=
  match s.world.store.find? key with
  | none => (.done none, s)
  | some row =>
    let (done, store) := s.world.store.tombstone row s.world.clock.now
    (.ofChecked (done.map some), { s with world.store := store })

def clearLog (s : Stage) : Stage :=
  { s with world.log := [] }

/-! ### The channel -/

def send (s : Stage) (event : Event) : Except Error Unit × Stage :=
  let (result, world) := s.world.send event
  (result, { s with world })

/-- Opens a receiver under a name; an earlier one of that name is closed. -/
def subscribe (s : Stage) (name : String) : Stage :=
  match World.surroundings.subscribe s.world with
  | (none, world) => { s with world }
  | (some receiver, world) =>
    let world := match s.receivers.lookup name with
      | some earlier => World.surroundings.unsubscribe earlier world
      | none => world
    { s with
      world
      receivers := (name, receiver) :: s.receivers.filter fun known => known.1 != name }

def unsubscribe (s : Stage) (name : String) : Bool × Stage :=
  match s.receivers.lookup name with
  | none => (false, s)
  | some receiver =>
    (true,
      { s with
        world := World.surroundings.unsubscribe receiver s.world
        receivers := s.receivers.filter fun known => known.1 != name })

def receive (s : Stage) (name : String) : Option (Except Error Event) × Stage :=
  match s.receivers.lookup name with
  | none => (none, s)
  | some receiver =>
    let (item?, world) := World.surroundings.receive receiver s.world
    (item?, { s with world })

/-- Receives until nothing waits any more, and delivers each event. -/
def pump (s : Stage) (name : String) :
    Work.Progress (List (Except Error Consumer.Outcome)) × Stage :=
  match s.receivers.lookup name with
  | none => (.done [], s)
  | some receiver =>
    let (progress, world) := World.surroundings.pump s.relay.consumer receiver s.world
    (progress, { s with world })

/-! ### Scopes and units of work -/

/-- An activity of a task that has no scope open. -/
def act (s : Stage) (activity : Activity) : Work.Progress (Option Trace × Task) × Stage :=
  s.carryOut (Activity.run s.relay.producer {} activity)

def beginUnit (s : Stage) (name : String) : Stage :=
  { s with
    units := (name, s.relay.producer, {}) :: s.units.filter fun known => known.1 != name }

def callUnit (s : Stage) (name : String) (call : UnitCall) :
    Work.Progress (Option UnitReply) × Stage :=
  match s.units.lookup name with
  | none => (.done none, s)
  | some (producer, u) =>
    match s.carryOut (u.perform producer call) with
    | (.stalled, s) => (.stalled, s)
    | (.crashed text, s) => (.crashed text, s)
    | (.done (reply, u), s) =>
      (.done (some reply),
        { s with
          units := s.units.map fun known =>
            if known.1 = name then (name, producer, u) else known })

def dropUnit (s : Stage) (name : String) : Bool × Stage :=
  ((s.units.lookup name).isSome,
    { s with units := s.units.filter fun known => known.1 != name })

/-! ### Daemons -/

/-- Lets go of the daemon's handle, which tells it to stop; the result says whether there was
one. -/
def dropDaemon (s : Stage) : Bool × Stage :=
  match s.daemon? with
  | none => (false, s)
  | some d => (true, { s with daemon? := none, detached := s.detached ++ [{ d with stopping := true }] })

def startDaemon (s : Stage) (config : DaemonConfig) : Stage :=
  let s := s.dropDaemon.2
  { s with daemon? := some ⟨config, s.relay.consumer, s.relay.replayer, false, false, .zero, .idle,
    true, none, 0⟩ }

def stopDaemon (s : Stage) : Stage :=
  { s with daemon? := s.daemon?.map fun d => { d with stopping := true } }

def settle (s : Stage) : Stage :=
  let (detached, world) := s.detached.foldl
    (fun (kept, w) d =>
      let (d, w) := d.turn World.surroundings w
      (if d.isOver then kept else kept ++ [d], w))
    ([], s.world)
  { s with detached, world }

def sleep (s : Stage) (span : Duration) : Stage :=
  let s := s.settle
  match s.daemon? with
  | none => s
  | some d =>
    let (d, world) := d.sleep World.surroundings span s.world
    { s with daemon? := some d, world }

/-- Waits for the daemon to end, which gives its handle up; `none` if there is no handle. All daemons
get a turn meanwhile. The wait is in vain if the daemon goes on after that or is held up. -/
def joinDaemon (s : Stage) : Option Bool × Stage :=
  match s.daemon? with
  | none => (none, s)
  | some d =>
    let s := s.settle
    let (d, world) := d.turn World.surroundings s.world
    if d.isOver then (some true, { s with daemon? := none, world })
    else (some false, { s with daemon? := some d, world }.dropDaemon.2)

end Stage

end EventRelay.Rehearsal
