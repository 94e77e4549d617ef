import EventRelay.Surroundings
/-!
# The daemon

A daemon consumes what comes through a channel and scans for due rows at regular intervals. It does
so whenever it gets a turn: first it takes the items that wait in the channel, as many at the same
time as it has places, then time passes and the scans of that time are made. A handler that never
comes back keeps its place for ever; a scan with such a row keeps all further scans from happening.

The daemon's first turn makes the first scan, and only then begins to listen. Told to stop, it stops
at its next turn.
-/

namespace EventRelay

/-- How one of the daemon's two tasks is doing. -/
inductive TaskState where
  | idle
  /-- It waits for a call that never comes back. -/
  | stuck
  | ended
  deriving DecidableEq, Repr

structure Daemon where
  config : DaemonConfig
  consumer : Consumer
  replayer : Replayer
  /-- Whether it has had its first turn. -/
  begun : Bool := false
  stopping : Bool := false
  /-- The time since the first scan. -/
  elapsed : Duration := .zero
  scanning : TaskState := .idle
  listening : Bool := true
  receiver? : Option Nat := none
  /-- How many received events are with handlers that never come back. -/
  held : Nat := 0

namespace Daemon

variable {σ : Type}

/-- How many received events are handled at the same time, at least one. -/
def places (d : Daemon) : Nat :=
  max d.config.handlerConcurrency 1

/-- Scans once. What the scan reports is of no consequence. -/
def scan (env : Surroundings σ) (d : Daemon) (s : σ) : Daemon × σ :=
  match d.replayer.run env.reply d.replayer.config.batchSize s with
  | (.done _, s) => (d, s)
  | (.stalled, s) => ({ d with scanning := .stuck }, s)
  | (.crashed _, s) => ({ d with scanning := .ended }, s)

def hangUp (env : Surroundings σ) (d : Daemon) (s : σ) : Daemon × σ :=
  ({ d with listening := false, receiver? := none },
    match d.receiver? with
    | some receiver => env.unsubscribe receiver s
    | none => s)

/-- Takes at most so many items from the channel and has the events among them handled, as long as
there is a place. -/
def drain (env : Surroundings σ) (receiver : Nat) : Nat → Daemon → σ → Daemon × σ
  | 0, d, s => (d, s)
  | count + 1, d, s =>
    if d.places ≤ d.held then (d, s)
    else
      match env.receive receiver s with
      | (none, s) => (d, s)
      | (some (.error _), s) => drain env receiver count d s
      | (some (.ok event), s) =>
        match (d.consumer.deliver event).run env.reply s with
        | (.done _, s) => drain env receiver count d s
        | (.stalled, s) => drain env receiver count { d with held := d.held + 1 } s
        | (.crashed _, s) => ({ d with held := 0 }.hangUp env s)

def begin (env : Surroundings σ) (d : Daemon) (s : σ) : Daemon × σ :=
  let d := { d with begun := true }
  let (d, s) :=
    if d.config.retryEnabled && !d.config.retryInterval.isZero then d.scan env s
    else ({ d with scanning := .ended }, s)
  let (receiver?, s) := env.subscribe s
  ({ d with receiver?, listening := receiver?.isSome }, s)

/-- Stops working, as far as calls that never come back allow it. While all places are taken, nobody
looks at the channel, and the receiver stays. -/
def halt (env : Surroundings σ) (d : Daemon) (s : σ) : Daemon × σ :=
  let d := { d with begun := true, scanning := if d.scanning = .stuck then .stuck else .ended }
  if d.places ≤ d.held then (d, s) else d.hangUp env s

/-- What happens before time passes. -/
def turn (env : Surroundings σ) (d : Daemon) (s : σ) : Daemon × σ :=
  if d.stopping then d.halt env s
  else if !d.begun then d.begin env s
  else
    match d.receiver? with
    | some receiver => drain env receiver (env.waiting receiver s + 1) d s
    | none => (d, s)

/-! ### Time -/

def tick : Nat := Duration.perMilli

/-- When the n-th scan after the first one is due, reckoned from the first. -/
def scanTime (d : Daemon) (n : Nat) : Nat :=
  (n * d.config.retryInterval.nanoseconds + tick - 1) / tick * tick

/-- How many scans after the first one are due by a time. -/
def scansBy (d : Daemon) (time : Nat) : Nat :=
  time / tick * tick / d.config.retryInterval.nanoseconds

def passTo (env : Surroundings σ) (d : Daemon) (time : Nat) (s : σ) : Daemon × σ :=
  ({ d with elapsed := ⟨time⟩ }, env.elapse ⟨time - d.elapsed.nanoseconds⟩ s)

/-- Lets time pass and makes the next scans, so many of them from the n-th on. -/
def scans (env : Surroundings σ) : (count n : Nat) → Daemon → σ → Daemon × σ
  | 0, _, d, s => (d, s)
  | count + 1, n, d, s =>
    let (d, s) := d.passTo env (d.scanTime n) s
    let (d, s) := if d.scanning = .idle then d.scan env s else (d, s)
    scans env count (n + 1) d s

def pass (env : Surroundings σ) (d : Daemon) (span : Duration) (s : σ) : Daemon × σ :=
  let time := d.elapsed.nanoseconds + span.nanoseconds
  let (d, s) :=
    if d.scanning = .idle then
      let made := d.scansBy d.elapsed.nanoseconds
      scans env (d.scansBy time - made) (made + 1) d s
    else (d, s)
  d.passTo env time s

/-- A turn, and time that passes after it. -/
def sleep (env : Surroundings σ) (d : Daemon) (span : Duration) (s : σ) : Daemon × σ :=
  let (d, s) := d.turn env s
  d.pass env span s

def isOver (d : Daemon) : Bool :=
  d.scanning = .ended && !d.listening && d.held = 0

end Daemon

end EventRelay
