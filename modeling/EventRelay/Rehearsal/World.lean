import EventRelay.Clock
import EventRelay.Daemon
import EventRelay.Rehearsal.Doubles
/-!
# The world of a rehearsal

A ledger in memory, a clock that only moves when told to, and the doubles. The world answers the
requests of the workers and keeps a log of the calls that reached a double. Handlers and escalation
handlers are known by their places in the world; a handler belongs to a consumer, to which it may
hand events of its own.
-/

namespace EventRelay.Rehearsal

inductive Call where
  | handle (handler : String) (event : Event)
  /-- The outcome of an event that a handler handed to its consumer. -/
  | nested (outcome : Except Error Consumer.Outcome)
  | escalate (name : String) (record : Record)
  | notify (notice : Escalation.Notice)
  | send (eventId : String)

structure World where
  store : Store := .empty
  clock : Clock
  transport : Transport
  faults : List Fault := []
  /-- The calls to the ledger made so far. -/
  called : List LedgerCall := []
  handlers : List (HandlerDouble × Consumer) := []
  escalations : List EscalationDouble := []
  log : List Call := []

namespace World

def note (w : World) (call : Call) : World :=
  { w with log := w.log ++ [call] }

/-! ### The ledger -/

def meet (w : World) (call : LedgerCall) : Option Mishap × World :=
  let nth := w.called.count call + 1
  ((w.faults.find? fun f => f.call = call ∧ f.nth = nth).map (·.mishap),
    { w with called := call :: w.called })

/-- A call to the ledger, with what goes wrong in it. Where a refusal is possible it stands in the
place of the result, and the call has no effect. -/
def ledgerCall {α : Type} (w : World) (call : LedgerCall) (key? : Option Key) (refusal? : Option α)
    (act : Store → Except Overflow α × Store) : Work.Progress (Except Error α) × World :=
  let finish (r : Except Overflow α × Store) (w : World) : Work.Progress (Except Error α) × World :=
    ((Work.Progress.ofChecked r.1).map .ok, { w with store := r.2 })
  match w.meet call with
  | (none, w) => finish (act w.store) w
  | (some (.error e), w) => (.done (.error e), w)
  | (some (.interference rival? step? refused), w) =>
    match interfere w.store key? rival? step?, refused, refusal? with
    | (.error overflow, store), _, _ => finish (.error overflow, store) w
    | (.ok (), store), true, some refusal => finish (.ok refusal, store) w
    | (.ok (), store), _, _ => finish (act store) w

/-! ### Doubles -/

def send (w : World) (event : Event) : Except Error Unit × World :=
  match w.transport with
  | .scripted script calls =>
    (script.at calls, { w.note (.send event.id) with transport := .scripted script (calls + 1) })
  | .channel b =>
    let (result, b) := b.send event
    (result, { w with transport := .channel b })

def accepts (w : World) (slot : Nat) (event : Event) : Bool :=
  match w.handlers[slot]? with
  | some (double, _) => double.accepts event
  | none => false

def supports (w : World) (slot : Nat) (eventType : String) : Bool :=
  match w.escalations[slot]? with
  | some double => double.types.matches eventType
  | none => false

/-- Tells an escalation handler, which sends its notice. -/
def escalate (w : World) (slot : Nat) (event : Event) (record : Record) (reason : String) :
    Verdict × World :=
  match w.escalations[slot]? with
  | none => (.ok, w)
  | some double =>
    let w := (w.note (.escalate double.name record)).note
      (.notify (Escalation.notice event record reason))
    (double.script.at double.calls,
      { w with escalations := w.escalations.set slot { double with calls := double.calls + 1 } })

/-- What a handler does. The events that it hands to its consumer are delivered in the same
world. -/
def perform (reply : Work.Replies World) (consumer : Consumer) (event : Event) :
    Behaviour → World → Work.Progress Verdict × World
  | .succeed, w => (.done .ok, w)
  | .stall, w => (.stalled, w)
  | .asPayload, w => (.done (payloadVerdict event), w)
  | .fail causes, w => (.done (.failed (causesText causes)), w)
  | .panic text?, w => (.done (.panicked (text?.getD Verdict.unknownPanic)), w)
  | .deliver other again next, w =>
    let delivery := if again then consumer.redeliver other else consumer.deliver other
    match delivery.run reply w with
    | (.done outcome, w) => perform reply consumer event next (w.note (.nested outcome))
    | (.crashed text, w) => (.done (.panicked text), w)
    | (.stalled, w) => (.stalled, w)

def handle (reply : Work.Replies World) (w : World) (slot : Nat) (event : Event) :
    Work.Progress Verdict × World :=
  match w.handlers[slot]? with
  | none => (.stalled, w)
  | some (double, consumer) =>
    let played := { double with calls := double.calls + 1 }
    let w := { w.note (.handle double.name event) with
      handlers := w.handlers.set slot (played, consumer) }
    perform reply consumer event (double.script.at double.calls) w

/-! ### Requests -/

/-- Answers a request. Handlers may hand events to their consumers so many levels deep; below that
they never come back. -/
def answer : (depth : Nat) → Work.Replies World
  | _, .now, w => (.done w.clock.now, w)
  | _, .find key, w => w.ledgerCall .find (some key) (some none) fun s => (.ok (s.find? key), s)
  | _, .create record, w =>
    w.ledgerCall .create (some record.key) none fun s =>
      let (creation, s) := s.create record
      (.ok creation, s)
  | _, .update record, w =>
    w.ledgerCall .update (some record.key) (some false) fun s => s.update record
  | _, .tombstone record now, w =>
    w.ledgerCall .tombstone (some record.key) (some false) fun s => s.tombstone record now
  | _, .due now limit, w => w.ledgerCall .due none none fun s => (.ok (s.due now limit), s)
  | _, .send event, w =>
    let (result, w) := w.send event
    (.done result, w)
  | _, .accepts slot event, w => (.done (.ok (w.accepts slot event)), w)
  | _, .supports slot eventType, w => (.done (.ok (w.supports slot eventType)), w)
  | _, .escalate slot event record reason, w =>
    let (verdict, w) := w.escalate slot event record reason
    (.done verdict, w)
  | 0, .handle _ _, w => (.stalled, w)
  | depth + 1, .handle slot event, w => w.handle (answer depth) slot event

/-- How deep handlers may hand events to their consumers. -/
def depth : Nat := 1000

def reply : Work.Replies World :=
  answer depth

/-- The world as a daemon sees it. Time that passes for the daemon does not move the clock. -/
def surroundings : Surroundings World where
  reply := reply
  subscribe w :=
    match w.transport with
    | .scripted _ _ => (none, w)
    | .channel b =>
      let (receiver, b) := b.subscribe
      (some receiver, { w with transport := .channel b })
  unsubscribe receiver w :=
    match w.transport with
    | .scripted _ _ => w
    | .channel b => { w with transport := .channel (b.unsubscribe receiver) }
  receive receiver w :=
    match w.transport with
    | .scripted _ _ => (none, w)
    | .channel b =>
      let (item?, b) := b.receive receiver
      (item?, { w with transport := .channel b })
  waiting receiver w :=
    match w.transport with
    | .scripted _ _ => 0
    | .channel b => b.waiting receiver
  elapse _ w := w

end World

end EventRelay.Rehearsal
