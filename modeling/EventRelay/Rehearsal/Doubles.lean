import EventRelay.Broadcast
import EventRelay.Consumer
/-!
# Doubles

In a rehearsal the code around a relay is played by doubles that follow scripts. A script says what
each call does, one after the other, and what all later calls do.
-/

namespace EventRelay.Rehearsal

/-- What the calls to something do. -/
structure Script (α : Type) where
  entries : List α := []
  rest : α

/-- What the call after so many others does. -/
def Script.at {α : Type} (s : Script α) (calls : Nat) : α :=
  s.entries[calls]?.getD s.rest

/-! ### Handlers -/

/-- What a handler does with an event. -/
inductive Behaviour where
  | succeed
  | stall
  /-- It does what the payload says. -/
  | asPayload
  /-- It fails for a cause, which later ones may wrap. -/
  | fail (causes : List String)
  | panic (text? : Option String)
  /-- It hands another event to its own consumer and waits for the outcome. -/
  | deliver (event : Event) (again : Bool) (next : Behaviour)

/-- The text of a failure: the last wrapping first, the root cause at the end. -/
def causesText (causes : List String) : String :=
  ": ".intercalate causes.reverse

/-- What a payload makes a handler do: it fails if the member `fail` is true. -/
def payloadVerdict (event : Event) : Verdict :=
  match (event.payload.get "fail").bool? with
  | some true =>
    .failed ((event.payload.get "error").text?.getD ("rejected " ++ event.id))
  | _ => .ok

structure HandlerDouble where
  name : String
  types : EventTypes
  /-- It accepts events from this amount on. -/
  leastAmount? : Option Int := none
  script : Script Behaviour := { rest := .succeed }
  calls : Nat := 0

/-- The amount in the payload of an event, zero unless there is a whole number of 64 bits. -/
def amount (event : Event) : Int :=
  (event.payload.get "amount").signed?.getD 0

def HandlerDouble.accepts (h : HandlerDouble) (event : Event) : Bool :=
  match h.leastAmount? with
  | none => true
  | some least => least ≤ amount event

/-! ### Escalation handlers and transport -/

/-- An escalation handler that sends notices to an operator who follows a script. -/
structure EscalationDouble where
  name : String
  types : EventTypes
  script : Script Verdict := { rest := .ok }
  calls : Nat := 0

/-- What carries the published events. -/
inductive Transport where
  | scripted (script : Script (Except Error Unit)) (calls : Nat)
  | channel (b : Broadcast)

def refusingCodec : Codec where
  encode _ := .error (.parse "cannot encode")
  decode _ eventType := .error (.parse ("cannot decode " ++ eventType))

/-- A schedule whose retries are a fixed span apart. It allows retries always, never, or below a
number. -/
inductive Allowance where
  | always
  | never
  | below (limit : Nat)

def Allowance.allows : Allowance → (retryTimes : Nat) → Bool
  | .always, _ => true
  | .never, _ => false
  | .below limit, retryTimes => retryTimes < limit

def fixedSchedule (allowance : Allowance) (base : Instant) (stepSeconds : Int) : Schedule where
  allows retryTimes _ := allowance.allows retryTimes
  scheduledAt n := base.shiftSteps n stepSeconds

/-! ### Faults -/

inductive LedgerCall where
  | find
  | create
  | update
  | due
  | tombstone
  deriving DecidableEq, Repr

inductive Mishap where
  | error (e : Error)
  /-- Other workers come first: one creates a row, one moves the row in question on. The call may be
  refused after that. -/
  | interference (rival? : Option Record) (step? : Option Transition) (refused : Bool)

/-- Something that goes wrong in the n-th call of a kind. -/
structure Fault where
  call : LedgerCall
  nth : Nat
  mishap : Mishap

def step (s : Store) (key : Key) (t : Transition) : Except Overflow Unit × Store :=
  match s.find? key with
  | none => (.ok (), s)
  | some row =>
    match row.transition t row.updateTime with
    | .ok next =>
      let (done, s) := s.update next
      (done.map fun _ => (), s)
    | .error _ => (.ok (), s)

/-- The ledger after other workers came first, unless that was too much for it. -/
def interfere (s : Store) (key? : Option Key) (rival? : Option Record)
    (step? : Option Transition) : Except Overflow Unit × Store :=
  let s := match rival? with
    | some rival => (s.create rival).2
    | none => s
  match key?, step? with
  | some key, some t => step s key t
  | _, _ => (.ok (), s)

end EventRelay.Rehearsal
