import EventRelay.Event
import EventRelay.Ledger.Store
/-!
# Work as data

Publishing, delivering and replaying are written down as data: what a worker does is to ask its
surroundings one `Request` after the other, each chosen by the replies to those before it, until it
is done. The same `Work` can then be carried out against a ledger (`Work.run`), be held up between
any two requests, or be interleaved with that of other workers.

User code may panic, and so may the ledger when it runs out of numbers. Where a worker does not
contain that, its work ends in a crash.
-/

namespace EventRelay

inductive Verdict where
  | ok
  | failed (reason : String)
  | panicked (text : String)
  deriving DecidableEq, Repr

/-- What is reported of a panic without a text. -/
def Verdict.unknownPanic : String := "unknown panic"

/-- What a worker asks its surroundings for. Handlers and escalation handlers are user code, named
by their slots. -/
inductive Request where
  | now
  | find (key : Key)
  | create (record : Record)
  | update (record : Record)
  | tombstone (record : Record) (now : Instant)
  | due (now : Instant) (limit : Nat)
  | send (event : Event)
  | accepts (handler : Nat) (event : Event)
  | handle (handler : Nat) (event : Event)
  | supports (escalation : Nat) (eventType : String)
  | escalate (escalation : Nat) (event : Event) (record : Record) (reason : String)

/-- The type of the reply to a request. A question to user code may be answered by a panic. -/
def Request.Reply : Request → Type
  | .now => Instant
  | .find _ => Except Error (Option Record)
  | .create _ => Except Error Creation
  | .update _ => Except Error Bool
  | .tombstone _ _ => Except Error Bool
  | .due _ _ => Except Error (List Record)
  | .send _ => Except Error Unit
  | .accepts _ _ => Except String Bool
  | .handle _ _ => Verdict
  | .supports _ _ => Except String Bool
  | .escalate _ _ _ _ => Verdict

inductive Work (α : Type) : Type where
  | done (a : α)
  | crash (text : String)
  | ask (request : Request) (next : request.Reply → Work α)

namespace Work

def bind {α β : Type} : Work α → (α → Work β) → Work β
  | .done a, f => f a
  | .crash text, _ => .crash text
  | .ask request next, f => .ask request fun reply => (next reply).bind f

instance : Monad Work where
  pure := .done
  bind := bind

def request (r : Request) : Work r.Reply :=
  .ask r .done

/-- Goes on with a result, or ends with the error that stands in its place. -/
def onOk {ε α β : Type} (w : Work (Except ε α)) (f : α → Work (Except ε β)) : Work (Except ε β) :=
  w.bind fun
    | .ok a => f a
    | .error e => .done (.error e)

@[simp]
theorem bind_done {α β : Type} (a : α) (f : α → Work β) : (done a).bind f = f a := rfl

@[simp]
theorem bind_crash {α β : Type} (text : String) (f : α → Work β) :
    (crash text : Work α).bind f = crash text := rfl

@[simp]
theorem bind_ask {α β : Type} (r : Request) (next : r.Reply → Work α) (f : α → Work β) :
    (ask r next).bind f = ask r fun reply => (next reply).bind f := rfl

theorem bind_done_right {α : Type} (w : Work α) : w.bind done = w := by
  induction w with
  | done a => rfl
  | crash text => rfl
  | ask r next ih => simp only [bind_ask]; congr 1; funext reply; exact ih reply

theorem bind_assoc {α β γ : Type} (w : Work α) (f : α → Work β) (g : β → Work γ) :
    (w.bind f).bind g = w.bind fun a => (f a).bind g := by
  induction w with
  | done a => rfl
  | crash text => rfl
  | ask r next ih => simp only [bind_ask]; congr 1; funext reply; exact ih reply

/-! ### Carrying out -/

inductive Progress (α : Type) where
  | done (a : α)
  | crashed (text : String)
  | stalled

namespace Progress

def map {α β : Type} (f : α → β) : Progress α → Progress β
  | .done a => .done (f a)
  | .crashed text => .crashed text
  | .stalled => .stalled

/-- An overflow that nobody contains is a crash. -/
def ofChecked {α : Type} : Except Overflow α → Progress α
  | .ok a => .done a
  | .error overflow => .crashed overflow.message

end Progress

/-- Answers requests in surroundings with a state. -/
abbrev Replies (σ : Type) : Type := (r : Request) → σ → Progress r.Reply × σ

/-- Carries out work. A request that is never answered stalls it, and one that ends in a panic
crashes it. -/
def run {σ α : Type} (reply : Replies σ) : Work α → σ → Progress α × σ
  | .done a, s => (.done a, s)
  | .crash text, s => (.crashed text, s)
  | .ask r next, s =>
    match reply r s with
    | (.done answer, s) => (next answer).run reply s
    | (.crashed text, s) => (.crashed text, s)
    | (.stalled, s) => (.stalled, s)

/-- The first slot of a list to which user code says yes; a panic on the way is not contained. -/
def firstThat (question : (slot : Nat) → Work (Except String Bool)) :
    List Nat → Work (Option Nat)
  | [] => .done none
  | slot :: rest =>
    (question slot).bind fun
      | .ok true => .done (some slot)
      | .ok false => firstThat question rest
      | .error text => .crash text

end Work

end EventRelay
