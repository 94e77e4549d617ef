import EventRelay.Broadcast
import EventRelay.Relay
/-!
# Surroundings

What answers the requests of workers, hands out the items of a channel, and is changed by the
passing of time. A rehearsal and a running program are surroundings of different kinds for the same
workers.
-/

namespace EventRelay

/-- What workers and daemons work in. -/
structure Surroundings (σ : Type) where
  reply : Work.Replies σ
  subscribe : σ → Option Nat × σ
  unsubscribe : Nat → σ → σ
  receive : Nat → σ → Option (Except Error Event) × σ
  waiting : Nat → σ → Nat
  elapse : Duration → σ → σ

namespace Surroundings

variable {σ : Type}

/-- Receives at most so many items and delivers the events among them, each to its end. -/
def pumpUpTo (env : Surroundings σ) (consumer : Consumer) (receiver : Nat) :
    Nat → σ → Work.Progress (List (Except Error Consumer.Outcome)) × σ
  | 0, s => (.done [], s)
  | count + 1, s =>
    match env.receive receiver s with
    | (none, s) => (.done [], s)
    | (some (.error e), s) =>
      match pumpUpTo env consumer receiver count s with
      | (.done outcomes, s) => (.done (.error e :: outcomes), s)
      | (other, s) => (other, s)
    | (some (.ok event), s) =>
      match (consumer.deliver event).run env.reply s with
      | (.stalled, s) => (.stalled, s)
      | (.crashed text, s) => (.crashed text, s)
      | (.done outcome, s) =>
        match pumpUpTo env consumer receiver count s with
        | (.done outcomes, s) => (.done (outcome :: outcomes), s)
        | (other, s) => (other, s)

/-- Receives until nothing waits any more, and delivers each event. -/
def pump (env : Surroundings σ) (consumer : Consumer) (receiver : Nat) (s : σ) :
    Work.Progress (List (Except Error Consumer.Outcome)) × σ :=
  env.pumpUpTo consumer receiver (env.waiting receiver s + 1) s

end Surroundings

end EventRelay
