import EventRelay.Consumer
/-!
# Replaying due rows

A replayer looks for due rows, makes the events again from what the ledger keeps of them, and has
them delivered once more. A row from which no event can be made is given up: left as it is, it would
come first in every later scan. The rows of a scan are independent of each other, and so many of
them as the configuration says are handled at the same time.
-/

namespace EventRelay

structure Replayer where
  config : SchedulerConfig
  consumer : Consumer
  codec : Codec

/-- What a scan did, row by row in numbers. -/
structure ScanReport where
  selected : Nat := 0
  succeeded : Nat := 0
  rescheduled : Nat := 0
  failed : Nat := 0
  skipped : Nat := 0
  errors : Nat := 0
  deriving DecidableEq, Repr

def ScanReport.count (s : ScanReport) : Except Error Consumer.Outcome → ScanReport
  | .ok .succeeded => { s with succeeded := s.succeeded + 1 }
  | .ok (.rescheduled _ _) => { s with rescheduled := s.rescheduled + 1 }
  | .ok .failed | .ok .unhandled => { s with failed := s.failed + 1 }
  | .ok (.skipped _) | .ok .missing | .ok .conflict => { s with skipped := s.skipped + 1 }
  | .error _ => { s with errors := s.errors + 1 }

namespace Replayer

def select (_ : Replayer) (batch : Nat) : Work (Except Error (List Record)) :=
  .ask .now fun now => .request (.due now batch)

/-- The event that a row was created for. -/
def rebuild (p : Replayer) (r : Record) : Except Error Event :=
  match r.payload with
  | none => .error (.invalidState ("ledger record " ++ toString r.id ++ " has no payload to replay"))
  | some bytes =>
    (p.codec.decode bytes r.eventType).map fun payload => { Consumer.remains r with payload }

def replay (p : Replayer) (r : Record) : Work (Except Error Consumer.Outcome) :=
  match p.rebuild r with
  | .ok event => p.consumer.redeliver event
  | .error e => p.consumer.abandon r e.message

def places (p : Replayer) : Nat :=
  max p.config.concurrency 1

/-- Carries the replay of rows out in their order. A row whose handler never comes back keeps its
place for ever; once it is the last place, the rest of the rows is never begun. The scan ends when
all its rows do. -/
def runRows {σ : Type} (reply : Work.Replies σ) (p : Replayer) :
    (places : Nat) → (stalled : Bool) → ScanReport → List Record → σ → Work.Progress ScanReport × σ
  | 0, _, _, _, s => (.stalled, s)
  | _ + 1, stalled, report, [], s => (if stalled then .stalled else .done report, s)
  | places + 1, stalled, report, r :: rest, s =>
    match (p.replay r).run reply s with
    | (.done outcome, s) => p.runRows reply (places + 1) stalled (report.count outcome) rest s
    | (.crashed text, s) => (.crashed text, s)
    | (.stalled, s) => p.runRows reply places true report rest s
termination_by _ _ _ rows => rows.length

def run {σ : Type} (reply : Work.Replies σ) (p : Replayer) (batch : Nat)
    (s : σ) : Work.Progress (Except Error ScanReport) × σ :=
  match (p.select batch).run reply s with
  | (.done (.error e), s) => (.done (.error e), s)
  | (.crashed text, s) => (.crashed text, s)
  | (.stalled, s) => (.stalled, s)
  | (.done (.ok rows), s) =>
    match p.runRows reply p.places false { selected := rows.length } rows s with
    | (.done report, s) => (.done (.ok report), s)
    | (.crashed text, s) => (.crashed text, s)
    | (.stalled, s) => (.stalled, s)

end Replayer

end EventRelay
