import EventRelay.Work
/-!
# Guarded writes

A worker changes a row by sending back a changed copy of what it has read. The ledger refuses the
copy when the row has moved on since, and then the worker's change is lost on purpose: whoever
moved the row is responsible for it now.
-/

namespace EventRelay.Record

/-- Sends back a changed copy. The reply is the row as it is stored then, or `none` when the copy
was refused. -/
def write (r : Record) (t : Transition) : Work (Except Error (Option Record)) :=
  .ask .now fun now =>
    match r.transition t now with
    | .error e => .done (.error e)
    | .ok next =>
      .ask (.update next) fun
        | .ok true => .done (.ok (some next.revised))
        | .ok false => .done (.ok none)
        | .error e => .done (.error e)

end EventRelay.Record
