import EventRelay.Producer
/-!
# Units of work

The events of one change are held back until it is certain that the change happened. A unit of work
collects them; `commit` hands them to the producer in the order in which they were recorded,
`rollback` discards them, and one of the two ends it. A unit that was marked to be rolled back only
discards its events on a commit, too.
-/

namespace EventRelay

/-- The events of one change. -/
structure WorkUnit where
  pending : List Event := []
  completed : Bool := false
  rollbackOnly : Bool := false

namespace WorkUnit

def record (u : WorkUnit) (event : Event) : Except UnitError WorkUnit :=
  if u.completed then .error .completed else .ok { u with pending := u.pending ++ [event] }

def setRollbackOnly (u : WorkUnit) : WorkUnit :=
  { u with rollbackOnly := true }

def complete (u : WorkUnit) : Except UnitError (List Event) × WorkUnit :=
  if u.completed then (.error .completed, u)
  else (.ok u.pending, { u with pending := [], completed := true })

/-- Ends a unit in order to publish what it gives. -/
def commit (u : WorkUnit) : Except UnitError (List Event) × WorkUnit :=
  match u.complete with
  | (.error e, u) => (.error e, u)
  | (.ok events, ended) =>
    if u.rollbackOnly then (.error (.rollbackOnly events.length), ended) else (.ok events, ended)

/-- Ends a unit and gives the number of events discarded. -/
def rollback (u : WorkUnit) : Except UnitError Nat × WorkUnit :=
  match u.complete with
  | (.error e, u) => (.error e, u)
  | (.ok events, ended) => (.ok events.length, ended)

end WorkUnit

def Producer.publishAll (p : Producer) : List Event → Work (List Producer.Outcome)
  | [] => .done []
  | event :: rest =>
    (p.publish event).bind fun outcome =>
      (p.publishAll rest).bind fun outcomes => .done (outcome :: outcomes)

/-! ### Calls -/

inductive UnitCall where
  | record (event : Event)
  | commit
  | rollback
  | setRollbackOnly
  | state

inductive UnitReply where
  | recorded
  | published (outcomes : List Producer.Outcome)
  | discarded (count : Nat)
  | marked
  | state (u : WorkUnit)
  | refused (e : UnitError)

def WorkUnit.perform (p : Producer) (u : WorkUnit) : UnitCall → Work (UnitReply × WorkUnit)
  | .record event =>
    match u.record event with
    | .ok next => .done (.recorded, next)
    | .error e => .done (.refused e, u)
  | .commit =>
    match u.commit with
    | (.ok events, ended) =>
      (p.publishAll events).bind fun outcomes => .done (.published outcomes, ended)
    | (.error e, ended) => .done (.refused e, ended)
  | .rollback =>
    match u.rollback with
    | (.ok count, ended) => .done (.discarded count, ended)
    | (.error e, ended) => .done (.refused e, ended)
  | .setRollbackOnly => .done (.marked, u.setRollbackOnly)
  | .state => .done (.state u, u)

end EventRelay
