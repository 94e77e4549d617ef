import EventRelay.WorkUnit
/-!
# Scopes

A task opens a scope around a change. Events recorded inside are held back by the unit of work of
the outermost scope that is open, and are published when that scope ends well. A scope inside
another one has no unit of its own: if it fails, the outer unit can only be rolled back. Outside any
scope, and in tasks apart, events are published at once.

`Task` is the state of a task between two activities; `Activity` is what happens in a scope, a tree,
and `Activity.run` carries it out.
-/

namespace EventRelay

/-- What a task has open: the unit of work of its outermost scope. -/
structure Task where
  current? : Option WorkUnit := none

inductive Recorded where
  | buffered
  | published (outcome : Producer.Outcome)

inductive Ending where
  | succeeded
  | failed
  /-- It was given up on the way, and what surrounds it goes on. -/
  | abandoned
  | stalled
  deriving DecidableEq, Repr

namespace Task

/-- Records an event in the current unit of work, or publishes it where there is none. -/
def record (p : Producer) (t : Task) (event : Event) :
    Work (Except UnitError Recorded × Task) :=
  match t.current? with
  | some u =>
    match u.record event with
    | .ok next => .done (.ok .buffered, ⟨some next⟩)
    | .error e => .done (.error e, t)
  | none => (p.publish event).bind fun outcome => .done (.ok (.published outcome), t)

def enter (t : Task) : Task :=
  ⟨some (t.current?.getD {})⟩

def leaveInner (t : Task) : Ending → Task
  | .failed => ⟨t.current?.map WorkUnit.setRollbackOnly⟩
  | .succeeded | .abandoned | .stalled => t

/-- The task after its outermost scope, and the events to be published then. A unit of work that
was ended inside the scope gives none. -/
def leaveOuter (t : Task) : Ending → List Event × Task
  | .succeeded =>
    match t.current? with
    | none => ([], {})
    | some u =>
      match u.commit with
      | (.ok events, _) => (events, {})
      | (.error _, _) => ([], {})
  | .failed | .abandoned | .stalled => ([], {})

def leave (p : Producer) (t inside : Task) (ending : Ending) : Work Task :=
  match t.current? with
  | some _ => .done (inside.leaveInner ending)
  | none =>
    let (events, outside) := inside.leaveOuter ending
    (p.publishAll events).bind fun _ => .done outside

end Task

/-! ### Activities -/

inductive Activity where
  | record (event : Event)
  /-- The event is recorded by a task of its own, which has no scope open. -/
  | recordApart (event : Event)
  | onUnit (call : UnitCall)
  | scope (body : List Activity) (ending : Ending)

inductive Trace where
  | recorded (result : Except UnitError Recorded)
  | answered (reply? : Option UnitReply)
  | scope (ending : Ending) (body : List Trace)

mutual

def Activity.run (p : Producer) (t : Task) : Activity → Work (Option Trace × Task)
  | .record event =>
    (t.record p event).bind fun (result, t) => .done (some (.recorded result), t)
  | .recordApart event =>
    (Task.record p {} event).bind fun (result, _) => .done (some (.recorded result), t)
  | .onUnit call =>
    match t.current? with
    | none => .done (some (.answered none), t)
    | some u =>
      (u.perform p call).bind fun (reply, u) => .done (some (.answered (some reply)), ⟨some u⟩)
  | .scope body ending =>
    (Activity.runAll p t.enter body).bind fun (finished, traces, inside) =>
      let ending := if finished then ending else .stalled
      (t.leave p inside ending).bind fun after =>
        .done
          (if ending = .stalled ∧ t.current?.isSome then none else some (.scope ending traces), after)

def Activity.runAll (p : Producer) (t : Task) : List Activity → Work (Bool × List Trace × Task)
  | [] => .done (true, [], t)
  | activity :: rest =>
    (Activity.run p t activity).bind fun
      | (none, t) => .done (false, [], t)
      | (some trace, t) =>
        (Activity.runAll p t rest).bind fun (finished, traces, t) =>
          .done (finished, trace :: traces, t)

end

end EventRelay
