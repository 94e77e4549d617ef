import EventRelay.WorkUnit
import EventRelay.Proofs.Log
import EventRelay.Proofs.Work.History

/-!
# Callers of a unit of work

A unit of work may be called by many at once.  Its events are behind a lock, its two flags are not,
so a call is a short sequence of atomic steps: a commit takes the events out and looks at the mark
afterwards, and whoever asks for the state reads its three parts one after the other.  Between any
two steps it is open whose turn is next.

`UnitCall.Moves` are the steps of one call; they add up to `WorkUnit.perform` where nobody
interferes (`UnitCall.Moves.rest_eq`).  `Callers.Run p init log callers` says that the steps of `log`
lead from `init` to `callers`; whatever a commit asks for may be answered in any way, and a caller
that never gets its turn again has been given up.
-/

namespace EventRelay

/-! ### Work after a history -/

/-- What is left of work after a history of it. -/
inductive Work.After {α : Type} (w : Work α) : List Asked → Work α → Prop
  | start : After w [] w
  | asked {history : List Asked} {request : Request} {next : request.Reply → Work α}
      (prior : After w history (.ask request next)) (reply : request.Reply) :
      After w (history ++ [⟨request, reply⟩]) (next reply)

namespace Work

variable {α β : Type}

theorem After.of_done {a : α} {history : List Asked} {rest : Work α}
    (h : (Work.done a).After history rest) : history = [] ∧ rest = .done a := by
  induction h with
  | start => exact ⟨rfl, rfl⟩
  | asked prior reply ih => cases ih.2

theorem After.bind_cases {w : Work β} {f : β → Work α} {history : List Asked} {rest : Work α}
    (h : (w.bind f).After history rest) :
    (∃ rest', w.After history rest' ∧ rest = rest'.bind f) ∨
      ∃ first second b, w.After first (.done b) ∧ (f b).After second rest ∧
        history = first ++ second := by
  induction h with
  | start => exact .inl ⟨w, .start, rfl⟩
  | @asked history request next prior reply ih =>
    rcases ih with ⟨rest', hw, heq⟩ | ⟨first, second, b, hw, hf, rfl⟩
    · cases rest' with
      | done b =>
        rw [bind_done] at heq
        refine .inr ⟨history, [⟨request, reply⟩], b, hw, ?_, rfl⟩
        have hstart : (f b).After [] (.ask request next) := heq ▸ .start
        exact hstart.asked reply
      | crash text => cases heq
      | ask request' next' =>
        cases heq
        exact .inl ⟨next' reply, hw.asked reply, rfl⟩
    · exact .inr ⟨first, second ++ [⟨request, reply⟩], b, hw, hf.asked reply,
        List.append_assoc ..⟩

theorem After.bind_done {w : Work β} {f : β → Work α} {history : List Asked} {a : α}
    (h : (w.bind f).After history (.done a)) :
    ∃ first second b, w.After first (.done b) ∧ (f b).After second (.done a) ∧
      history = first ++ second := by
  rcases h.bind_cases with ⟨rest, hw, heq⟩ | hboth
  · cases rest with
    | done b =>
      rw [Work.bind_done] at heq
      exact ⟨history, [], b, hw, heq ▸ .start, (List.append_nil history).symm⟩
    | crash text => cases heq
    | ask request next => cases heq
  · exact hboth

end Work

/-- Events that were published one after the other: each has a history of its own, which ends in the
outcome at its place. -/
inductive Producer.Published (p : Producer) : List Event → List Asked → List Outcome → Prop
  | nil : Published p [] [] []
  | cons {event : Event} {events : List Event} {first more : List Asked} {outcome : Outcome}
      {outcomes : List Outcome} (hfirst : (p.publish event).After first (.done outcome))
      (hmore : Published p events more outcomes) :
      Published p (event :: events) (first ++ more) (outcome :: outcomes)

theorem Producer.published_of_after {p : Producer} {events : List Event} {history : List Asked}
    {outcomes : List Outcome} (h : (p.publishAll events).After history (.done outcomes)) :
    p.Published events history outcomes := by
  induction events generalizing history outcomes with
  | nil =>
    obtain ⟨rfl, hdone⟩ := h.of_done
    cases hdone
    exact .nil
  | cons event events ih =>
    obtain ⟨first, second, outcome, hfirst, hsecond, rfl⟩ := h.bind_done
    obtain ⟨more, last, others, hmore, hlast, rfl⟩ := hsecond.bind_done
    obtain ⟨rfl, hdone⟩ := hlast.of_done
    cases hdone
    rw [List.append_nil]
    exact .cons hfirst (ih hmore)

theorem Producer.Published.length_eq {p : Producer} {events : List Event} {history : List Asked}
    {outcomes : List Outcome} (h : p.Published events history outcomes) :
    outcomes.length = events.length := by
  induction h with
  | nil => rfl
  | cons hfirst hmore ih => rw [List.length_cons, List.length_cons, ih]

/-! ### The steps of a call -/

namespace UnitCall

inductive Stage where
  | made
  /-- A commit has ended the unit, and is to look whether it may publish the events. -/
  | holding (events : List Event)
  | publishing (work : Work (List Producer.Outcome))
  /-- Of the state, the events held back are known, -/
  | counted (pending : List Event)
  /-- and whether the unit has ended. -/
  | seen (pending : List Event) (completed : Bool)
  | ended (reply : UnitReply)

/-- **The steps of a call** on a unit of work.  The requests of a commit are not among them. -/
inductive Moves (p : Producer) (u : WorkUnit) : UnitCall → Stage → Stage → WorkUnit → Prop
  | recorded {event : Event} {next : WorkUnit} (h : u.record event = .ok next) :
      Moves p u (.record event) .made (.ended .recorded) next
  | barred {event : Event} {e : UnitError} (h : u.record event = .error e) :
      Moves p u (.record event) .made (.ended (.refused e)) u
  | took {events : List Event} {next : WorkUnit} (h : u.complete = (.ok events, next)) :
      Moves p u .commit .made (.holding events) next
  | uncommitted {e : UnitError} {next : WorkUnit} (h : u.complete = (.error e, next)) :
      Moves p u .commit .made (.ended (.refused e)) next
  | discarded {count : Nat} {next : WorkUnit} (h : u.rollback = (.ok count, next)) :
      Moves p u .rollback .made (.ended (.discarded count)) next
  | undiscarded {e : UnitError} {next : WorkUnit} (h : u.rollback = (.error e, next)) :
      Moves p u .rollback .made (.ended (.refused e)) next
  | doomed {events : List Event} (h : u.rollbackOnly = true) :
      Moves p u .commit (.holding events) (.ended (.refused (.rollbackOnly events.length))) u
  | sound {events : List Event} (h : u.rollbackOnly = false) :
      Moves p u .commit (.holding events) (.publishing (p.publishAll events)) u
  | published {outcomes : List Producer.Outcome} :
      Moves p u .commit (.publishing (.done outcomes)) (.ended (.published outcomes)) u
  | marked : Moves p u .setRollbackOnly .made (.ended .marked) u.setRollbackOnly
  | counted : Moves p u .state .made (.counted u.pending) u
  | seen {pending : List Event} : Moves p u .state (.counted pending) (.seen pending u.completed) u
  | told {pending : List Event} {completed : Bool} :
      Moves p u .state (.seen pending completed)
        (.ended (.state ⟨pending, completed, u.rollbackOnly⟩)) u

/-- What a call has still to do if nobody else calls the unit. -/
def Stage.rest (p : Producer) (u : WorkUnit) (call : UnitCall) :
    Stage → Work (UnitReply × WorkUnit)
  | .made => u.perform p call
  | .holding events =>
    if u.rollbackOnly then .done (.refused (.rollbackOnly events.length), u)
    else (p.publishAll events).bind fun outcomes => .done (.published outcomes, u)
  | .publishing work => work.bind fun outcomes => .done (.published outcomes, u)
  | .counted pending => .done (.state ⟨pending, u.completed, u.rollbackOnly⟩, u)
  | .seen pending completed => .done (.state ⟨pending, completed, u.rollbackOnly⟩, u)
  | .ended reply => .done (reply, u)

variable {p : Producer} {u next : WorkUnit} {call : UnitCall} {stage stage' : Stage}

/-- **The steps of a call are those of `WorkUnit.perform`.**  A caller that is alone ends as the call
does when it is carried out at once, whatever steps it has made. -/
theorem Moves.rest_eq (h : Moves p u call stage stage' next) :
    stage.rest p u call = stage'.rest p next call := by
  cases h with
  | recorded h => simp only [Stage.rest, WorkUnit.perform, h]
  | barred h => simp only [Stage.rest, WorkUnit.perform, h]
  | @took events next h =>
    have hmark : next.rollbackOnly = u.rollbackOnly := by
      unfold WorkUnit.complete at h
      split at h <;> cases h
      rfl
    cases hdoomed : u.rollbackOnly <;>
      simp only [Stage.rest, WorkUnit.perform, WorkUnit.commit, h, hmark, hdoomed, if_true,
        Bool.false_eq_true, if_false]
  | uncommitted h => simp only [Stage.rest, WorkUnit.perform, WorkUnit.commit, h]
  | discarded h => simp only [Stage.rest, WorkUnit.perform, h]
  | undiscarded h => simp only [Stage.rest, WorkUnit.perform, h]
  | doomed h => simp only [Stage.rest, h, if_true]
  | sound h => simp only [Stage.rest, h, Bool.false_eq_true, if_false]
  | published => rfl
  | marked => rfl
  | counted => rfl
  | seen => rfl
  | told => rfl

theorem exists_moves (p : Producer) (u : WorkUnit) (call : UnitCall) :
    ∃ stage next, Moves p u call .made stage next := by
  cases call with
  | record event =>
    cases h : u.record event with
    | ok next => exact ⟨_, _, .recorded h⟩
    | error e => exact ⟨_, _, .barred h⟩
  | commit =>
    match h : u.complete with
    | (.ok events, next) => exact ⟨_, _, .took h⟩
    | (.error e, next) => exact ⟨_, _, .uncommitted h⟩
  | rollback =>
    match h : u.rollback with
    | (.ok count, next) => exact ⟨_, _, .discarded h⟩
    | (.error e, next) => exact ⟨_, _, .undiscarded h⟩
  | setRollbackOnly => exact ⟨_, _, .marked⟩
  | state => exact ⟨_, _, .counted⟩

end UnitCall

/-! ### Callers -/

/-- A unit of work and the calls made to it. -/
structure Callers where
  unit : WorkUnit := {}
  calls : List (UnitCall × UnitCall.Stage) := []

namespace Callers

/-- A step of a caller.  Callers are known by their places. -/
inductive Entry where
  | made (call : UnitCall)
  | moved (caller : Nat) (call : UnitCall) (stage stage' : UnitCall.Stage)
  /-- A commit that publishes has asked for something. -/
  | asked (caller : Nat) (exchange : Asked)

/-- **The steps of callers.** -/
inductive Step (p : Producer) : Callers → Entry → Callers → Prop
  | made {u : WorkUnit} {calls : List (UnitCall × UnitCall.Stage)} (call : UnitCall) :
      Step p ⟨u, calls⟩ (.made call) ⟨u, calls ++ [(call, .made)]⟩
  | moved {u next : WorkUnit} {calls : List (UnitCall × UnitCall.Stage)} {i : Nat} {call : UnitCall}
      {stage stage' : UnitCall.Stage} (hcall : calls[i]? = some (call, stage))
      (h : call.Moves p u stage stage' next) :
      Step p ⟨u, calls⟩ (.moved i call stage stage') ⟨next, calls.set i (call, stage')⟩
  | asked {u : WorkUnit} {calls : List (UnitCall × UnitCall.Stage)} {i : Nat} {request : Request}
      {next : request.Reply → Work (List Producer.Outcome)}
      (hcall : calls[i]? = some (.commit, .publishing (.ask request next)))
      (reply : request.Reply) :
      Step p ⟨u, calls⟩ (.asked i ⟨request, reply⟩)
        ⟨u, calls.set i (.commit, .publishing (next reply))⟩

inductive Run (p : Producer) (init : Callers) : List Entry → Callers → Prop
  | start : Run p init [] init
  | step {log : List Entry} {callers callers' : Callers} {entry : Entry}
      (prior : Run p init log callers) (h : Step p callers entry callers') :
      Run p init (log ++ [entry]) callers'

theorem Run.throughout {p : Producer} {init callers : Callers} {log : List Entry}
    {P : List Entry → Entry → Prop} (hrun : Run p init log callers)
    (hstep : ∀ log callers entry callers', Run p init log callers → Step p callers entry callers' →
      P log entry) : Throughout P log := by
  induction hrun with
  | start => exact throughout_nil
  | step prior h ih => exact throughout_concat.mpr ⟨ih, hstep _ _ _ _ prior h⟩

end Callers

end EventRelay
