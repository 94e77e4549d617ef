import EventRelay.Producer
import EventRelay.Proofs.Work.Follows

/-!
# The course of a publication

The positions and moves of a worker that publishes an event.  It creates a row or finds one, sends
the event unless the row says that it was sent, and notes on the row whether that worked.  Nothing
that the ledger does to the note changes the outcome.
-/

namespace EventRelay.Producer

inductive Stage where
  | recording
  | sending (r : Record)
  /-- The event was sent or refused, which is to be noted on the row. -/
  | noting (r : Record) (t : Transition) (outcome : Outcome)
  | unrecorded
  | ended (outcome : Outcome)

variable (p : Producer) (event : Event)

/-- **The moves of a publication.** -/
inductive Moves : Stage → (request : Request) → request.Reply → Stage → Prop
  | created {now : Instant} {r : Record} :
      Moves .recording (.create (p.freshRecord event now)) (.ok (.created r)) (.sending r)
  | duplicate {now : Instant} {r : Record} (h : r.status = .success) :
      Moves .recording (.create (p.freshRecord event now)) (.ok (.existing r)) (.ended .duplicate)
  | known {now : Instant} {r : Record} (h : r.status ≠ .success) :
      Moves .recording (.create (p.freshRecord event now)) (.ok (.existing r)) (.sending r)
  | unable {now : Instant} {e : Error} :
      Moves .recording (.create (p.freshRecord event now)) (.error e) .unrecorded
  | sent {r : Record} :
      Moves (.sending r) (.send event) (.ok ()) (.noting r .succeeded .delivered)
  | deferred {r : Record} {e : Error} :
      Moves (.sending r) (.send event) (.error e)
        (.noting r (.deliveryDeferred (Message.truncate e.message))
          (.deferred (Message.truncate e.message)))
  | noted {r next : Record} {t : Transition} {outcome : Outcome} {now : Instant}
      {reply : Except Error Bool} (h : r.transition t now = .ok next) :
      Moves (.noting r t outcome) (.update next) reply (.ended outcome)
  | sentUnrecorded {reply : Except Error Unit} :
      Moves .unrecorded (.send event) reply (.ended (.unrecorded reply.isOk))
  | clock {now : Instant} : Moves .recording .now now .recording
  | clockNoting {r : Record} {t : Transition} {outcome : Outcome} {now : Instant} :
      Moves (.noting r t outcome) .now now (.noting r t outcome)

inductive Ends : Stage → Outcome → Prop
  | ended {outcome : Outcome} : Ends (.ended outcome) outcome
  | barred {r : Record} {t : Transition} {outcome : Outcome} {now : Instant} {e : Error}
      (h : r.transition t now = .error e) : Ends (.noting r t outcome) outcome

/-- The course of a publication, on which nothing crashes. -/
def course : Course Stage where
  moves := Moves p event
  crashes _ _ := False

variable {p event}

theorem follows_note (r : Record) (t : Transition) (outcome : Outcome) :
    ((r.write t).bind fun _ => .done outcome).Follows (course p event) Ends
      (.noting r t outcome) := by
  refine Work.Follows.bind (m := fun s _ => Ends s outcome) ?_ fun s' _ hend => hend
  refine Work.follows_write (fun now => .clockNoting) (fun now e h => .barred h) ?_
  intro now next hnext reply
  exact ⟨_, .noted hnext, .ended⟩

theorem follows_send (r : Record) :
    (send event r).Follows (course p event) Ends (.sending r) := by
  refine .ask fun reply => ?_
  match reply with
  | .ok () => exact ⟨_, .sent, follows_note r .succeeded .delivered⟩
  | .error e => exact ⟨_, .deferred, follows_note r _ _⟩

/-- **Publications keep to the course.** -/
theorem follows_publish (p : Producer) (event : Event) :
    (p.publish event).Follows (course p event) Ends .recording := by
  refine .ask fun now => ⟨.recording, .clock, .ask fun reply => ?_⟩
  match reply with
  | .ok (.created r) => exact ⟨_, .created, follows_send r⟩
  | .ok (.existing r) =>
    by_cases hstatus : r.status = .success
    · simp only [if_pos hstatus]
      exact ⟨_, .duplicate hstatus, .ended⟩
    · simp only [if_neg hstatus]
      exact ⟨_, .known hstatus, follows_send r⟩
  | .error e => exact ⟨_, .unable, .ask fun sent => ⟨_, .sentUnrecorded, .ended⟩⟩

end EventRelay.Producer
