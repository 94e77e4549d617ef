import EventRelay.Proofs.Producer.Course
import EventRelay.Proofs.Work.History

/-!
# What a publication accounts for

Two things in the history of a worker that publishes an event tell how the publication ends: what the
ledger said when a row was to be created (`creations`), and what the transport said when the event
was handed to it (`sends`).  `Producer.Told` says what they are at each stage of the course, and
`Producer.Gave` what they are when it is over, with one line for each of the four outcomes.  The note
that is made on the row in the end is not among them.
-/

namespace EventRelay

/-! ### Histories of publications -/

def Asked.creation? : Asked → Option (Except Error Creation)
  | ⟨.create _, reply⟩ => some reply
  | _ => none

def Asked.send? : Asked → Option (Event × Except Error Unit)
  | ⟨.send event, reply⟩ => some (event, reply)
  | _ => none

def creations (history : List Asked) : List (Except Error Creation) :=
  history.filterMap Asked.creation?

def sends (history : List Asked) : List (Event × Except Error Unit) :=
  history.filterMap Asked.send?

theorem creations_concat (history : List Asked) (asked : Asked) :
    creations (history ++ [asked]) = creations history ++ asked.creation?.toList := by
  unfold creations
  rw [List.filterMap_append]
  cases h : asked.creation? <;> simp [h]

theorem sends_concat (history : List Asked) (asked : Asked) :
    sends (history ++ [asked]) = sends history ++ asked.send?.toList := by
  unfold sends
  rw [List.filterMap_append]
  cases h : asked.send? <;> simp [h]

/-- Whether the event of a row is still to be sent. -/
def Creation.Unsent : Creation → Prop
  | .created _ => True
  | .existing r => r.status ≠ .success

namespace Producer

def key (p : Producer) (eventId : String) : Key :=
  .active eventId .publish p.config.ownerGroup

def Stage.copy? : Stage → Option Record
  | .sending r | .noting r _ _ => some r
  | .recording | .unrecorded | .ended _ => none

/-- **What there is to a publication that has ended.** -/
inductive Gave (event : Event) :
    List (Except Error Creation) → List (Event × Except Error Unit) → Outcome → Prop
  | duplicate {r : Record} (h : r.status = .success) :
      Gave event [.ok (.existing r)] [] .duplicate
  | delivered {c : Creation} (h : c.Unsent) : Gave event [.ok c] [(event, .ok ())] .delivered
  | deferred {c : Creation} {e : Error} (h : c.Unsent) :
      Gave event [.ok c] [(event, .error e)] (.deferred (Message.truncate e.message))
  | unrecorded {e : Error} {reply : Except Error Unit} :
      Gave event [.error e] [(event, reply)] (.unrecorded reply.isOk)

/-- **What there is to a publication at each stage.** -/
inductive Told (event : Event) :
    List (Except Error Creation) → List (Event × Except Error Unit) → Stage → Prop
  | recording : Told event [] [] .recording
  | sending {c : Creation} (h : c.Unsent) : Told event [.ok c] [] (.sending c.record)
  | sent {c : Creation} (h : c.Unsent) :
      Told event [.ok c] [(event, .ok ())] (.noting c.record .succeeded .delivered)
  | refused {c : Creation} {e : Error} (h : c.Unsent) :
      Told event [.ok c] [(event, .error e)]
        (.noting c.record (.deliveryDeferred (Message.truncate e.message))
          (.deferred (Message.truncate e.message)))
  | unrecorded {e : Error} : Told event [.error e] [] .unrecorded
  | ended {created : List (Except Error Creation)} {sent : List (Event × Except Error Unit)}
      {outcome : Outcome} (h : Gave event created sent outcome) :
      Told event created sent (.ended outcome)

variable {p : Producer} {event : Event} {created : List (Except Error Creation)}
  {sent : List (Event × Except Error Unit)} {stage : Stage}

theorem Told.noted {r : Record} {t : Transition} {outcome : Outcome}
    (h : Told event created sent (.noting r t outcome)) : Gave event created sent outcome := by
  cases h with
  | sent h => exact .delivered h
  | refused h => exact .deferred h

theorem Told.move {history : List Asked} (h : Told event (creations history) (sends history) stage)
    {request : Request} {reply : request.Reply} {stage' : Stage}
    (hmove : Moves p event stage request reply stage') :
    Told event (creations (history ++ [⟨request, reply⟩])) (sends (history ++ [⟨request, reply⟩]))
      stage' := by
  rw [creations_concat, sends_concat]
  generalize hcreated : creations history = created at h
  generalize hsent : sends history = sent at h
  cases hmove with
  | clock =>
    cases h
    exact .recording
  | @created now r =>
    cases h
    exact Told.sending (c := .created r) trivial
  | duplicate hsuccess =>
    cases h
    exact .ended (.duplicate hsuccess)
  | @known now r hother =>
    cases h
    exact Told.sending (c := .existing r) hother
  | unable =>
    cases h
    exact .unrecorded
  | sent =>
    cases h with
    | sending h => exact .sent h
  | deferred =>
    cases h with
    | sending h => exact .refused h
  | clockNoting => simpa [Asked.creation?, Asked.send?] using h
  | noted hnext => simpa [Asked.creation?, Asked.send?] using Told.ended h.noted
  | sentUnrecorded =>
    cases h
    exact .ended .unrecorded

theorem Told.gave {outcome : Outcome} (h : Told event created sent stage)
    (hends : Ends stage outcome) : Gave event created sent outcome := by
  cases hends with
  | ended =>
    cases h with
    | ended h => exact h
  | barred hbarred => exact h.noted

theorem Told.length_le (h : Told event created sent stage) : sent.length ≤ 1 := by
  cases h with
  | recording | sending | unrecorded => exact Nat.zero_le 1
  | sent | refused => exact Nat.le_refl 1
  | ended h => cases h <;> simp

theorem Told.known {r : Record} (h : Told event created sent stage)
    (hcreated : .ok (.existing r) ∈ created) (hsuccess : r.status = .success) :
    stage = .ended .duplicate ∧ sent = [] := by
  cases h with
  | recording | unrecorded => simp at hcreated
  | sending hunsent | sent hunsent | refused hunsent =>
    cases List.mem_singleton.mp hcreated
    exact absurd hsuccess hunsent
  | ended h =>
    cases h with
    | duplicate => exact ⟨rfl, rfl⟩
    | delivered hunsent | deferred hunsent =>
      cases List.mem_singleton.mp hcreated
      exact absurd hsuccess hunsent
    | unrecorded => simp at hcreated

namespace Gave

variable {outcome : Outcome}

theorem sent_of_ne_duplicate (h : Gave event created sent outcome) (hne : outcome ≠ .duplicate) :
    ∃ reply, sent = [(event, reply)] := by
  cases h with
  | duplicate => exact absurd rfl hne
  | delivered | deferred | unrecorded => exact ⟨_, rfl⟩

theorem eq_duplicate_iff (h : Gave event created sent outcome) :
    outcome = .duplicate ↔ ∃ r, .ok (.existing r) ∈ created ∧ r.status = .success := by
  cases h with
  | @duplicate r h => exact iff_of_true rfl ⟨r, List.mem_singleton_self _, h⟩
  | delivered h | deferred h =>
    refine iff_of_false nofun ?_
    rintro ⟨r, hmem, hsuccess⟩
    cases List.mem_singleton.mp hmem
    exact h hsuccess
  | unrecorded => exact iff_of_false nofun (by simp)

theorem unrecorded_iff (h : Gave event created sent outcome) :
    (∃ delivered, outcome = .unrecorded delivered) ↔ ∃ e, .error e ∈ created := by
  cases h with
  | duplicate | delivered | deferred => exact iff_of_false nofun (by simp)
  | @unrecorded e => exact iff_of_true ⟨_, rfl⟩ ⟨e, List.mem_singleton_self _⟩

end Gave

end Producer

end EventRelay
