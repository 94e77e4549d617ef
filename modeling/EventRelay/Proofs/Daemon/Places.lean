import EventRelay.Broadcast

/-!
# Places in a channel

A channel keeps the last of all events that were ever sent through it (`Broadcast.Holds`), and the
place of a receiver is one among all of them.  So what a receiver gets is decided by three numbers,
its place, how many events were sent, and the capacity (`Broadcast.Holds.receive_cases`).
-/

namespace EventRelay.Broadcast

/-- A channel has been sent these events, and keeps the last of them, as many as it has room for. -/
structure Holds (b : Broadcast) (all : List Event) : Prop where
  sent : b.sent = all.length
  kept : b.kept = all.drop (all.length - b.capacity)

variable {b : Broadcast} {all : List Event} {receiver place : Nat}

theorem holds_withRoom (capacity : Nat) : (withRoom capacity).Holds [] :=
  ⟨rfl, (List.drop_nil).symm⟩

theorem Holds.length_kept (h : b.Holds all) : b.kept.length = min all.length b.capacity := by
  rw [h.kept, List.length_drop]
  omega

theorem Holds.gone_eq (h : b.Holds all) : b.gone = all.length - b.capacity := by
  rw [gone, h.sent, h.length_kept]
  omega

theorem Holds.getElem?_kept (h : b.Holds all) (hkept : all.length ≤ place + b.capacity) :
    b.kept[place - b.gone]? = all[place]? := by
  rw [h.gone_eq, h.kept, List.getElem?_drop]
  congr 1
  omega

/-! ### Receivers -/

theorem lookup_moveTo (h : b.receivers.lookup receiver = some place) (place' : Nat) :
    (b.moveTo receiver place').receivers.lookup receiver = some place' := by
  show (b.receivers.map _).lookup receiver = some place'
  generalize b.receivers = receivers at h
  induction receivers with
  | nil => cases h
  | cons known rest ih =>
    obtain ⟨other, old⟩ := known
    by_cases hsame : other = receiver
    · simp [hsame]
    · have hne : (receiver == other) = false := beq_eq_false_iff_ne.mpr (Ne.symm hsame)
      rw [List.lookup_cons, hne] at h
      simp only [List.map_cons, hsame, if_false, List.lookup_cons, hne]
      exact ih h

theorem Holds.subscribe (h : b.Holds all) :
    b.subscribe.2.Holds all ∧ b.subscribe.2.receivers.lookup b.subscribe.1 = some all.length := by
  refine ⟨⟨h.sent, h.kept⟩, ?_⟩
  show ((b.lastReceiver + 1, b.sent) :: b.receivers).lookup (b.lastReceiver + 1) = _
  rw [List.lookup_cons_self, h.sent]

theorem Holds.moveTo (h : b.Holds all) (receiver place : Nat) :
    (b.moveTo receiver place).Holds all := ⟨h.sent, h.kept⟩

theorem waiting_eq (h : b.receivers.lookup receiver = some place) :
    b.waiting receiver = b.sent - place := by
  rw [waiting, h]

/-- **What a receiver gets.**  At the end it gets nothing.  If it is further behind than the channel
has room for, it is told so, and moved to the oldest event that is kept.  Otherwise it gets the event
at its place. -/
theorem Holds.receive_cases (h : b.Holds all) (hplace : b.receivers.lookup receiver = some place)
    (hle : place ≤ all.length) :
    (place = all.length ∧ b.receive receiver = (none, b)) ∨
      (place + b.capacity < all.length ∧ ∃ e, b.receive receiver =
        (some (.error e), b.moveTo receiver (all.length - b.capacity))) ∨
      (all.length ≤ place + b.capacity ∧ ∃ event, all[place]? = some event ∧
        b.receive receiver = (some (.ok event), b.moveTo receiver (place + 1))) := by
  rcases Nat.lt_or_ge (place + b.capacity) all.length with hlag | hkept
  · have hgone : place < b.gone := by
      rw [h.gone_eq]
      omega
    refine .inr (.inl ⟨hlag, .transport ("channel lagged by " ++ toString (b.gone - place)), ?_⟩)
    rw [← h.gone_eq]
    simp only [receive, hplace, if_pos hgone]
  · have hgone : ¬ place < b.gone := by
      rw [h.gone_eq]
      omega
    have hget := h.getElem?_kept hkept
    rcases Nat.lt_or_eq_of_le hle with hlt | rfl
    · rw [List.getElem?_eq_getElem hlt] at hget
      refine .inr (.inr ⟨hkept, all[place], List.getElem?_eq_getElem hlt, ?_⟩)
      simp only [receive, hplace, if_neg hgone, hget]
    · rw [List.getElem?_eq_none (Nat.le_refl _)] at hget
      refine .inl ⟨rfl, ?_⟩
      simp only [receive, hplace, if_neg hgone, hget]

theorem receive_none (h : (b.receive receiver).1 = none) : (b.receive receiver).2 = b := by
  unfold receive at h ⊢
  split
  · rfl
  next place' hplace =>
    simp only [hplace] at h
    split
    next hgone =>
      rw [if_pos hgone] at h
      cases h
    next hgone =>
      rw [if_neg hgone] at h
      split
      · rfl
      next event hevent =>
        rw [hevent] at h
        cases h

/-! ### Sending -/

theorem send_of_receiver (h : b.receivers.lookup receiver = some place) (event : Event) :
    b.send event =
      (.ok (), { b with
        sent := b.sent + 1
        kept := (b.kept ++ [event]).drop ((b.kept ++ [event]).length - b.capacity) }) := by
  have hsome : b.receivers.isEmpty = false := by
    cases hreceivers : b.receivers with
    | nil => rw [hreceivers] at h; cases h
    | cons known rest => rfl
  simp only [send, hsome, Bool.false_eq_true, if_false]

theorem Holds.send (h : b.Holds all) (hplace : b.receivers.lookup receiver = some place)
    (event : Event) : (b.send event).2.Holds (all ++ [event]) := by
  rw [send_of_receiver hplace]
  refine ⟨?_, ?_⟩
  · show b.sent + 1 = (all ++ [event]).length
    rw [List.length_append, List.length_singleton, h.sent]
  · show (b.kept ++ [event]).drop _ = _
    have hle : all.length - b.capacity ≤ all.length := Nat.sub_le ..
    rw [h.kept, ← List.drop_append_of_le_length hle, List.drop_drop]
    congr 1
    simp only [List.length_drop, List.length_append, List.length_singleton]
    omega

theorem send_error {event : Event} {e : Error} (h : (b.send event).1 = .error e) :
    (b.send event).2 = b := by
  unfold Broadcast.send at h ⊢
  split
  · rfl
  next hsome =>
    rw [if_neg hsome] at h
    cases h

end EventRelay.Broadcast
