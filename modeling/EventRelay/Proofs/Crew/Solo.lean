import EventRelay.Proofs.Crew.Attempts

/-!
# Workers that go on alone

What a worker can do while all others rest is a part of a run of its crew (`Work.Solo.run`), and to
show that a crew can come to something it is enough to let its workers go on one after the other.
A later delivery comes to call a handler in this way when its row can be resumed (`solo_redeliver`),
and a row that cannot be delivered again comes to be given up (`solo_abandon`).
-/

namespace EventRelay

inductive Work.Solo (i : Nat) : Store → Work Report → List Entry → Store → Work Report → Prop
  | rest {s : Store} {w : Work Report} : Solo i s w [] s w
  | ask {s s' s'' : Store} {request : Request} {next : request.Reply → Work Report}
      {reply : request.Reply} {log : List Entry} {w : Work Report}
      (h : s.Replies request reply s') (later : Solo i s' (next reply) log s'' w) :
      Solo i s (.ask request next) (.asked i request reply :: log) s'' w

namespace Work.Solo

variable {i : Nat} {s s' s'' : Store} {w w' w'' : Work Report} {log log' : List Entry}

theorem trans (h : Solo i s w log s' w') (h' : Solo i s' w' log' s'' w'') :
    Solo i s w (log ++ log') s'' w'' := by
  induction h with
  | rest => exact h'
  | ask hreply later ih => exact .ask hreply (ih h')

theorem asked (h : Solo i s w log s' w') {e : Entry} (he : e ∈ log) :
    ∃ request reply, e = .asked i request reply := by
  induction h with
  | rest => exact absurd he List.not_mem_nil
  | ask hreply later ih =>
    rcases List.mem_cons.mp he with rfl | he
    · exact ⟨_, _, rfl⟩
    · exact ih he

/-- **What a worker can do alone its crew can do.** -/
theorem run (h : Solo i s w log s' w') {jobs : List (Work Report)} (hjob : jobs[i]? = some w) :
    Crew.Run ⟨s, jobs⟩ log ⟨s', jobs.set i w'⟩ := by
  induction h generalizing jobs with
  | rest =>
    obtain ⟨hlt, rfl⟩ := List.getElem?_eq_some_iff.mp hjob
    rw [List.set_getElem_self]
    exact .start
  | @ask s s' s'' request next reply log w hreply later ih =>
    have hlt := (List.getElem?_eq_some_iff.mp hjob).1
    have hstep : Crew.Step ⟨s, jobs⟩ (.asked i request reply) ⟨s', jobs.set i (next reply)⟩ :=
      .asked hjob hreply
    have hrun := (Crew.Run.start.step hstep).trans (ih (List.getElem?_set_self hlt))
    rw [List.set_set] at hrun
    exact hrun

end Work.Solo

/-! ### Rows that can be resumed -/

def Entry.selection? : Entry → Option Instant
  | .asked _ (.due now _) _ => some now
  | _ => none

def selections (log : List Entry) : List Instant :=
  log.filterMap Entry.selection?

theorem selections_append (log log' : List Entry) :
    selections (log ++ log') = selections log ++ selections log' :=
  List.filterMap_append

/-- Whether a later delivery can get hold of the row under a key: one that is merely created has to
be taken over first, which counts its version up. -/
def Store.Resumable (s : Store) (key : Key) : Prop :=
  ∃ row, s.find? key = some row ∧
    (row.status = .retrying ∨ row.status = .created ∧ row.Revisable)

theorem Store.resumable_of_open {s : Store} {key : Key} {row : Record}
    (hfind : s.find? key = some row) (hopen : row.status.isTerminal = false)
    (hrevisable : row.Revisable) : s.Resumable key := by
  refine ⟨row, hfind, ?_⟩
  cases hstatus : row.status with
  | created => exact .inr ⟨rfl, hrevisable⟩
  | retrying => exact .inl rfl
  | success | failed =>
    rw [hstatus] at hopen
    cases hopen

section Solo

variable {s : Store} {i : Nat} {c : Consumer} {event : Event} {slot : Nat} {rest : List Nat}
  (f : Except Error Consumer.Outcome → Work Report)

theorem solo_attempt (hslots : c.routes.candidates event.eventType = slot :: rest) (r : Record) :
    ∃ w, Work.Solo i s ((c.attempt event r).bind f)
      [.asked i (.accepts slot event) (.ok true), .asked i (.handle slot event) Verdict.ok] s w := by
  unfold Consumer.attempt
  rw [hslots]
  exact ⟨_, .ask (.inl rfl) (.ask (.inl rfl) .rest)⟩

theorem solo_write {r next : Record} {t : Transition} {now : Instant}
    (hfind : s.find? r.key = some r) (hopen : r.status.isTerminal = false)
    (hrevisable : r.Revisable) (hnext : r.transition t now = .ok next)
    (g : Except Error (Option Record) → Work Report) :
    Work.Solo i s ((r.write t).bind g)
      [.asked i .now now, .asked i (.update next) (.ok true)] (s.replace next.revised)
        (g (.ok (some next.revised))) := by
  have hversion := Record.version_transition hnext
  have hupdate : s.update next = (.ok true, s.replace next.revised) :=
    Store.update_of_revisable (Record.key_transition hnext ▸ hfind) hversion.symm hopen
      (Record.revisable_of_version hversion hrevisable)
  refine .ask (.inl rfl) ?_
  simp only [hnext]
  exact .ask (.inl ⟨true, hupdate, rfl⟩) .rest

/-- **A row that can be resumed is tried.**  It can be resumed again as long as the handler has not
answered. -/
theorem solo_redeliver (hrow : s.Resumable (c.key event.id))
    (hslots : c.routes.candidates event.eventType ≠ []) :
    ∃ log s' w slot, Work.Solo i s ((c.redeliver event).bind f)
        (log ++ [.asked i (.handle slot event) Verdict.ok]) s' w ∧
      handlers event.id log = [] ∧ selections log = [] ∧
        s'.Resumable (c.key event.id) := by
  obtain ⟨slot, rest, hslots⟩ := List.exists_cons_of_ne_nil hslots
  obtain ⟨row, hfind, hstatus⟩ := hrow
  have hfound : s.Replies (.find (c.key event.id)) (.ok (some row)) s := .inl ⟨hfind ▸ rfl, rfl⟩
  rcases hstatus with hretrying | ⟨hcreated, hrevisable⟩
  · obtain ⟨w, hattempt⟩ := solo_attempt (s := s) (i := i) f hslots row
    refine ⟨[.asked i (.find (c.key event.id)) (.ok (some row)),
      .asked i (.accepts slot event) (.ok true)], s, w, slot, .ask hfound ?_, rfl, rfl,
      row, hfind, .inl hretrying⟩
    simp only [hretrying]
    exact hattempt
  · -- the row is taken over before it is tried
    have hkey := Store.key_of_find? hfind
    let now : Instant := default
    obtain ⟨next, hnext⟩ : ∃ next, row.transition (.claimed (c.leaseUntil now)) now = .ok next := by
      unfold Record.transition
      rw [hcreated]
      exact ⟨_, rfl⟩
    have hopen : row.status.isTerminal = false := by rw [hcreated]; rfl
    have hclaim := solo_write (i := i) (hkey ▸ hfind) hopen hrevisable hnext
    obtain ⟨w, hattempt⟩ :=
      solo_attempt (s := s.replace next.revised) (i := i) f hslots next.revised
    refine ⟨[.asked i (.find (c.key event.id)) (.ok (some row)), .asked i .now now,
      .asked i .now now, .asked i (.update next) (.ok true),
      .asked i (.accepts slot event) (.ok true)], s.replace next.revised, w, slot, ?_, rfl, rfl,
      next.revised, Store.find?_replace_of_eq hfind ?_, .inl (Record.status_transition hnext)⟩
    · refine .ask hfound ?_
      simp only [hcreated]
      refine .ask (.inl rfl) ?_
      show Work.Solo i s (((row.write (.claimed (c.leaseUntil now))).bind _).bind f) _ _ _
      rw [Work.bind_assoc]
      exact (hclaim _).trans hattempt
    · exact (Record.key_transition hnext).trans hkey

/-- **A row that cannot be delivered again is given up.** -/
theorem solo_abandon {r : Record} (hfind : s.find? r.key = some r) (hretrying : r.status = .retrying)
    (hrevisable : r.Revisable) (reason : String) :
    ∃ log w, ∃ next : Record,
      Work.Solo i s ((c.abandon r reason).bind f) log (s.replace next.revised) w ∧
        selections log = [] ∧ next.key = r.key ∧ next.status = .failed := by
  let now : Instant := default
  let t : Transition := .failed ("replay aborted: " ++ Message.truncate reason)
  obtain ⟨next, hnext⟩ := Record.transition_of_retrying hretrying t now
  have hopen : r.status.isTerminal = false := by rw [hretrying]; rfl
  have hsolo : ∃ w, Work.Solo i s ((c.abandon r reason).bind f)
      [.asked i .now now, .asked i (.update next) (.ok true)] (s.replace next.revised) w := by
    apply Exists.intro
    show Work.Solo i s (((r.write t).bind _).bind f) _ _ _
    rw [Work.bind_assoc]
    exact solo_write hfind hopen hrevisable hnext _
  obtain ⟨w, hsolo⟩ := hsolo
  exact ⟨_, w, next, hsolo, rfl, Record.key_transition hnext, Record.status_transition hnext⟩

end Solo

end EventRelay
