import EventRelay.Proofs.WorkUnit.Callers

/-!
# What becomes of the events of a unit of work

Whatever the order in which many callers get at a unit of work, the log of their steps tells the
unit that is left (`Callers.Run.unit_eq`): the events that were accepted, as long as nobody has
ended it, and none afterwards.  One call at most ends it, and that call has taken out all events
that were ever accepted; `Callers.Fate` lists what it does with them.  `Callers.accounted` puts this
together.
-/

namespace EventRelay

namespace WorkUnit

variable {u next : WorkUnit}

theorem record_eq_ok {event : Event} :
    u.record event = .ok next ↔
      u.completed = false ∧ next = { u with pending := u.pending ++ [event] } := by
  cases h : u.completed <;> simp [record, h, eq_comm]

theorem record_eq_error {event : Event} {e : UnitError} :
    u.record event = .error e ↔ u.completed = true ∧ e = .completed := by
  cases h : u.completed <;> simp [record, h, eq_comm]

theorem complete_eq_ok {events : List Event} :
    u.complete = (.ok events, next) ↔
      u.completed = false ∧ events = u.pending ∧
        next = { u with pending := [], completed := true } := by
  cases h : u.completed <;> simp [complete, h, eq_comm]

theorem complete_eq_error {e : UnitError} :
    u.complete = (.error e, next) ↔ u.completed = true ∧ e = .completed ∧ next = u := by
  cases h : u.completed <;> simp [complete, h, eq_comm]

theorem rollback_eq_ok {count : Nat} :
    u.rollback = (.ok count, next) ↔
      ∃ events, u.complete = (.ok events, next) ∧ count = events.length := by
  unfold rollback
  rcases u.complete with ⟨_ | events, ended⟩ <;> simp [and_comm, eq_comm]

theorem rollback_eq_error {e : UnitError} :
    u.rollback = (.error e, next) ↔ u.complete = (.error e, next) := by
  unfold rollback
  rcases u.complete with ⟨_ | events, ended⟩ <;> simp

end WorkUnit

/-- Whether a call has ended the unit, or may have: what it is doing or has done, only the call that
has ended the unit does. -/
def UnitCall.Finishes : UnitCall → UnitCall.Stage → Prop
  | .commit, .holding _ | .commit, .publishing _ => True
  | .commit, .ended reply | .rollback, .ended reply => reply ≠ .refused .completed
  | _, _ => False

namespace Callers

/-! ### What the log tells -/

namespace Entry

def accepted? : Entry → Option Event
  | .moved _ (.record event) _ (.ended .recorded) => some event
  | _ => none

def asked? : Entry → Option Asked
  | .asked _ exchange => some exchange
  | _ => none

def completes : Entry → Bool
  | .moved _ .commit _ (.holding _) => true
  | .moved _ .rollback _ (.ended (.discarded _)) => true
  | _ => false

def marks : Entry → Bool
  | .moved _ .setRollbackOnly _ _ => true
  | _ => false

end Entry

/-- The events that the unit has taken up, oldest first. -/
def accepted (log : List Entry) : List Event :=
  log.filterMap Entry.accepted?

def history (log : List Entry) : List Asked :=
  log.filterMap Entry.asked?

def completed (log : List Entry) : Bool :=
  log.any Entry.completes

def marked (log : List Entry) : Bool :=
  log.any Entry.marks

/-- The unit that the steps of a log leave. -/
def left (log : List Entry) : WorkUnit where
  pending := if completed log then [] else accepted log
  completed := completed log
  rollbackOnly := marked log

section Concat

variable {log : List Entry} {entry : Entry}

theorem accepted_concat : accepted (log ++ [entry]) = accepted log ++ entry.accepted?.toList := by
  cases h : entry.accepted? <;> simp [accepted, h]

theorem history_concat : history (log ++ [entry]) = history log ++ entry.asked?.toList := by
  cases h : entry.asked? <;> simp [history, h]

theorem completed_concat : completed (log ++ [entry]) = (completed log || entry.completes) := by
  simp [completed]

theorem marked_concat : marked (log ++ [entry]) = (marked log || entry.marks) := by
  simp [marked]

theorem left_concat_of_silent (haccepted : entry.accepted? = none)
    (hcompletes : entry.completes = false) (hmarks : entry.marks = false) :
    left (log ++ [entry]) = left log := by
  simp [left, accepted_concat, completed_concat, marked_concat, haccepted, hcompletes, hmarks]

end Concat

variable {p : Producer} {log : List Entry} {callers callers' : Callers} {entry : Entry}

theorem Step.unit_eq (h : Step p callers entry callers') (hunit : callers.unit = left log) :
    callers'.unit = left (log ++ [entry]) := by
  cases h with
  | made call => rw [left_concat_of_silent rfl rfl rfl]; exact hunit
  | asked hcall reply => rw [left_concat_of_silent rfl rfl rfl]; exact hunit
  | @moved u next calls i call stage stage' hcall h =>
    obtain rfl : u = left log := hunit
    cases h with
    | @recorded event next h =>
      obtain ⟨hopen, rfl⟩ := WorkUnit.record_eq_ok.mp h
      have hopen' : completed log = false := hopen
      simp [left, accepted_concat, completed_concat, marked_concat, hopen', Entry.accepted?,
        Entry.completes, Entry.marks]
    | took h =>
      obtain ⟨hopen, rfl, rfl⟩ := WorkUnit.complete_eq_ok.mp h
      simp [left, completed_concat, marked_concat, Entry.completes, Entry.marks]
    | discarded h =>
      obtain ⟨events, hcomplete, rfl⟩ := WorkUnit.rollback_eq_ok.mp h
      obtain ⟨hopen, rfl, rfl⟩ := WorkUnit.complete_eq_ok.mp hcomplete
      simp [left, completed_concat, marked_concat, Entry.completes, Entry.marks]
    | marked =>
      simp [left, accepted_concat, completed_concat, marked_concat, WorkUnit.setRollbackOnly,
        Entry.accepted?, Entry.completes, Entry.marks]
    | uncommitted h =>
      obtain ⟨-, -, rfl⟩ := WorkUnit.complete_eq_error.mp h
      exact (left_concat_of_silent rfl rfl rfl).symm
    | undiscarded h =>
      obtain ⟨-, -, rfl⟩ := WorkUnit.complete_eq_error.mp (WorkUnit.rollback_eq_error.mp h)
      exact (left_concat_of_silent rfl rfl rfl).symm
    | barred h => exact (left_concat_of_silent rfl rfl rfl).symm
    | doomed h => exact (left_concat_of_silent rfl rfl rfl).symm
    | sound h => exact (left_concat_of_silent rfl rfl rfl).symm
    | published => exact (left_concat_of_silent rfl rfl rfl).symm
    | counted => exact (left_concat_of_silent rfl rfl rfl).symm
    | seen => exact (left_concat_of_silent rfl rfl rfl).symm
    | told => exact (left_concat_of_silent rfl rfl rfl).symm

/-- **The log tells the unit.** -/
theorem Run.unit_eq (hrun : Run p {} log callers) : callers.unit = left log := by
  induction hrun with
  | start => rfl
  | step prior h ih => exact h.unit_eq ih

/-! ### The call that ends the unit -/

/-- **What the call that has ended a unit does with its events.**  The history is all that anybody has
asked for, so that what is not asked for by this call is asked for by nobody. -/
inductive Fate (p : Producer) (events : List Event) (history : List Asked) :
    UnitCall → UnitCall.Stage → Prop
  | discarded (h : history = []) :
      Fate p events history .rollback (.ended (.discarded events.length))
  | doomed (h : history = []) :
      Fate p events history .commit (.ended (.refused (.rollbackOnly events.length)))
  | holding (h : history = []) : Fate p events history .commit (.holding events)
  | publishing {work : Work (List Producer.Outcome)}
      (h : (p.publishAll events).After history work) :
      Fate p events history .commit (.publishing work)
  | published {outcomes : List Producer.Outcome} (h : p.Published events history outcomes) :
      Fate p events history .commit (.ended (.published outcomes))

def EndedBy (callers : Callers) (i : Nat) : Prop :=
  ∃ call stage, callers.calls[i]? = some (call, stage) ∧ call.Finishes stage

/-- Whether a unit still takes up events, or has been ended by the call of one caller. -/
inductive Phase (p : Producer) (log : List Entry) (callers : Callers) : Prop
  | running (hopen : completed log = false) (hhistory : history log = [])
      (hnobody : ∀ j, ¬ callers.EndedBy j)
  | concluded {i : Nat} {call : UnitCall} {stage : UnitCall.Stage} (hover : completed log = true)
      (hcall : callers.calls[i]? = some (call, stage))
      (hfate : Fate p (accepted log) (history log) call stage)
      (honly : ∀ j, callers.EndedBy j → j = i)

section Steps

variable {u next : WorkUnit} {calls : List (UnitCall × UnitCall.Stage)} {i : Nat} {call : UnitCall}
  {stage stage' : UnitCall.Stage}

theorem EndedBy.of_set {j : Nat} (h : EndedBy ⟨next, calls.set i (call, stage')⟩ j) :
    (i = j ∧ call.Finishes stage') ∨ EndedBy ⟨u, calls⟩ j := by
  obtain ⟨other, stage, hother, hfinishes⟩ := h
  rcases getElem?_set_cases hother with ⟨hi, heq⟩ | ⟨-, hother⟩
  · cases heq
    exact .inl ⟨hi, hfinishes⟩
  · exact .inr ⟨other, stage, hother, hfinishes⟩

theorem Phase.bystander (hphase : Phase p log ⟨u, calls⟩) (hcall : calls[i]? = some (call, stage))
    (hbefore : ¬ call.Finishes stage) (hafter : ¬ call.Finishes stage')
    (haccepted : completed log = true → entry.accepted? = none)
    (hcompletes : entry.completes = false) (hasked : entry.asked? = none) :
    Phase p (log ++ [entry]) ⟨next, calls.set i (call, stage')⟩ := by
  have hcompleted : completed (log ++ [entry]) = completed log := by
    rw [completed_concat, hcompletes, Bool.or_false]
  have hhistory : history (log ++ [entry]) = history log := by
    rw [history_concat, hasked, Option.toList_none, List.append_nil]
  cases hphase with
  | running hopen hnothing hnobody =>
    refine .running (hcompleted.trans hopen) (hhistory.trans hnothing) fun j h => ?_
    exact h.of_set.elim (fun hi => hafter hi.2) (hnobody j)
  | @concluded w winner stage'' hover hwinner hfate honly =>
    have hw : i ≠ w := by
      rintro rfl
      rw [hcall] at hwinner
      cases hwinner
      apply hbefore
      cases hfate <;> simp [UnitCall.Finishes]
    have hsame : accepted (log ++ [entry]) = accepted log := by
      rw [accepted_concat, haccepted hover, Option.toList_none, List.append_nil]
    refine .concluded (hcompleted.trans hover) ((List.getElem?_set_ne hw).trans hwinner)
      (hsame ▸ hhistory ▸ hfate) fun j h => ?_
    exact h.of_set.elim (fun hi => absurd hi.2 hafter) (honly j)

theorem Phase.winner (hphase : Phase p log ⟨u, calls⟩) (hcall : calls[i]? = some (call, stage))
    (hfinishes : call.Finishes stage) (haccepted : entry.accepted? = none)
    (hfate : Fate p (accepted log) (history log) call stage →
      Fate p (accepted log) (history (log ++ [entry])) call stage') :
    Phase p (log ++ [entry]) ⟨next, calls.set i (call, stage')⟩ := by
  cases hphase with
  | running _ _ hnobody => exact absurd ⟨call, stage, hcall, hfinishes⟩ (hnobody i)
  | @concluded w winner stage'' hover hwinner hold honly =>
    obtain rfl := honly i ⟨call, stage, hcall, hfinishes⟩
    rw [hcall] at hwinner
    cases hwinner
    have hcompleted : completed (log ++ [entry]) = true := by
      rw [completed_concat, hover, Bool.true_or]
    have hsame : accepted (log ++ [entry]) = accepted log := by
      rw [accepted_concat, haccepted, Option.toList_none, List.append_nil]
    have hlt := (List.getElem?_eq_some_iff.mp hcall).1
    refine .concluded hcompleted (List.getElem?_set_self hlt) (hsame ▸ hfate hold) fun j h => ?_
    exact h.of_set.elim (fun hi => hi.1.symm) (honly j)

theorem Phase.finish (hphase : Phase p log ⟨u, calls⟩) (hopen : completed log = false)
    (hcall : calls[i]? = some (call, stage)) (haccepted : entry.accepted? = none)
    (hcompletes : entry.completes = true) (hasked : entry.asked? = none)
    (hfate : Fate p (accepted log) [] call stage') :
    Phase p (log ++ [entry]) ⟨next, calls.set i (call, stage')⟩ := by
  cases hphase with
  | concluded hover => rw [hopen] at hover; cases hover
  | running _ hnothing hnobody =>
    have hcompleted : completed (log ++ [entry]) = true := by
      rw [completed_concat, hcompletes, Bool.or_true]
    have hsame : accepted (log ++ [entry]) = accepted log := by
      rw [accepted_concat, haccepted, Option.toList_none, List.append_nil]
    have hhistory : history (log ++ [entry]) = [] := by
      rw [history_concat, hasked, hnothing]
      rfl
    have hlt := (List.getElem?_eq_some_iff.mp hcall).1
    refine .concluded hcompleted (List.getElem?_set_self hlt) (hsame ▸ hhistory ▸ hfate) fun j h => ?_
    exact h.of_set.elim (fun hi => hi.1.symm) fun h => absurd h (hnobody j)

theorem Phase.made (hphase : Phase p log ⟨u, calls⟩) (call : UnitCall) :
    Phase p (log ++ [.made call]) ⟨u, calls ++ [(call, .made)]⟩ := by
  have hcompleted : completed (log ++ [.made call]) = completed log := by
    rw [completed_concat]
    exact Bool.or_false _
  have hhistory : history (log ++ [.made call]) = history log := by
    rw [history_concat]
    exact List.append_nil _
  have haccepted : accepted (log ++ [.made call]) = accepted log := by
    rw [accepted_concat]
    exact List.append_nil _
  have hold : ∀ j, EndedBy ⟨u, calls ++ [(call, .made)]⟩ j → EndedBy ⟨u, calls⟩ j := by
    rintro j ⟨other, stage, h, hfinishes⟩
    dsimp only at h
    rcases Nat.lt_or_ge j calls.length with hj | hj
    · rw [List.getElem?_append_left hj] at h
      exact ⟨other, stage, h, hfinishes⟩
    · rw [List.getElem?_append_right hj, List.getElem?_singleton] at h
      split at h
      · cases h
        cases call <;> exact hfinishes.elim
      · cases h
  cases hphase with
  | running hopen hnothing hnobody =>
    exact .running (hcompleted.trans hopen) (hhistory.trans hnothing)
      fun j h => hnobody j (hold j h)
  | concluded hover hwinner hfate honly =>
    have hlt := (List.getElem?_eq_some_iff.mp hwinner).1
    exact .concluded (hcompleted.trans hover) ((List.getElem?_append_left hlt).trans hwinner)
      (haccepted ▸ hhistory ▸ hfate) fun j h => honly j (hold j h)

end Steps

/-- **A unit is ended once, and its events are with the call that has ended it.** -/
theorem Step.phase (h : Step p callers entry callers') (hunit : callers.unit = left log)
    (hphase : Phase p log callers) : Phase p (log ++ [entry]) callers' := by
  cases h with
  | made call => exact hphase.made call
  | @asked u calls i request next hcall reply =>
    refine hphase.winner hcall trivial rfl fun hfate => ?_
    cases hfate with
    | publishing hafter =>
      rw [history_concat]
      exact .publishing (hafter.asked reply)
  | @moved u next calls i call stage stage' hcall h =>
    obtain rfl : u = left log := hunit
    have hpending : (left log).completed = false → (left log).pending = accepted log := by
      intro hopen
      have hopen' : completed log = false := hopen
      simp [left, hopen']
    have hsilent : history (log ++ [.moved i call stage stage']) = history log := by
      rw [history_concat]
      exact List.append_nil _
    cases h with
    | recorded h =>
      obtain ⟨hopen, -⟩ := WorkUnit.record_eq_ok.mp h
      refine hphase.bystander hcall id id (fun hover => ?_) rfl rfl
      cases hopen.symm.trans hover
    | took h =>
      obtain ⟨hopen, rfl, -⟩ := WorkUnit.complete_eq_ok.mp h
      exact hphase.finish hopen hcall rfl rfl rfl (hpending hopen ▸ .holding rfl)
    | discarded h =>
      obtain ⟨events, hcomplete, rfl⟩ := WorkUnit.rollback_eq_ok.mp h
      obtain ⟨hopen, rfl, -⟩ := WorkUnit.complete_eq_ok.mp hcomplete
      exact hphase.finish hopen hcall rfl rfl rfl (hpending hopen ▸ .discarded rfl)
    | doomed h =>
      refine hphase.winner hcall trivial rfl fun hfate => ?_
      cases hfate with
      | holding hnothing => exact .doomed (hsilent.trans hnothing)
    | sound h =>
      refine hphase.winner hcall trivial rfl fun hfate => ?_
      cases hfate with
      | holding hnothing =>
        rw [hsilent, hnothing]
        exact .publishing .start
    | published =>
      refine hphase.winner hcall trivial rfl fun hfate => ?_
      cases hfate with
      | publishing hafter =>
        rw [hsilent]
        exact .published (Producer.published_of_after hafter)
    | barred h => exact hphase.bystander hcall id id (fun _ => rfl) rfl rfl
    | uncommitted h =>
      obtain ⟨-, rfl, -⟩ := WorkUnit.complete_eq_error.mp h
      exact hphase.bystander hcall id (fun hne => hne rfl) (fun _ => rfl) rfl rfl
    | undiscarded h =>
      obtain ⟨-, rfl, -⟩ := WorkUnit.complete_eq_error.mp (WorkUnit.rollback_eq_error.mp h)
      exact hphase.bystander hcall id (fun hne => hne rfl) (fun _ => rfl) rfl rfl
    | marked => exact hphase.bystander hcall id id (fun _ => rfl) rfl rfl
    | counted => exact hphase.bystander hcall id id (fun _ => rfl) rfl rfl
    | seen => exact hphase.bystander hcall id id (fun _ => rfl) rfl rfl
    | told => exact hphase.bystander hcall id id (fun _ => rfl) rfl rfl

theorem Run.phase (hrun : Run p {} log callers) : Phase p log callers := by
  induction hrun with
  | start =>
    refine .running rfl rfl ?_
    rintro j ⟨call, stage, hcall, -⟩
    cases hcall
  | step prior h ih => exact h.phase prior.unit_eq ih

end Callers

end EventRelay
