import EventRelay.Proofs.Crew.Roster

/-!
# Habits of workers

What a worker has left to do is settled by its errand and its history, whatever the others do in
between.  A `Habit` is a relation between these three that holds at the start and that the worker's
own steps keep; it holds of every worker of a crew at any time (`Habit.run`).  One habit is not to ask
for more than the errand has in it (`Work.Within`).
-/

namespace EventRelay

namespace Crew

/-- A relation between errand, history and work that a worker's own steps keep. -/
structure Habit (R : Errand → List Asked → Work Report → Prop) : Prop where
  start : ∀ errand, R errand [] errand.work
  ask : ∀ {errand history request next}, R errand history (.ask request next) →
    ∀ reply : request.Reply, R errand (history ++ [⟨request, reply⟩]) (next reply)
  crash : ∀ {errand history request next}, R errand history (.ask request next) →
    ∀ text, R errand history (.crash text)
  emptied : ∀ {errand history p rows}, R errand history (.done (.selection p (.ok rows))) →
    R errand history (.done (.selection p (.ok [])))

/-- A habit of the workers of a crew. -/
def Keeps (R : Errand → List Asked → Work Report → Prop) (known : List Errand)
    (history : Nat → List Asked) (jobs : List (Work Report)) : Prop :=
  ∀ (i : Nat) errand w, known[i]? = some errand → jobs[i]? = some w → R errand (history i) w

variable {R : Errand → List Asked → Work Report → Prop} {known : List Errand}
  {history : Nat → List Asked} {jobs : List (Work Report)}

theorem Keeps.append (h : Keeps R known history jobs) (hR : Habit R)
    (hlength : known.length = jobs.length) (hfresh : ∀ i, jobs.length ≤ i → history i = [])
    (errands : List Errand) :
    Keeps R (known ++ errands) history (jobs ++ errands.map Errand.work) := by
  intro i errand w herrand hjob
  by_cases hi : i < jobs.length
  · rw [List.getElem?_append_left (hlength.symm ▸ hi)] at herrand
    rw [List.getElem?_append_left hi] at hjob
    exact h i errand w herrand hjob
  · have hle := Nat.le_of_not_lt hi
    rw [List.getElem?_append_right (hlength.symm ▸ hle), hlength] at herrand
    rw [List.getElem?_append_right hle, List.getElem?_map, herrand] at hjob
    obtain rfl := Option.some.inj hjob
    rw [hfresh i hle]
    exact hR.start errand

theorem Keeps.set (h : Keeps R known history jobs) {i : Nat} {w : Work Report}
    {history' : Nat → List Asked} (hother : ∀ j, j ≠ i → history' j = history j)
    (hw : ∀ errand, known[i]? = some errand → R errand (history' i) w) :
    Keeps R known history' (jobs.set i w) := by
  intro j errand w' herrand hjob
  rcases getElem?_set_cases hjob with ⟨rfl, rfl⟩ | ⟨hij, hjob⟩
  · exact hw errand herrand
  · rw [hother j (Ne.symm hij)]
    exact h j errand w' herrand hjob

variable {errands : List Errand} {log : List Entry} {crew crew' : Crew} {entry : Entry}

theorem Habit.step (hR : Habit R) (hmanned : Manned (roster errands log) (asksOf · log) crew.jobs)
    (h : Keeps R (roster errands log) (asksOf · log) crew.jobs) (hstep : crew.Step entry crew') :
    Keeps R (roster errands (log ++ [entry])) (asksOf · (log ++ [entry])) crew'.jobs := by
  rw [roster_concat]
  cases hstep with
  | began errand =>
    rw [asksOf_concat_silent fun i => rfl]
    exact h.append hR hmanned.length hmanned.fresh [errand]
  | @asked s s' jobs i request next reply hjob hreply =>
    rw [Entry.hires, List.append_nil]
    refine h.set (fun j hj => ?_) fun errand herrand => ?_
    · show asksOf j _ = asksOf j log
      rw [asksOf_concat, Entry.ask?, if_neg (Ne.symm hj)]
      exact List.append_nil _
    · show R errand (asksOf i _) _
      rw [asksOf_concat, ask?_asked]
      exact hR.ask (h i errand _ herrand hjob) reply
  | @crashed s s' jobs i request next o hjob hover =>
    rw [asksOf_concat_silent fun i => rfl, Entry.hires, List.append_nil]
    exact h.set (fun j _ => rfl) fun errand herrand => hR.crash (h i errand _ herrand hjob) _
  | @handedOut s jobs i p rows hjob =>
    rw [asksOf_concat_silent fun i => rfl]
    obtain ⟨errand, herrand, htells, -⟩ := hmanned.errand hjob
    obtain ⟨batch, rfl⟩ := htells.scanned p _ rfl
    have hset : Keeps R (roster errands log) (asksOf · log)
        (jobs.set i (.done (.selection p (.ok [])))) :=
      h.set (fun j _ => rfl) fun errand herrand => hR.emptied (h i errand _ herrand hjob)
    have hlength : (jobs.set i (.done (.selection p (.ok [])))).length = jobs.length :=
      List.length_set
    have hjoined := hset.append hR (hmanned.length.trans hlength.symm)
      (fun j hj => hmanned.fresh j (hlength ▸ hj)) (rows.map (Errand.replay p))
    rw [List.map_map] at hjoined
    rw [Entry.hires, herrand]
    exact hjoined

/-- **A habit holds of every worker at any time.** -/
theorem Habit.run (hR : Habit R) {s : Store} (h : (waiting s errands).Run log crew) :
    Keeps R (roster errands log) (asksOf · log) crew.jobs := by
  induction h with
  | start =>
    have hnobody : Keeps R [] (asksOf · []) [] := fun i errand w herrand => by simp at herrand
    exact hnobody.append hR rfl (fun i _ => rfl) errands
  | step prior hstep ih => exact hR.step prior.manned ih hstep

end Crew

/-! ### Asking for so much at most -/

/-- Whether work asks for so many things at most, whatever the replies are. -/
def Work.Within {α : Type} : Work α → Nat → Prop
  | .done _, _ | .crash _, _ => True
  | .ask _ _, 0 => False
  | .ask _ next, n + 1 => ∀ reply, (next reply).Within n

theorem Work.Within.map {α β : Type} {w : Work α} {n : Nat} (h : w.Within n) (f : α → β) :
    (w.bind fun a => .done (f a)).Within n := by
  induction w generalizing n with
  | done a => trivial
  | crash text => trivial
  | ask request next ih =>
    cases n with
    | zero => exact h.elim
    | succ n => exact fun reply => ih reply (h reply)

/-- What a worker has asked for and what it may still ask for is within what its errand asks for. -/
theorem Crew.habit_within (n : Nat) :
    Habit fun errand history w => errand.work.Within n →
      ∃ left, history.length + left ≤ n ∧ w.Within left where
  start errand h := ⟨n, by simp, h⟩
  ask {errand history request next} h reply hwithin := by
    obtain ⟨left, hleft, hnext⟩ := h hwithin
    cases left with
    | zero => exact hnext.elim
    | succ left => exact ⟨left, by rw [List.length_append, List.length_singleton]; omega, hnext reply⟩
  crash {errand history request next} h text hwithin := by
    obtain ⟨left, hleft, -⟩ := h hwithin
    exact ⟨left, hleft, trivial⟩
  emptied {errand history p rows} h hwithin := by
    obtain ⟨left, hleft, -⟩ := h hwithin
    exact ⟨left, hleft, trivial⟩

end EventRelay
