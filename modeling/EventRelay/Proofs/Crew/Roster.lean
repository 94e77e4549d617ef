import EventRelay.Proofs.Consumer.Alarm
import EventRelay.Proofs.Crew.Chart
import EventRelay.Proofs.Log

/-!
# Rosters

Whom a crew consists of and what each of its workers has asked can be told from the log.  The roster
has the errand of each worker in its place (`roster`), the worker's history is its part of the log
(`asksOf`), and at any time what a worker has still to do is what its errand has left for that
history (`Crew.Run.manned`).
-/

namespace EventRelay

/-! ### Errands by their workers -/

def Errand.consumer? : Errand → Option Consumer
  | .deliver c _ | .redeliver c _ => some c
  | .replay p _ => some p.consumer
  | .publish _ _ | .scan _ _ => none

/-- The errands that an entry adds to those of a crew. -/
def Entry.hires (known : List Errand) : Entry → List Errand
  | .began errand => [errand]
  | .handedOut i rows =>
    match known[i]? with
    | some (.scan p _) => rows.map (.replay p)
    | _ => []
  | .asked _ _ _ | .crashed _ _ => []

/-- The errands of all workers that there have been, in their places. -/
def roster (errands : List Errand) (log : List Entry) : List Errand :=
  log.foldl (fun known entry => known ++ entry.hires known) errands

theorem roster_concat (errands : List Errand) (log : List Entry) (entry : Entry) :
    roster errands (log ++ [entry]) =
      roster errands log ++ entry.hires (roster errands log) := by
  unfold roster
  rw [List.foldl_append]
  rfl

/-! ### Histories of workers -/

def Entry.ask? (i : Nat) : Entry → Option Asked
  | .asked j request reply => if j = i then some ⟨request, reply⟩ else none
  | .began _ | .crashed _ _ | .handedOut _ _ => none

/-- The history of a worker. -/
def asksOf (i : Nat) (log : List Entry) : List Asked :=
  log.filterMap (Entry.ask? i)

theorem ask?_asked (i : Nat) (request : Request) (reply : request.Reply) :
    (Entry.asked i request reply).ask? i = some ⟨request, reply⟩ :=
  if_pos rfl

theorem eq_of_ask? {entry : Entry} {i : Nat} {request : Request} {reply : request.Reply}
    (h : entry.ask? i = some ⟨request, reply⟩) : entry = .asked i request reply := by
  cases entry with
  | asked j request' reply' =>
    by_cases hij : j = i
    · subst hij
      rw [ask?_asked] at h
      cases Option.some.inj h
      rfl
    · rw [Entry.ask?, if_neg hij] at h
      cases h
  | began errand => cases h
  | crashed j request' => cases h
  | handedOut j rows => cases h

theorem asksOf_concat (i : Nat) (log : List Entry) (entry : Entry) :
    asksOf i (log ++ [entry]) = asksOf i log ++ (entry.ask? i).toList := by
  unfold asksOf
  rw [List.filterMap_append]
  cases h : entry.ask? i <;> simp [h]

theorem asksOf_cut {i : Nat} {before since : List Entry} {request : Request}
    {reply : request.Reply} :
    asksOf i (before ++ .asked i request reply :: since) =
      asksOf i before ++ ⟨request, reply⟩ :: asksOf i since := by
  unfold asksOf
  rw [List.filterMap_append, List.filterMap_cons_some (ask?_asked i request reply)]

theorem eq_cut_of_asksOf {i : Nat} {log : List Entry} {before since : List Asked}
    {request : Request} {reply : request.Reply}
    (h : asksOf i log = before ++ ⟨request, reply⟩ :: since) :
    ∃ before' since', log = before' ++ .asked i request reply :: since' ∧
      asksOf i before' = before ∧ asksOf i since' = since := by
  obtain ⟨before', rest, rfl, hbefore, hrest⟩ := List.filterMap_eq_append_iff.mp h
  obtain ⟨skipped, entry, since', rfl, hskipped, hentry, hsince⟩ :=
    List.filterMap_eq_cons_iff.mp hrest
  refine ⟨before' ++ skipped, since', ?_, ?_, hsince⟩
  · rw [eq_of_ask? hentry, List.append_assoc]
  · rw [asksOf, List.filterMap_append, hbefore, List.filterMap_eq_nil_iff.mpr hskipped,
      List.append_nil]

/-! ### What errands warrant -/

def Errand.Warrants (errand : Errand) (history : List Asked) (request : Request) : Prop :=
  ∃ c, errand.consumer? = some c ∧ c.Warranted history request

/-- What the report on an errand tells of its history, and of the errand. -/
structure Errand.Tells (errand : Errand) (history : List Asked) (report : Report) : Prop where
  reported : Silent history ∨ report = .delivery (.ok .failed)
  scanned : ∀ p rows, report = .selection p rows → ∃ batch, errand = .scan p batch

theorem Errand.alarmed_report {errand : Errand} {c : Consumer} (hc : errand.consumer? = some c)
    {w : Work (Except Error Consumer.Outcome)}
    (hw : w.Follows (Work.alarmed c.Warranted) Consumer.Reported []) :
    (w.bind fun outcome => .done (.delivery outcome)).Follows (Work.alarmed errand.Warrants)
      errand.Tells [] := by
  refine Work.Follows.bind (m := Consumer.Reported) ?_ fun history outcome hreported => ?_
  · show w.Follows _ _ (id [])
    refine hw.widen id ?_ ?_ fun history outcome h => h
    · rintro history request reply history' ⟨hsilent, hwarranted, hnext⟩
      exact ⟨hsilent, fun halarm => ⟨c, hc, hwarranted halarm⟩, hnext⟩
    · exact fun history text h => h
  · refine ⟨hreported.imp_right fun hfailed => ?_, fun p rows h => by cases h⟩
    rw [hfailed]

/-- **On any errand escalation handlers are called where it is warranted.** -/
theorem Errand.alarmed (errand : Errand) :
    errand.work.Follows (Work.alarmed errand.Warrants) errand.Tells [] := by
  cases errand with
  | deliver c event => exact alarmed_report rfl (Consumer.alarmed_deliver silent_nil c event)
  | redeliver c event => exact alarmed_report rfl (Consumer.alarmed_redeliver silent_nil c event)
  | publish p event =>
    have hquiet := Work.Quiet.of_follows (Producer.follows_publish p event)
      fun stage request reply stage' hmove => by cases hmove <;> rfl
    refine (hquiet.follows silent_nil).bind fun history outcome h => ?_
    exact ⟨.inl h, fun p rows h => by cases h⟩
  | scan p batch =>
    refine Work.Follows.bind (m := fun history _ => Silent history) ?_ fun history rows h => ?_
    · exact Work.Quiet.follows (.ask rfl fun now => .ask rfl fun reply => trivial) silent_nil
    · refine ⟨.inl h, fun p' rows' hreport => ?_⟩
      cases hreport
      exact ⟨batch, rfl⟩
  | replay p r =>
    refine alarmed_report rfl ?_
    unfold Replayer.replay
    cases p.rebuild r with
    | ok event => exact Consumer.alarmed_redeliver silent_nil p.consumer event
    | error e => exact Consumer.alarmed_abandon silent_nil p.consumer r e.message

/-- A history in which escalation handlers are called as warranted, and at last. -/
def Errand.Orderly (errand : Errand) (history : List Asked) : Prop :=
  Throughout (fun before asked => Silent before ∧
    (asked.1.isAlarm = true → errand.Warrants before asked.1)) history

theorem Errand.Orderly.of_alarm {errand : Errand} {before since : List Asked} {asked : Asked}
    (h : errand.Orderly (before ++ asked :: since)) (halarm : asked.1.isAlarm = true) :
    errand.Warrants before asked.1 ∧ since = [] := by
  refine ⟨(h before asked since rfl).2 halarm, ?_⟩
  cases since with
  | nil => rfl
  | cons next rest =>
    have hsilent := (h (before ++ [asked]) next rest (by simp)).1
    have := silent_singleton.mp (silent_append.mp hsilent).2
    rw [halarm] at this
    cases this

namespace Crew

/-- Each worker has left to do what its errand has left after its history. -/
structure Manned (known : List Errand) (history : Nat → List Asked)
    (jobs : List (Work Report)) : Prop where
  length : known.length = jobs.length
  job : ∀ (i : Nat) errand w, known[i]? = some errand → jobs[i]? = some w →
    w.Follows (Work.alarmed errand.Warrants) errand.Tells (history i) ∧ errand.Orderly (history i)
  fresh : ∀ i, jobs.length ≤ i → history i = []

namespace Manned

variable {known : List Errand} {history : Nat → List Asked} {jobs : List (Work Report)}

theorem errand (h : Manned known history jobs) {i : Nat} {w : Work Report}
    (hjob : jobs[i]? = some w) :
    ∃ errand, known[i]? = some errand ∧
      w.Follows (Work.alarmed errand.Warrants) errand.Tells (history i) ∧
        errand.Orderly (history i) := by
  have hlt : i < known.length := by
    rw [h.length]
    exact (List.getElem?_eq_some_iff.mp hjob).1
  have herrand := List.getElem?_eq_getElem hlt
  exact ⟨_, herrand, h.job i _ w herrand hjob⟩

theorem orderly (h : Manned known history jobs) {i : Nat} (hne : history i ≠ []) :
    ∃ errand, known[i]? = some errand ∧ errand.Orderly (history i) := by
  have hlt : i < jobs.length := Nat.lt_of_not_le fun hle => hne (h.fresh i hle)
  obtain ⟨errand, herrand, -, horderly⟩ := h.errand (List.getElem?_eq_getElem hlt)
  exact ⟨errand, herrand, horderly⟩

/-- Whoever calls an escalation handler reports a failed delivery, whatever the handler does. -/
theorem done_of_alarm (h : Manned known history jobs) {i : Nat} {request : Request}
    {next : request.Reply → Work Report} (hjob : jobs[i]? = some (.ask request next))
    (halarm : request.isAlarm = true) (reply : request.Reply) :
    next reply = .done (.delivery (.ok .failed)) := by
  obtain ⟨errand, -, hfollows, -⟩ := h.errand hjob
  obtain ⟨_, ⟨-, -, rfl⟩, hnext⟩ := hfollows reply
  have hloud : ¬ Silent (history i ++ [⟨request, reply⟩]) := fun hsilent => by
    have := silent_singleton.mp (silent_append.mp hsilent).2
    rw [halarm] at this
    cases this
  obtain ⟨report, hdone, htells⟩ := hnext.eq_done hloud
  rw [hdone, htells.reported.resolve_left hloud]

theorem append (h : Manned known history jobs) (errands : List Errand) :
    Manned (known ++ errands) history (jobs ++ errands.map Errand.work) where
  length := by simp [h.length]
  job i errand w herrand hjob := by
    by_cases hi : i < jobs.length
    · rw [List.getElem?_append_left (h.length.symm ▸ hi)] at herrand
      rw [List.getElem?_append_left hi] at hjob
      exact h.job i errand w herrand hjob
    · have hle := Nat.le_of_not_lt hi
      rw [List.getElem?_append_right (h.length.symm ▸ hle), h.length] at herrand
      rw [List.getElem?_append_right hle, List.getElem?_map, herrand] at hjob
      obtain rfl := Option.some.inj hjob
      rw [h.fresh i hle]
      exact ⟨errand.alarmed, throughout_nil⟩
  fresh i hi := h.fresh i (by rw [List.length_append] at hi; omega)

theorem set (h : Manned known history jobs) {i : Nat} {w : Work Report}
    (hw : ∀ errand, known[i]? = some errand →
      w.Follows (Work.alarmed errand.Warrants) errand.Tells (history i)) :
    Manned known history (jobs.set i w) where
  length := by rw [List.length_set, h.length]
  job j errand w' herrand hjob := by
    rcases getElem?_set_cases hjob with ⟨rfl, rfl⟩ | ⟨hij, hjob⟩
    · have hlt : i < jobs.length := by
        rw [← h.length]
        exact (List.getElem?_eq_some_iff.mp herrand).1
      exact ⟨hw errand herrand, (h.job i errand _ herrand (List.getElem?_eq_getElem hlt)).2⟩
    · exact h.job j errand w' herrand hjob
  fresh j hj := h.fresh j (by rwa [List.length_set] at hj)

theorem ask (h : Manned known history jobs) {i : Nat} {request : Request}
    {next : request.Reply → Work Report} (hjob : jobs[i]? = some (.ask request next))
    (reply : request.Reply) {history' : Nat → List Asked}
    (hi : history' i = history i ++ [⟨request, reply⟩])
    (hother : ∀ j, j ≠ i → history' j = history j) :
    Manned known history' (jobs.set i (next reply)) where
  length := by rw [List.length_set, h.length]
  job j errand w herrand hjob' := by
    rcases getElem?_set_cases hjob' with ⟨rfl, rfl⟩ | ⟨hij, hjob'⟩
    · obtain ⟨hfollows, horderly⟩ := h.job i errand _ herrand hjob
      obtain ⟨_, ⟨hsilent, hwarrants, rfl⟩, hnext⟩ := hfollows reply
      rw [hi]
      exact ⟨hnext, throughout_concat.mpr ⟨horderly, hsilent, hwarrants⟩⟩
    · rw [hother j (Ne.symm hij)]
      exact h.job j errand w herrand hjob'
  fresh j hj := by
    rw [List.length_set] at hj
    have hlt := (List.getElem?_eq_some_iff.mp hjob).1
    rw [hother j (by omega)]
    exact h.fresh j hj

end Manned

variable {errands : List Errand} {log : List Entry} {crew crew' : Crew} {entry : Entry}

theorem asksOf_concat_silent (h : ∀ i, entry.ask? i = none) :
    (asksOf · (log ++ [entry])) = (asksOf · log) := by
  funext i
  rw [asksOf_concat, h i]
  exact List.append_nil _

theorem Step.manned (h : crew.Step entry crew')
    (hmanned : Manned (roster errands log) (asksOf · log) crew.jobs) :
    Manned (roster errands (log ++ [entry])) (asksOf · (log ++ [entry])) crew'.jobs := by
  rw [roster_concat]
  cases h with
  | began errand =>
    rw [asksOf_concat_silent fun i => rfl]
    exact hmanned.append [errand]
  | @asked s s' jobs i request next reply hjob h =>
    rw [Entry.hires, List.append_nil]
    refine hmanned.ask hjob reply ?_ fun j hj => ?_
    · show asksOf i _ = _
      rw [asksOf_concat, ask?_asked]
      rfl
    · show asksOf j _ = asksOf j log
      rw [asksOf_concat, Entry.ask?, if_neg (Ne.symm hj)]
      exact List.append_nil _
  | @crashed s s' jobs i request next o hjob h =>
    rw [asksOf_concat_silent fun i => rfl, Entry.hires, List.append_nil]
    refine hmanned.set fun errand herrand => ?_
    obtain ⟨_, ⟨hsilent, -⟩, -⟩ := (hmanned.job i errand _ herrand hjob).1 request.answer
    exact hsilent
  | @handedOut s jobs i p rows hjob =>
    rw [asksOf_concat_silent fun i => rfl]
    obtain ⟨errand, herrand, htells, -⟩ := hmanned.errand hjob
    obtain ⟨batch, rfl⟩ := htells.scanned p _ rfl
    have hjoined := (hmanned.set (w := .done (.selection p (.ok []))) (i := i) ?_).append
      (rows.map (Errand.replay p))
    · rw [List.map_map] at hjoined
      rw [Entry.hires, herrand]
      exact hjoined
    · intro errand' herrand'
      obtain rfl := Option.some.inj (herrand.symm.trans herrand')
      refine ⟨.inl ?_, fun p' rows' hreport => ?_⟩
      · rcases htells.reported with hsilent | hfailed
        · exact hsilent
        · cases hfailed
      · cases hreport
        exact ⟨batch, rfl⟩

/-- **At any time a worker has left to do what its errand has left after its history.** -/
theorem Run.manned {s : Store} (h : (waiting s errands).Run log crew) :
    Manned (roster errands log) (asksOf · log) crew.jobs := by
  induction h with
  | start =>
    have hnobody : Manned [] (asksOf · []) [] :=
      ⟨rfl, fun i errand w herrand => by simp at herrand, fun i hi => rfl⟩
    exact hnobody.append errands
  | step prior hstep ih => exact hstep.manned ih

theorem Run.split {init : Crew} {first second : List Entry} (h : init.Run (first ++ second) crew) :
    ∃ mid, init.Run first mid ∧ mid.Run second crew := by
  generalize hlog : first ++ second = log at h
  induction h generalizing second with
  | start =>
    obtain ⟨rfl, rfl⟩ := List.append_eq_nil_iff.mp hlog
    exact ⟨init, .start, .start⟩
  | @step log crew crew' entry prior hstep ih =>
    rcases List.eq_nil_or_concat second with rfl | ⟨second', last, rfl⟩
    · rw [List.append_nil] at hlog
      subst hlog
      exact ⟨crew', prior.step hstep, .start⟩
    · rw [List.concat_eq_append, ← List.append_assoc] at hlog
      obtain ⟨rfl, hlast⟩ := List.append_inj' hlog rfl
      obtain rfl := List.singleton_inj.mp hlast
      obtain ⟨mid, hfirst, hsecond⟩ := ih rfl
      rw [List.concat_eq_append]
      exact ⟨mid, hfirst, hsecond.step hstep⟩

theorem Run.step_of_singleton {init : Crew} (h : init.Run [entry] crew) : init.Step entry crew := by
  generalize hlog : [entry] = log at h
  cases h with
  | start => cases hlog
  | @step log mid _ last prior hstep =>
    rw [← List.nil_append [entry]] at hlog
    obtain ⟨hnil, hlast⟩ := List.append_inj' hlog rfl
    obtain rfl := List.singleton_inj.mp hlast
    cases prior with
    | start => exact hstep
    | step prior hstep' => simp at hnil

theorem Run.cut {init : Crew} {before since : List Entry}
    (h : init.Run (before ++ entry :: since) crew) :
    ∃ mid mid', init.Run before mid ∧ mid.Step entry mid' ∧ mid'.Run since crew := by
  obtain ⟨mid, hbefore, hrest⟩ := h.split
  rw [← List.singleton_append] at hrest
  obtain ⟨mid', hentry, hsince⟩ := hrest.split
  exact ⟨mid, mid', hbefore, hentry.step_of_singleton, hsince⟩

end Crew

end EventRelay
