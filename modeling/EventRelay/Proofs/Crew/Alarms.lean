import EventRelay.Proofs.Crew.Counting
import EventRelay.Proofs.Crew.Finality
import EventRelay.Proofs.Crew.Rounds

/-!
# Escalation

An escalation handler is called for a row that has failed for good, by the worker that stored it so.
What the worker hands over is its own copy of the row, with the version that it believes the ledger
to have given it, and by the time of the call the ledger may have moved on.

`escalated_once` says that the copy is what was stored, that the handler is the first one of the chain
that supports the type, and that from one clearing of a key to the next there is one call at most
for what was stored in between: a row stored as failed accepts no other write.  Where only the calls of
the ledger are interleaved, the handler is called before anybody else calls the ledger, and so the
calls themselves are one at most.  What the handler does concerns neither the ledger nor the worker's
outcome.
-/

namespace EventRelay

/-! ### Calls of escalation handlers -/

def Entry.alarm? : Entry → Option (Nat × Record)
  | .asked i (.escalate _ _ r _) _ => some (i, r)
  | _ => none

theorem Entry.eq_of_alarm? {e : Entry} {i : Nat} {r : Record} (h : e.alarm? = some (i, r)) :
    ∃ slot event reason verdict, e = .asked i (.escalate slot event r reason) verdict := by
  unfold alarm? at h
  split at h
  · cases h
    exact ⟨_, _, _, _, rfl⟩
  · cases h

def alarms (key : Key) (log : List Entry) : List Nat :=
  log.filterMap fun e => e.alarm?.bind fun a => if a.2.key = key then some a.1 else none

theorem mem_alarmOn {key : Key} {e : Entry} {i : Nat}
    (h : (e.alarm?.bind fun a => if a.2.key = key then some a.1 else none) = some i) :
    ∃ r, r.key = key ∧ e.alarm? = some (i, r) := by
  obtain ⟨⟨j, r⟩, halarm, hkey⟩ := Option.bind_eq_some_iff.mp h
  split at hkey
  · rename_i hr
    obtain rfl := Option.some.inj hkey
    exact ⟨r, hr, halarm⟩
  · cases hkey

def Entry.StoresFailed (key : Key) (i : Nat) (e : Entry) : Prop :=
  ∃ next, e = .asked i (.update next) (.ok true) ∧ next.key = key ∧ next.status = .failed

def storesFailed (key : Key) (log : List Entry) (i : Nat) : Bool :=
  (writesTo key log).any fun w => w.1 = i && w.2.status = .failed

theorem exists_of_storesFailed {key : Key} {log : List Entry} {i : Nat}
    (h : storesFailed key log i = true) : ∃ e ∈ log, e.StoresFailed key i := by
  obtain ⟨⟨j, next⟩, hmem, hw⟩ := List.any_eq_true.mp h
  obtain ⟨rfl, hfailed⟩ : j = i ∧ next.status = .failed := by simpa using hw
  obtain ⟨hwrite, hkey⟩ := List.mem_filter.mp hmem
  obtain ⟨e, he, hupdate⟩ := List.mem_filterMap.mp hwrite
  exact ⟨e, he, next, Entry.eq_of_update? hupdate, by simpa using hkey, hfailed⟩

theorem Consumer.local_consultation {eventType : String} {declined : List Nat} {slot : Nat} :
    ∀ asked ∈ Consumer.consultation eventType declined slot, asked.1.isLedgerCall = false := by
  intro asked hasked
  rcases List.mem_append.mp hasked with hrefused | hlast
  · obtain ⟨slot, -, rfl⟩ := List.mem_map.mp hrefused
    rfl
  · obtain rfl := List.mem_singleton.mp hlast
    rfl

namespace Crew

variable {s : Store} {errands : List Errand} {init crew crew' : Crew} {log : List Entry}

/-! ### Rows that are stored as failed -/

theorem Run.keeps_terminal (h : crew.Run log crew') {key : Key} {row : Record}
    (hkey : key.deleteMarker = 0) (hfind : crew.store.find? key = some row)
    (hterminal : row.status.isTerminal = true) (hcleared : ∀ e ∈ log, e.cleared? ≠ some key) :
    crew'.store.find? key = some row := by
  induction h with
  | start => exact hfind
  | @step log _ _ entry prior hstep ih =>
    have hrow := ih fun e he => hcleared e (List.mem_append_left _ he)
    have hentry := hcleared entry (List.mem_append_right _ (List.mem_singleton_self _))
    rcases hstep.effect.find_terminal hkey hrow hterminal with hkept | ⟨i, r, now, rfl, -, rfl | rfl⟩
    · exact hkept
    · exact absurd rfl hentry
    · exact absurd rfl hentry

theorem Step.find_written {i : Nat} {next : Record}
    (h : crew.Step (.asked i (.update next) (.ok true)) crew') :
    crew'.store.find? next.key = some next.revised := by
  obtain ⟨stored, hstored, -, -, hstore⟩ := h.effect.of_update
  rw [hstore]
  exact Store.find?_replace_of_eq hstored rfl

section Failed

variable {key : Key} {i j : Nat} {u v : Entry}

/-- **A row is stored as failed once.**  Between two writes that store the row under a key as failed
the key is cleared. -/
theorem Run.cleared_between {before between since : List Entry}
    (h : init.Run (before ++ u :: (between ++ v :: since)) crew) (hkey : key.deleteMarker = 0)
    (hu : u.StoresFailed key i) (hv : v.StoresFailed key j) :
    ∃ e ∈ between, e.cleared? = some key := by
  by_contra hnone
  have hcleared : ∀ e ∈ between, e.cleared? ≠ some key :=
    fun e he hclear => hnone ⟨e, he, hclear⟩
  obtain ⟨next, rfl, rfl, hfailed⟩ := hu
  obtain ⟨next', rfl, hnext', -⟩ := hv
  obtain ⟨_, mid, -, hstep, hrest⟩ := h.cut
  obtain ⟨late, late', hbetween, hstep', -⟩ := hrest.cut
  have hfind := hbetween.keeps_terminal hkey hstep.find_written
    (by rw [Record.status_revised, hfailed]; rfl) hcleared
  -- the second write is to a row that is not finished
  obtain ⟨stored, hstored, -, hactive, -⟩ := hstep'.effect.of_update
  rw [hnext', hfind] at hstored
  obtain rfl := Option.some.inj hstored
  rw [Record.status_revised, hfailed] at hactive
  cases hactive

/-- Of two workers that store the row under a key as failed one does so after the key was cleared
since the other one did. -/
theorem Run.failed_apart {before since before' since' : List Entry} (h : init.Run log crew)
    (hcut : log = before ++ u :: since) (hcut' : log = before' ++ v :: since')
    (hkey : key.deleteMarker = 0) (hu : u.StoresFailed key i) (hv : v.StoresFailed key j)
    (hij : i ≠ j) :
    (∃ between, since = between ++ v :: since' ∧ ∃ e ∈ between, e.cleared? = some key) ∨
      ∃ between, since' = between ++ u :: since ∧ ∃ e ∈ between, e.cleared? = some key := by
  rcases cut_cases (hcut.symm.trans hcut') with ⟨-, rfl, -⟩ | ⟨between, -, rfl⟩ | ⟨between, -, rfl⟩
  · obtain ⟨next, rfl, -⟩ := hu
    obtain ⟨next', hsame, -⟩ := hv
    cases hsame
    exact absurd rfl hij
  · rw [hcut] at h
    exact .inl ⟨between, rfl, h.cleared_between hkey hu hv⟩
  · rw [hcut'] at h
    exact .inr ⟨between, rfl, h.cleared_between hkey hv hu⟩

end Failed

/-! ### What a call tells of -/

/-- **What a call of an escalation handler is founded on.** -/
theorem Run.founded (h : (waiting s errands).Run log crew) {before after : List Entry}
    {i slot : Nat} {event : Event} {record : Record} {reason : String} {verdict : Verdict}
    (hlog : log = before ++ .asked i (.escalate slot event record reason) verdict :: after) :
    ∃ earlier next since errand c declined rest,
      before = earlier ++ .asked i (.update next) (.ok true) :: since ∧ next.status = .failed ∧
        Consumer.GivenUp c next reason ∧ record = next.revised ∧
        (roster errands log)[i]? = some errand ∧ errand.consumer? = some c ∧
        c.chain = declined ++ slot :: rest ∧
        asksOf i since = Consumer.consultation event.eventType declined slot ∧
        asksOf i after = [] := by
  have hhistory : asksOf i log =
      asksOf i before ++ ⟨.escalate slot event record reason, verdict⟩ :: asksOf i after := by
    rw [hlog]
    exact asksOf_cut
  obtain ⟨errand, herrand, horderly⟩ := h.manned.orderly (i := i) (by simp [hhistory])
  rw [hhistory] at horderly
  obtain ⟨⟨c, hc, hwarranted⟩, hafter⟩ := horderly.of_alarm rfl
  generalize hbefore : asksOf i before = history at hwarranted
  cases hwarranted with
  | stored hstatus hcause hchain =>
    obtain ⟨earlier, since, rfl, -, hsince⟩ := eq_cut_of_asksOf hbefore
    exact ⟨earlier, _, since, errand, c, _, _, rfl, hstatus, hcause, rfl, herrand, hc, hchain,
      hsince, hafter⟩

theorem Run.alarm_once (h : (waiting s errands).Run log crew) {before between after : List Entry}
    {x y : Entry} {i j : Nat} {r r' : Record} (hlog : log = before ++ x :: between ++ y :: after)
    (hx : x.alarm? = some (i, r)) (hy : y.alarm? = some (j, r')) : i ≠ j := by
  rintro rfl
  obtain ⟨slot, event, reason, verdict, rfl⟩ := Entry.eq_of_alarm? hx
  obtain ⟨slot', event', reason', verdict', rfl⟩ := Entry.eq_of_alarm? hy
  rw [List.append_assoc, List.cons_append] at hlog
  obtain ⟨_, _, _, _, _, _, _, _, _, _, _, _, _, _, _, hnothing⟩ := h.founded hlog
  rw [asksOf, List.filterMap_eq_nil_iff] at hnothing
  have := hnothing _ (List.mem_append_right _ (List.mem_cons_self ..))
  rw [ask?_asked] at this
  cases this

/-- A worker that calls an escalation handler has stored the row as failed.  If workers take turns
at the ledger only, the key has not been cleared since. -/
theorem Run.stored_before (h : (waiting s errands).Run log crew) {before after : List Entry}
    {x : Entry} {i : Nat} {r : Record} {key : Key} (hlog : log = before ++ x :: after)
    (hx : x.alarm? = some (i, r)) (hr : r.key = key) :
    ∃ earlier u since, before = earlier ++ u :: since ∧ u.StoresFailed key i ∧
      (Turnwise log → ∀ e ∈ since, e.cleared? ≠ some key) := by
  subst hr
  obtain ⟨slot, event, reason, verdict, rfl⟩ := Entry.eq_of_alarm? hx
  obtain ⟨earlier, next, since, _, _, _, _, rfl, hfailed, -, rfl, -, -, -, hasked, -⟩ :=
    h.founded hlog
  refine ⟨earlier, _, since, rfl, ⟨next, rfl, rfl, hfailed⟩, fun hturns e he hclear => ?_⟩
  rw [hlog, List.append_assoc, List.cons_append] at hturns
  have hlocal : ∀ asked ∈ asksOf i since, asked.1.isLedgerCall = false :=
    hasked ▸ Consumer.local_consultation
  rw [Entry.cleared?_eq_none (hturns.none_between rfl hlocal e he)] at hclear
  cases hclear

section Stretch

variable {before during after : List Entry} {key : Key}

/-- From one clearing of a key to the next there is one call at most by those who stored the row in
between. -/
theorem Run.alarms_of_stored (h : (waiting s errands).Run (before ++ during ++ after) crew)
    (hkey : key.deleteMarker = 0) (hcleared : ∀ e ∈ during, e.cleared? ≠ some key) :
    ((alarms key (before ++ during ++ after)).filter (storesFailed key during)).length ≤ 1 := by
  unfold alarms
  rw [List.filter_filterMap]
  refine length_filterMap_le_one fun earlier x between y since i hlog hx => ?_
  by_contra hne
  obtain ⟨j, hy⟩ := Option.ne_none_iff_exists'.mp hne
  obtain ⟨hx, hi⟩ := Option.filter_eq_some_iff.mp hx
  obtain ⟨hy, hj⟩ := Option.filter_eq_some_iff.mp hy
  obtain ⟨r, -, hx⟩ := mem_alarmOn hx
  obtain ⟨r', -, hy⟩ := mem_alarmOn hy
  obtain ⟨u, hmem, hu⟩ := exists_of_storesFailed hi
  obtain ⟨v, hmem', hv⟩ := exists_of_storesFailed hj
  obtain ⟨first, rest, hcut⟩ := List.append_of_mem hmem
  obtain ⟨first', rest', hcut'⟩ := List.append_of_mem hmem'
  obtain ⟨mid, hprior, -⟩ := h.split
  obtain ⟨_, -, hduring⟩ := hprior.split
  rcases hduring.failed_apart hcut hcut' hkey hu hv (h.alarm_once hlog hx hy) with
    ⟨apart, rfl, e, he, hclear⟩ | ⟨apart, rfl, e, he, hclear⟩
  · exact hcleared e (by simp [hcut, he]) hclear
  · exact hcleared e (by simp [hcut', he]) hclear

/-- If workers take turns at the ledger only, there is one at most from one clearing of a key to the
next. -/
theorem Run.alarms_of_turnwise (h : (waiting s errands).Run (before ++ during ++ after) crew)
    (hkey : key.deleteMarker = 0) (hcleared : ∀ e ∈ during, e.cleared? ≠ some key)
    (hturns : Turnwise (before ++ during ++ after)) : (alarms key during).length ≤ 1 := by
  refine length_filterMap_le_one fun earlier x between y since i hduring hx => ?_
  by_contra hne
  obtain ⟨j, hy⟩ := Option.ne_none_iff_exists'.mp hne
  obtain ⟨r, hr, hx⟩ := mem_alarmOn hx
  obtain ⟨r', hr', hy⟩ := mem_alarmOn hy
  have hlog : before ++ during ++ after =
      (before ++ earlier) ++ x :: between ++ y :: (since ++ after) := by simp [hduring]
  obtain ⟨first, u, rest, hfirst, hu, hrest⟩ :=
    h.stored_before (hlog.trans (List.append_assoc ..)) hx hr
  obtain ⟨first', v, rest', hfirst', hv, hrest'⟩ := h.stored_before hlog hy hr'
  -- what concerns both writes is over when the second handler is called
  obtain ⟨mid, hprior, -⟩ := Run.split (hlog ▸ h)
  have hcut : (before ++ earlier) ++ x :: between = first ++ u :: (rest ++ x :: between) := by
    rw [hfirst, List.append_assoc]
    rfl
  rcases hprior.failed_apart hcut hfirst' hkey hu hv (h.alarm_once hlog hx hy) with
    ⟨apart, hsince, e, he, hclear⟩ | ⟨apart, rfl, e, he, hclear⟩
  · have hmem : e ∈ rest ++ x :: between := hsince ▸ List.mem_append_left _ he
    rcases List.mem_append.mp hmem with hmem | hmem
    · exact hrest hturns e hmem hclear
    · rcases List.mem_cons.mp hmem with rfl | hmem
      · obtain ⟨slot, event, reason, verdict, rfl⟩ := Entry.eq_of_alarm? hx
        cases hclear
      · exact hcleared e (by simp [hduring, hmem]) hclear
  · exact hrest' hturns e (List.mem_append_left _ he) hclear

end Stretch

/-- **Escalation.**  Let any crew deliver, publish and scan on any ledger.  A worker that calls an
escalation handler has itself stored the row as failed before, since its retries were used up or no
event could be made from it; it tells of the row as it was stored; and the handler is the first one
of its chain to support the type of the event.  The worker calls no other one, and none unless it
reports that the delivery has failed.  If workers take turns at the ledger only, there is one call at
most from one clearing of a key to the next.  A worker that may lose its turn before the call may make
it when the key has been cleared; there is still one call at most on behalf of what was stored from
one clearing to the next.  Whatever the handler does, the ledger stays as it is and the worker reports
the same. -/
theorem escalated_once (hrun : (waiting s errands).Run log crew) :
    (∀ before i slot event record reason verdict after,
      log = before ++ .asked i (.escalate slot event record reason) verdict :: after →
      ∃ earlier next since mid errand c declined rest,
        before = earlier ++ .asked i (.update next) (.ok true) :: since ∧ next.status = .failed ∧
        Consumer.GivenUp c next reason ∧
        (waiting s errands).Run (earlier ++ [.asked i (.update next) (.ok true)]) mid ∧
        mid.store.find? next.key = some record ∧
        (roster errands log)[i]? = some errand ∧ errand.consumer? = some c ∧
        c.chain = declined ++ slot :: rest ∧
        asksOf i since = declined.map (Consumer.refusal event.eventType) ++
          [⟨.supports slot event.eventType, .ok true⟩] ∧
        asksOf i after = []) ∧
    (∀ before during after key, log = before ++ during ++ after → key.deleteMarker = 0 →
      (∀ e ∈ during, e.cleared? ≠ some key) →
        ((alarms key log).filter (storesFailed key during)).length ≤ 1 ∧
          (Turnwise log → (alarms key during).length ≤ 1)) ∧
    (∀ i outcome, crew.jobs[i]? = some (.done (.delivery outcome)) → outcome ≠ .ok .failed →
      Silent (asksOf i log)) ∧
    ∀ i slot event record reason verdict crew',
      crew.Step (.asked i (.escalate slot event record reason) verdict) crew' →
        crew'.store = crew.store ∧ crew'.jobs[i]? = some (.done (.delivery (.ok .failed))) ∧
          ∀ verdict', crew.Step (.asked i (.escalate slot event record reason) verdict') crew' := by
  refine ⟨?_, ?_, ?_, ?_⟩
  · intro before i slot event record reason verdict after hlog
    obtain ⟨earlier, next, since, errand, c, declined, rest, rfl, hfailed, hcause, rfl, hknown⟩ :=
      hrun.founded hlog
    rw [hlog, List.append_assoc] at hrun
    obtain ⟨mid, mid', hprior, hstep, -⟩ := hrun.cut
    exact ⟨earlier, next, since, mid', errand, c, declined, rest, rfl, hfailed, hcause,
      hprior.step hstep, hstep.find_written, hknown⟩
  · rintro before during after key rfl hkey hcleared
    exact ⟨hrun.alarms_of_stored hkey hcleared, hrun.alarms_of_turnwise hkey hcleared⟩
  · intro i outcome hjob hfailed
    obtain ⟨errand, -, htells, -⟩ := hrun.manned.errand hjob
    rcases htells.reported with hsilent | hreport
    · exact hsilent
    · cases hreport
      exact absurd rfl hfailed
  · intro i slot event record reason verdict crew' hstep
    have hmanned := hrun.manned
    cases hstep with
    | @asked s s' jobs _ _ next _ hjob hreply =>
      obtain rfl : s' = s := by
        rcases hreply with hs | ⟨⟨e, hfails⟩, -⟩
        · exact hs
        · exact hfails.elim
      have hdone := hmanned.done_of_alarm hjob rfl
      refine ⟨rfl, ?_, fun verdict' => ?_⟩
      · rw [hdone verdict]
        exact List.getElem?_set_self (List.getElem?_eq_some_iff.mp hjob).1
      · rw [(hdone verdict).trans (hdone verdict').symm]
        exact .asked hjob (.inl rfl)

/-- Three workers deliver one event and take turns at the ledger.  The first one fails for good, the
second one comes too late to create the row, and the third one clears the key and fails as well. -/
def failingTurns : List Turn :=
  turns 2 0 .ok ++ turns 2 1 .ok ++ turns 7 0 (.failed "x") ++ turns 1 1 .ok ++ turns 3 2 .ok ++
    turns 8 2 (.failed "y")

/-- Both that fail tell an escalation handler, and one of them does so after the key was cleared. -/
theorem escalated_once_reopened :
    ∃ before during crew earlier next since,
      (waiting .empty (List.replicate 3 (.deliver { clerk 0 with chain := [4, 5] } parcel))).Run
          (before ++ during) crew ∧
        Turnwise (before ++ during) ∧ alarms ((clerk 0).key parcel.id) (before ++ during) = [0, 2] ∧
        (∀ e ∈ during, e.cleared? ≠ some ((clerk 0).key parcel.id)) ∧
        (alarms ((clerk 0).key parcel.id) during).length ≤ 1 ∧
        before ++ during = earlier ++ .asked 0 (.update next) (.ok true) :: since ∧
        next.status = .failed := by
  have hplay : ((waiting .empty
      (List.replicate 3 (.deliver { clerk 0 with chain := [4, 5] } parcel))).play failingTurns).map
        (fun p => (alarms ((clerk 0).key parcel.id) p.1, decide (Turnwise p.1),
          decide (∀ e ∈ p.1.drop 15, e.cleared? ≠ some ((clerk 0).key parcel.id)))) =
      some ([0, 2], true, true) := by decide
  obtain ⟨⟨log, crew⟩, hrun, hheard⟩ := Option.map_eq_some_iff.mp hplay
  obtain ⟨halarms, hheard⟩ := Prod.mk.inj hheard
  obtain ⟨hturns, hcleared⟩ := Prod.mk.inj hheard
  have hcut : log.take 15 ++ log.drop 15 = log := List.take_append_drop 15 log
  obtain ⟨hfounded, hstretches, -⟩ := escalated_once (run_of_play hrun)
  have hstretch := hstretches (log.take 15) (log.drop 15) [] ((clerk 0).key parcel.id)
    (by rw [List.append_nil, hcut]) rfl (of_decide_eq_true hcleared)
  -- what the first of the calls is founded on
  have hmem : 0 ∈ alarms ((clerk 0).key parcel.id) log := halarms ▸ List.mem_cons_self
  obtain ⟨x, hx, halarm⟩ := List.mem_filterMap.mp hmem
  obtain ⟨before, after, hlog⟩ := List.append_of_mem hx
  obtain ⟨r, -, halarm⟩ := mem_alarmOn halarm
  obtain ⟨slot, event, reason, verdict, rfl⟩ := Entry.eq_of_alarm? halarm
  obtain ⟨earlier, next, since, _, _, _, _, _, hbefore, hfailed, -⟩ :=
    hfounded before 0 slot event r reason verdict after hlog
  rw [hbefore, List.append_assoc] at hlog
  exact ⟨log.take 15, log.drop 15, crew, earlier, next, _, hcut.symm ▸ run_of_play hrun,
    hcut.symm ▸ of_decide_eq_true hturns, hcut.symm ▸ halarms, of_decide_eq_true hcleared,
    hstretch.2 (of_decide_eq_true hturns), hcut.trans hlog, hfailed⟩

end Crew

end EventRelay
