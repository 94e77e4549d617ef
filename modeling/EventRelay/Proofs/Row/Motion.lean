import EventRelay.Proofs.Row.Conditions
import EventRelay.Proofs.Row.Reports
import EventRelay.Proofs.Row.Treatment

/-!
# A scan moves the rows it takes

The numbers of a report add up to the number of rows that were selected, whatever happens on the way
(`Replayer.run_balanced`).  A replay that comes to an outcome has stored its row anew, with a version
higher by one and at its end or with one retry more (`Store.Treated.moved`), and with the status that
its outcome stands for (`Store.Treated.tells`).  So a scan that nothing interferes with, and whose
calls of the ledger succeed, skips no row and leaves none as it was, and no row can come first in scan
after scan (`Replayer.scan_moves_rows`).
-/

namespace EventRelay

open Work (Progress)

section Balance

variable {σ : Type} {reply : Work.Replies σ} {p : Replayer}

/-- A scan that comes to a report has no row waiting for a reply, and has counted them all. -/
theorem Replayer.runRows_done {rows : List Record} {places : Nat} {stalled : Bool}
    {report report' : ScanReport} {x x' : σ}
    (h : p.runRows reply places stalled report rows x = (.done report', x')) :
    stalled = false ∧ ∃ outcomes : List (Except Error Consumer.Outcome),
      outcomes.length = rows.length ∧ report' = outcomes.foldl ScanReport.count report := by
  induction rows generalizing places stalled report x with
  | nil =>
    cases places with
    | zero =>
      rw [runRows] at h
      cases h
    | succ places =>
      rw [runRows] at h
      cases stalled with
      | true => cases h
      | false =>
        cases h
        exact ⟨rfl, [], rfl, rfl⟩
  | cons r rest ih =>
    cases places with
    | zero =>
      rw [runRows] at h
      cases h
    | succ places =>
      rw [runRows] at h
      split at h
      · rename_i outcome x₁ _
        obtain ⟨hstalled, outcomes, hlength, hreport⟩ := ih h
        exact ⟨hstalled, outcome :: outcomes, congrArg (· + 1) hlength, hreport⟩
      · cases h
      · exact absurd (ih h).1 (by decide)

/-- What is given as the due rows are those of a ledger, in whatever state that is by then. -/
def Work.Replies.Selects (reply : Work.Replies σ) : Prop :=
  ∀ now batch x rows x', reply (.due now batch) x = (.done (.ok rows), x') →
    ∃ s : Store, rows = s.due now batch

theorem Work.Replies.Serves.selects {view : σ → Store} {manner : Manner}
    (h : reply.Serves view manner) : reply.Selects := by
  intro now batch x rows x' hreply
  obtain ⟨answer, x₁, hanswer, hreplies, -⟩ := h (.due now batch) x fun o s' => id
  cases hreply.symm.trans hanswer
  rcases hreplies with ⟨hrows, -⟩ | ⟨⟨e, hfails⟩, -⟩
  · exact ⟨view x, Except.ok.inj hrows⟩
  · cases hfails

/-- **The numbers of a report add up**, whatever else happens to the ledger. -/
theorem Replayer.run_balanced (hselects : reply.Selects) {batch : Nat} {x x' : σ}
    {report : ScanReport} (h : p.run reply batch x = (.done (.ok report), x')) :
    report.selected = report.total ∧ report.selected ≤ batch := by
  unfold run at h
  split at h
  · cases h
  · cases h
  · cases h
  · rename_i rows x₁ hselect
    split at h
    · rename_i counted x₂ hrows
      cases h
      obtain ⟨-, outcomes, hlength, hreport⟩ := runRows_done hrows
      rw [← hlength] at hreport
      obtain rfl : report = .ofOutcomes outcomes := hreport
      refine ⟨ScanReport.selected_ofOutcomes.trans ScanReport.total_ofOutcomes.symm, ?_⟩
      rw [ScanReport.selected_ofOutcomes, hlength]
      obtain ⟨now, x₃, -, hdue⟩ := Work.answered_of_run hselect
      obtain ⟨_, _, hreply, hdone⟩ := Work.answered_of_run hdue
      cases hdone
      obtain ⟨s, rfl⟩ := hselects _ _ _ _ _ hreply
      exact List.length_take_le ..
    · cases h
    · cases h

end Balance

/-! ### Rows that move on -/

/-- **A row that has moved on**: it was stored once more, and is at its end or waits with one retry
more. -/
structure Record.MovedOn (r next : Record) : Prop where
  version : next.version = r.version + 1
  onward : next.status.isTerminal = true ∨
    next.status = .retrying ∧ next.retryTimes = r.retryTimes + 1

/-- **What a scan leaves of a ledger** whose rows it has taken. -/
structure Store.Moved (s : Store) (rows : List Record) (s' : Store) : Prop where
  taken : ∀ r ∈ rows, ∃ next, s'.find? r.key = some next ∧ r.MovedOn next
  others : ∀ x ∈ s.rows, x ∉ rows → x ∈ s'.rows
  keys : s'.rows.map Record.key = s.rows.map Record.key
  /-- No row that was taken comes again as it was. -/
  gone : ∀ r ∈ rows, ∀ now batch, r ∉ s'.due now batch

/-- A row is stored as an attempt at it was settled, with this outcome. -/
def Consumer.HasSettled (c : Consumer) (s : Store) (r : Record)
    (outcome : Except Error Consumer.Outcome) : Prop :=
  ∃ event attempt t now copy settled, outcome = .ok settled ∧
    c.Settles event r attempt t settled ∧ r.transition t now = .ok copy ∧
      s.find? r.key = some copy.revised

section Moved

variable {c : Consumer} {manner : Manner} {s s' : Store} {r : Record} {rows : List Record}
  {outcome : Except Error Consumer.Outcome} {outcomes : List (Except Error Consumer.Outcome)}

theorem Consumer.HasSettled.movedOn (h : c.HasSettled s r outcome) :
    ∃ next, s.find? r.key = some next ∧ r.MovedOn next := by
  obtain ⟨event, attempt, t, now, copy, settled, -, hsettles, hcopy, hfind⟩ := h
  refine ⟨copy.revised, hfind, ?_, ?_⟩
  · rw [Record.version_revised, Record.version_transition hcopy]
  · rw [Record.status_revised, Record.retryTimes_revised]
    exact hsettles.moved hcopy

theorem Consumer.HasSettled.status (h : c.HasSettled s r outcome) :
    ∃ status, (s.find? r.key).map Record.status = some status ∧
      (ScanReport.Column.of outcome).status? = some status := by
  obtain ⟨event, attempt, t, now, copy, settled, rfl, hsettles, hcopy, hfind⟩ := h
  refine ⟨copy.status, by rw [hfind, Option.map_some, Record.status_revised], ?_⟩
  obtain ⟨-, rfl⟩ := Record.transition_cases hcopy
  cases hsettles with
  | unhandled | succeeded | rescheduled | exhausted | abandoned => rfl

theorem Store.Treated.settled (hfaulty : ¬ manner.Faulty)
    (h : s.Treated (c.Leaves manner) rows outcomes s') :
    List.Forall₂ (c.HasSettled s') rows outcomes := by
  refine h.each.imp fun r outcome ⟨written?, hleaves, hfind⟩ => ?_
  cases outcome with
  | error e => exact absurd hleaves.faulty hfaulty
  | ok settled =>
    obtain ⟨event, attempt, t, now, copy, hsettles, hcopy, rfl⟩ := hleaves.of_ok
    exact ⟨event, attempt, t, now, copy, settled, rfl, hsettles, hcopy, hfind⟩

/-- **Rows that were treated have moved on**, if no call of the ledger has failed. -/
theorem Store.Treated.moved (hkeyed : s.Keyed) (hmem : ∀ r ∈ rows, r ∈ s.rows)
    (hfaulty : ¬ manner.Faulty) (h : s.Treated (c.Leaves manner) rows outcomes s') :
    s.Moved rows s' := by
  have htaken : ∀ r ∈ rows, ∃ next, s'.find? r.key = some next ∧ r.MovedOn next := by
    obtain ⟨hlength, hall⟩ := List.forall₂_iff_get.mp (h.settled hfaulty)
    intro r hr
    obtain ⟨k, hk, rfl⟩ := List.getElem_of_mem hr
    exact (hall k hk (hlength ▸ hk)).movedOn
  refine ⟨htaken, fun x hx hother => ?_, h.frame.keys, fun r hr now batch hdue => ?_⟩
  · refine h.frame.mem hkeyed hx fun ⟨r, hr, hsame⟩ => hother ?_
    exact hkeyed.eq_of_key (hmem r hr) hx hsame ▸ hr
  · obtain ⟨next, hfind, hmoved⟩ := htaken r hr
    rw [(h.frame.keyed hkeyed).find? (Store.mem_due hdue).1] at hfind
    cases hfind
    have := hmoved.version
    omega

/-- **Their report tells what they are.** -/
theorem Store.Treated.tells (hfaulty : ¬ manner.Faulty)
    (h : s.Treated (c.Leaves manner) rows outcomes s') :
    (ScanReport.ofOutcomes outcomes).selected = rows.length ∧
      (ScanReport.ofOutcomes outcomes).TellsOf s' rows := by
  refine ⟨ScanReport.selected_ofOutcomes.trans h.each.length_eq.symm, ?_⟩
  exact .of_forall₂ ((h.settled hfaulty).imp fun _ _ => Consumer.HasSettled.status)

theorem Store.Moved.none_left {report : ScanReport} (h : s.Moved rows s')
    (htells : report.TellsOf s' rows) : report.skipped = 0 ∧ report.errors = 0 :=
  htells.none_left fun r hr => (h.taken r hr).imp fun _ hnext => hnext.1

end Moved

/-! ### Scans -/

/-- Whether a reply is not that of a failed call. -/
def Manner.faultless : Manner := fun request reply => ∀ e, ¬ request.Fails reply e

theorem Manner.not_faulty_faultless : ¬ Manner.faultless.Faulty :=
  fun ⟨_, _, e, hfails, hmanner⟩ => hmanner e hfails

namespace Replayer

/-- The replays of a scan go on in any interleaving, no call of the ledger fails, and nobody joins. -/
structure Unhindered (p : Replayer) (s : Store) (rows : List Record) (log : List Entry)
    (crew : Crew) : Prop where
  run : (p.selected s rows).Run log crew
  alone : ∀ errand, Entry.began errand ∉ log
  faultless : ∀ i request reply e, Entry.asked i request reply ∈ log → ¬ request.Fails reply e

theorem Unhindered.treated {p : Replayer} {s : Store} {rows : List Record} {log : List Entry}
    {crew : Crew} {outcomes : List (Except Error Consumer.Outcome)}
    (h : p.Unhindered s rows log crew) (hholds : s.Holds rows)
    (hkeys : ∀ r ∈ rows, r.key = p.consumer.key r.eventId) (hconcluded : crew.Concluded outcomes) :
    s.Treated (p.consumer.Leaves Manner.faultless) rows outcomes crew.store := by
  have hstart : (p.selected s rows).Tends Manner.faultless (p.consumer.Leaves Manner.faultless) s
      rows := .start hholds fun r hr => tends_replay (hholds.retrying r hr) (hkeys r hr)
  have htends := hstart.run hholds h.run h.alone fun i request reply hmem e =>
    h.faultless i request reply e hmem
  exact htends.finished hconcluded

section Scan

variable {σ : Type} {reply : Work.Replies σ} {view : σ → Store} {manner : Manner} {p : Replayer}
  {s : Store} {now : Instant} {batch : Nat} {x : σ}

/-- A scan that nothing interferes with treats the rows that are due at the time that it is told. -/
theorem run_serves (p : Replayer) (batch : Nat) (hserves : reply.Serves view manner)
    (hfaulty : ¬ manner.Faulty) (hnow : (reply .now x).1 = .done now) :
    ∃ x', view x' = view x ∧ p.run reply batch x =
      ((p.runRows reply p.places false { selected := ((view x).due now batch).length }
          ((view x).due now batch) x').1.map .ok,
        (p.runRows reply p.places false { selected := ((view x).due now batch).length }
          ((view x).due now batch) x').2) := by
  obtain ⟨now', x₁, hclock, hstill, -⟩ := hserves .now x fun o s' => id
  obtain rfl : now' = now := by
    rw [hclock] at hnow
    cases hnow
    rfl
  have hsame : view x₁ = view x := hstill.elim id fun h => h.2
  obtain ⟨answer, x₂, hdue, hreplies, hmanner⟩ := hserves (.due now' batch) x₁ fun o s' => id
  rcases hreplies with ⟨rfl, hsame'⟩ | ⟨⟨e, hfails⟩, -⟩
  · rw [hsame] at hdue hsame'
    exact ⟨x₂, hsame', run_of_select hclock hdue⟩
  · exact absurd ⟨_, _, e, hfails, hmanner⟩ hfaulty

/-- **A scan that nothing interferes with** moves the rows that are due, or a replay crashes. -/
theorem run_moved (hserves : reply.Serves view manner) (hfaulty : ¬ manner.Faulty)
    (hkeyed : (view x).Keyed) (hnow : (reply .now x).1 = .done now)
    (howner : ∀ r ∈ (view x).due now batch, r.ownerGroup = p.consumer.config.ownerGroup)
    (hrevisable : ∀ r ∈ (view x).due now batch, r.Revisable) :
    (∃ report x', p.run reply batch x = (.done (.ok report), x') ∧
      (view x).Moved ((view x).due now batch) (view x') ∧
      report.selected = ((view x).due now batch).length ∧
      report.TellsOf (view x') ((view x).due now batch)) ∨
    ∃ text x' r written?, p.run reply batch x = (.crashed text, x') ∧
      r ∈ (view x).due now batch ∧ p.consumer.Leaves manner r written? (.crashed text) := by
  have hholds := Store.holds_due hkeyed hrevisable
  obtain ⟨x₁, hsame, hrun⟩ := run_serves p batch hserves hfaulty hnow
  rw [hrun]
  have htends : ∀ r ∈ (view x).due now batch,
      (p.replay r).Tends manner r (p.consumer.Leaves manner r) none :=
    fun r hr => tends_replay (hholds.retrying r hr) (key_of_due hr (howner r hr))
  obtain ⟨places, hplaces⟩ := p.exists_places
  rw [hplaces]
  rcases runRows_tends hserves places (x := x₁) (by rw [hsame]; exact hholds) htends
    { selected := ((view x).due now batch).length } with
    ⟨outcomes, x', hrows, htreated⟩ | ⟨text, x', r, written?, hrows, hr, hleaves⟩
  · rw [hsame] at htreated
    refine .inl ⟨.ofOutcomes outcomes, x', ?_,
      htreated.moved hkeyed (fun r hr => (Store.mem_due hr).1) hfaulty, htreated.tells hfaulty⟩
    rw [hrows, ScanReport.ofOutcomes, htreated.each.length_eq]
    rfl
  · exact .inr ⟨text, x', r, written?, by rw [hrows]; rfl, hr, hleaves⟩

end Scan

/-- **A scan moves the rows it takes.**  Whatever goes on around it, a scan that returns a report has
selected no more rows than it may, and its numbers add up; so they do when its rows end in any order,
and each of them counts the outcomes that belong to it.  If all selected rows are of the scan's own
group and can be written, no call of the ledger fails and nobody else writes, then every selected row,
whether an event can be made from it or not, has been stored once more and is at its end or waits with
one retry more, the report says how many are stored with which status, none counts as skipped or as an
error, and every other row is as it was: however the replays are interleaved, and in any surroundings
in which they are carried out one after the other.  A report is returned unless user code panics when
it is asked, if retries are planned by exponential backoff. -/
theorem scan_moves_rows (p : Replayer) :
    (∀ {σ : Type} (reply : Work.Replies σ), reply.Selects → ∀ batch x report x',
      p.run reply batch x = (.done (.ok report), x') →
        report.selected = report.total ∧ report.selected ≤ batch) ∧
    (∀ outcomes, (ScanReport.ofOutcomes outcomes).selected =
      (ScanReport.ofOutcomes outcomes).total ∧
        ∀ column, (ScanReport.ofOutcomes outcomes).entry column =
          outcomes.countP (ScanReport.Column.of · = column)) ∧
    ∀ (now : Instant) (batch : Nat) {calls : List Store.Exchange} {s : Store},
      Store.History calls s →
      (∀ r ∈ s.due now batch, r.ownerGroup = p.consumer.config.ownerGroup) →
      (∀ r ∈ s.due now batch, r.Revisable) →
      (∀ log crew outcomes, p.Unhindered s (s.due now batch) log crew → crew.Concluded outcomes →
        s.Moved (s.due now batch) crew.store ∧
          (ScanReport.ofOutcomes outcomes).selected = (s.due now batch).length ∧
          (ScanReport.ofOutcomes outcomes).TellsOf crew.store (s.due now batch) ∧
          (ScanReport.ofOutcomes outcomes).skipped = 0 ∧
          (ScanReport.ofOutcomes outcomes).errors = 0) ∧
      ∀ {σ : Type} (reply : Work.Replies σ) (view : σ → Store) (manner : Manner) (x : σ),
        reply.Serves view manner → ¬ manner.Faulty → view x = s → (reply .now x).1 = .done now →
        (∀ report x', p.run reply batch x = (.done (.ok report), x') →
          s.Moved (s.due now batch) (view x') ∧ report.selected = (s.due now batch).length ∧
            report.TellsOf (view x') (s.due now batch) ∧ report.skipped = 0 ∧
            report.errors = 0) ∧
        ∀ b, p.consumer.rule = .backoff b → ¬ b.multiplier < 0.0 →
          (∀ r ∈ s.due now batch, r.maxRetryTimes ≤ greatestNat32) → ¬ manner.Panicky →
          ∃ report x', p.run reply batch x = (.done (.ok report), x') := by
  refine ⟨fun reply hselects batch x report x' hrun => run_balanced hselects hrun,
    fun outcomes => ?_, fun now batch calls s hhistory howner hrevisable => ⟨?_, ?_⟩⟩
  · exact ⟨ScanReport.selected_ofOutcomes.trans ScanReport.total_ofOutcomes.symm,
      ScanReport.entry_ofOutcomes⟩
  · intro log crew outcomes hunhindered hconcluded
    have htreated := hunhindered.treated (Store.holds_due hhistory.keyed hrevisable)
      (fun r hr => key_of_due hr (howner r hr)) hconcluded
    have hmoved := htreated.moved hhistory.keyed (fun r hr => (Store.mem_due hr).1)
      Manner.not_faulty_faultless
    obtain ⟨hselected, htells⟩ := htreated.tells Manner.not_faulty_faultless
    exact ⟨hmoved, hselected, htells, hmoved.none_left htells⟩
  · intro σ reply view manner x hserves hfaulty hview hnow
    subst hview
    rcases run_moved hserves hfaulty hhistory.keyed hnow howner hrevisable with
      ⟨report, x', hrun, hmoved, hselected, htells⟩ | ⟨text, x', r, written?, hrun, hr, hleaves⟩
    · refine ⟨fun other y hother => ?_, fun _ _ _ _ _ => ⟨report, x', hrun⟩⟩
      cases hrun.symm.trans hother
      exact ⟨hmoved, hselected, htells, hmoved.none_left htells⟩
    · refine ⟨fun other y hother => ?_, fun b hrule hmultiplier hlimit hcalm => ?_⟩
      · cases hrun.symm.trans hother
      · exact absurd (hleaves.panicky hrule hmultiplier (hlimit r hr)) hcalm

end Replayer

namespace Crew

/-- A row without a payload does not come first again, and the row that was not due stays. -/
theorem scan_moves_rows_hollow :
    ∃ report final, carrier.run (unlucky fun _ => none).reply 2 trio = (.done (.ok report), final) ∧
      report.selected = 2 ∧ report.total = 2 ∧ report.TellsOf final (trio.due default 2) ∧
      report.skipped = 0 ∧ report.errors = 0 ∧
      (∀ now batch, hollowRow ∉ final.due now batch) ∧ idleRow ∈ final.rows := by
  obtain ⟨calls, hhistory⟩ := history_trio
  have hserves := Conditions.serves (unlucky fun _ => none)
  obtain ⟨hbalanced, -, hmoves⟩ := Replayer.scan_moves_rows carrier
  obtain ⟨-, hscan⟩ := hmoves default 2 hhistory (by rw [due_trio]; decide)
    (by rw [due_trio]; decide)
  obtain ⟨hmoved, hreturns⟩ := hscan _ id _ trio hserves
    (Conditions.not_faulty fun _ => rfl) rfl rfl
  obtain ⟨report, final, hrun⟩ := hreturns _ rfl (by decide) (by rw [due_trio]; decide)
    (calm_unlucky _).not_panicky
  obtain ⟨hfinal, hselected, htells, hskipped, herrors⟩ := hmoved report final hrun
  rw [due_trio] at hfinal hselected
  obtain ⟨htotal, -⟩ := hbalanced _ hserves.selects 2 trio report final hrun
  exact ⟨report, final, hrun, hselected, htotal.symm.trans hselected, htells, hskipped, herrors,
    hfinal.gone hollowRow (List.mem_cons_of_mem _ List.mem_cons_self),
    hfinal.others idleRow (by decide) (by decide)⟩

end Crew

end EventRelay
