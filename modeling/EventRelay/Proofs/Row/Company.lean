import EventRelay.Proofs.Crew.Groups
import EventRelay.Proofs.Row.Tending

/-!
# Rows in company

Rows that are tended at the same time, each by a worker of its own, and rows that are tended one after
the other.  Under distinct keys they have nothing to do with each other.  However the workers take
turns, each row is at any time as its own worker has had it stored (`Crew.Tends.run`), and a worker
that is alone with its row comes to an end (`Work.Tends.run`), after which the next row is still what
it was (`Replayer.runRows_tends`).
-/

namespace EventRelay

open Work (Progress)

/-- How the work of a delivery has ended, if it has. -/
def Work.ended? : Work Report → Option (Progress (Except Error Consumer.Outcome))
  | .done (.delivery outcome) => some (.done outcome)
  | .crash text => some (.crashed text)
  | _ => none

theorem Work.ended?_cases {w : Work Report} {progress : Progress (Except Error Consumer.Outcome)}
    (h : w.ended? = some progress) :
    (∃ outcome, w = .done (.delivery outcome) ∧ progress = .done outcome) ∨
      ∃ text, w = .crash text ∧ progress = .crashed text := by
  unfold ended? at h
  split at h
  · exact .inl ⟨_, rfl, (Option.some.inj h).symm⟩
  · exact .inr ⟨_, rfl, (Option.some.inj h).symm⟩
  · cases h

/-- Rows of a ledger that wait for their retry, and can be treated independently of each other. -/
structure Store.Holds (s : Store) (rows : List Record) : Prop where
  keys : (rows.map Record.key).Nodup
  found : ∀ r ∈ rows, s.find? r.key = some r
  retrying : ∀ r ∈ rows, r.status = .retrying
  revisable : ∀ r ∈ rows, r.Revisable

namespace Store.Holds

variable {s s' : Store} {r : Record} {rows rows' : List Record}

theorem opened (h : s.Holds rows) (hr : r ∈ rows) : r.status.isTerminal = false := by
  rw [h.retrying r hr]
  rfl

theorem perm (h : s.Holds rows) (hperm : rows'.Perm rows) : s.Holds rows' where
  keys := (hperm.map Record.key).nodup_iff.mpr h.keys
  found r hr := h.found r (hperm.mem_iff.mp hr)
  retrying r hr := h.retrying r (hperm.mem_iff.mp hr)
  revisable r hr := h.revisable r (hperm.mem_iff.mp hr)

theorem tail (h : s.Holds (r :: rows)) (hframe : s.SameBut (· = r.key) s') : s'.Holds rows := by
  have hkeys := h.keys
  rw [List.map_cons, List.nodup_cons] at hkeys
  refine ⟨hkeys.2, fun x hx => ?_, fun x hx => h.retrying x (List.mem_cons_of_mem _ hx),
    fun x hx => h.revisable x (List.mem_cons_of_mem _ hx)⟩
  rw [hframe.find x.key fun hsame => hkeys.1 (hsame ▸ List.mem_map_of_mem hx)]
  exact h.found x (List.mem_cons_of_mem _ hx)

theorem key_ne (h : s.Holds rows) {k l : Nat} {x : Record} (hr : rows[k]? = some r)
    (hx : rows[l]? = some x) (hne : l ≠ k) : x.key ≠ r.key := by
  intro hsame
  have hl : l < (rows.map Record.key).length := by
    rw [List.length_map]
    exact (List.getElem?_eq_some_iff.mp hx).1
  refine hne ((List.getElem?_inj hl h.keys).mp ?_)
  rw [List.getElem?_map, List.getElem?_map, hr, hx]
  exact congrArg some hsame

end Store.Holds

/-- **Due rows can be treated independently of each other.** -/
theorem Store.holds_due {s : Store} (hkeyed : s.Keyed) {now : Instant} {limit : Nat}
    (hrevisable : ∀ r ∈ s.due now limit, r.Revisable) : s.Holds (s.due now limit) where
  keys := hkeyed.due now limit
  found _ hr := hkeyed.find? (mem_due hr).1
  retrying _ hr := (Record.isDue_iff.mp (mem_due hr).2).2.2.1
  revisable := hrevisable

theorem Replayer.exists_places (p : Replayer) : ∃ places, p.places = places + 1 :=
  ⟨max p.config.concurrency 1 - 1, by unfold places; omega⟩

/-- **What is left when all rows have been treated**, with these outcomes.  Each row is as its replay
leaves it, and no other one has changed. -/
structure Store.Treated
    (ends : Record → Option Record → Progress (Except Error Consumer.Outcome) → Prop) (s : Store)
    (rows : List Record) (outcomes : List (Except Error Consumer.Outcome)) (s' : Store) : Prop where
  each : List.Forall₂ (fun r outcome => ∃ written?, ends r written? (.done outcome) ∧
    s'.find? r.key = some (written?.getD r)) rows outcomes
  frame : s.SameBut (fun key => ∃ r ∈ rows, r.key = key) s'

/-- A row that was treated first is left as it is by those behind it, which have other keys. -/
theorem Store.Treated.cons
    {ends : Record → Option Record → Progress (Except Error Consumer.Outcome) → Prop}
    {s s₁ s' : Store} {r : Record} {rows : List Record} {written? : Option Record}
    {outcome : Except Error Consumer.Outcome} {outcomes : List (Except Error Consumer.Outcome)}
    (h : s₁.Treated ends rows outcomes s') (hholds : s.Holds (r :: rows))
    (hends : ends r written? (.done outcome)) (hfind : s₁.find? r.key = some (written?.getD r))
    (hframe : s.SameBut (· = r.key) s₁) : s.Treated ends (r :: rows) (outcome :: outcomes) s' where
  each := by
    have hkeys := hholds.keys
    rw [List.map_cons, List.nodup_cons] at hkeys
    refine .cons ⟨written?, hends, ?_⟩ h.each
    rw [h.frame.find r.key fun ⟨y, hy, hsame⟩ => hkeys.1 (hsame ▸ List.mem_map_of_mem hy)]
    exact hfind
  frame := (hframe.mono fun key hkey => ⟨r, List.mem_cons_self, hkey.symm⟩).trans
    (h.frame.mono fun key ⟨y, hy, hsame⟩ => ⟨y, List.mem_cons_of_mem _ hy, hsame⟩)

/-- The report of a scan whose rows have had these outcomes. -/
def ScanReport.ofOutcomes (outcomes : List (Except Error Consumer.Outcome)) : ScanReport :=
  outcomes.foldl ScanReport.count { selected := outcomes.length }

/-! ### At the same time -/

/-- All replays of a scan have ended, with these outcomes in the order of the rows. -/
def Crew.Concluded (crew : Crew) (outcomes : List (Except Error Consumer.Outcome)) : Prop :=
  crew.jobs.tail = outcomes.map fun outcome => .done (.delivery outcome)

inductive Reported (ends : Option Record → Progress (Except Error Consumer.Outcome) → Prop) :
    Option Record → Progress Report → Prop
  | done {written? : Option Record} {outcome : Except Error Consumer.Outcome}
      (h : ends written? (.done outcome)) : Reported ends written? (.done (.delivery outcome))
  | crashed {written? : Option Record} {text : String} (h : ends written? (.crashed text)) :
      Reported ends written? (.crashed text)

/-- **A crew that tends rows**, each by the worker in its place. -/
structure Crew.Tends (manner : Manner)
    (ends : Record → Option Record → Progress (Except Error Consumer.Outcome) → Prop)
    (s : Store) (rows : List Record) (crew : Crew) : Prop where
  selector : ∃ p, crew.jobs[0]? = some (.done (.selection p (.ok [])))
  length : crew.jobs.length = rows.length + 1
  tends : ∀ k r, rows[k]? = some r → ∃ job written?, crew.jobs[k + 1]? = some job ∧
    job.Tends manner r (Reported (ends r)) written? ∧
      crew.store.find? r.key = some (written?.getD r)
  frame : s.SameBut (fun key => ∃ r ∈ rows, r.key = key) crew.store

namespace Crew.Tends

variable {manner : Manner}
  {ends : Record → Option Record → Progress (Except Error Consumer.Outcome) → Prop}
  {s store store' : Store} {rows : List Record} {crew crew' : Crew} {jobs : List (Work Report)}
  {log : List Entry} {entry : Entry} {r : Record} {k : Nat}

theorem start {p : Replayer} (hholds : s.Holds rows)
    (htends : ∀ r ∈ rows, (p.replay r).Tends manner r (ends r) none) :
    (p.selected s rows).Tends manner ends s rows where
  selector := ⟨p, rfl⟩
  length := by
    show (rows.map _).length + 1 = _
    rw [List.length_map]
  tends k r hr := by
    have hmem := List.mem_of_getElem? hr
    exact ⟨(Errand.replay p r).work, none, Replayer.job_selected s hr,
      (htends r hmem).bind (fun _ _ h => .done h) fun _ _ h => .crashed h, hholds.found r hmem⟩
  frame := .refl _ _

theorem worker (h : (Crew.mk store jobs).Tends manner ends s rows) {job : Work Report}
    (hjob : jobs[k + 1]? = some job) : ∃ r written?, rows[k]? = some r ∧
      job.Tends manner r (Reported (ends r)) written? ∧
        store.find? r.key = some (written?.getD r) := by
  have hlt := (List.getElem?_eq_some_iff.mp hjob).1
  have hk : k < rows.length := by
    have hlength : jobs.length = rows.length + 1 := h.length
    omega
  obtain ⟨job', written?, hjob', htends, hfind⟩ :=
    h.tends k rows[k] (List.getElem?_eq_getElem hk)
  obtain rfl := Option.some.inj (hjob.symm.trans hjob')
  exact ⟨rows[k], written?, List.getElem?_eq_getElem hk, htends, hfind⟩

theorem goOn (h : (Crew.mk store jobs).Tends manner ends s rows) (hholds : s.Holds rows)
    (hr : rows[k]? = some r) {job : Work Report} {written? : Option Record}
    (htends : job.Tends manner r (Reported (ends r)) written?)
    (hfind : store'.find? r.key = some (written?.getD r))
    (hframe : store.SameBut (· = r.key) store') :
    (Crew.mk store' (jobs.set (k + 1) job)).Tends manner ends s rows where
  selector := by
    obtain ⟨p, hselector⟩ := h.selector
    exact ⟨p, (List.getElem?_set_ne (by omega)).trans hselector⟩
  length := List.length_set.trans h.length
  tends l x hx := by
    by_cases hl : l = k
    · subst hl
      obtain rfl := Option.some.inj (hr.symm.trans hx)
      have hlt : l + 1 < jobs.length := by
        have hlength : jobs.length = rows.length + 1 := h.length
        have := (List.getElem?_eq_some_iff.mp hr).1
        omega
      exact ⟨job, written?, List.getElem?_set_self hlt, htends, hfind⟩
    · obtain ⟨job', written', hjob', htends', hfind'⟩ := h.tends l x hx
      refine ⟨job', written', (List.getElem?_set_ne (by omega)).trans hjob', htends', ?_⟩
      exact (hframe.find x.key (hholds.key_ne hr hx hl)).trans hfind'
  frame := h.frame.trans (hframe.mono fun key hkey => ⟨r, List.mem_of_getElem? hr, hkey.symm⟩)

theorem step (h : crew.Tends manner ends s rows) (hholds : s.Holds rows)
    (hstep : crew.Step entry crew') (halone : ∀ errand, entry ≠ .began errand)
    (hmanner : ∀ i request reply, entry = .asked i request reply → manner request reply) :
    crew'.Tends manner ends s rows := by
  obtain ⟨p, hselector⟩ := h.selector
  cases hstep with
  | began errand => exact absurd rfl (halone errand)
  | @asked store store' jobs i request next reply hjob hreply =>
    cases i with
    | zero => cases hselector.symm.trans hjob
    | succ k =>
      obtain ⟨r, written?, hr, ⟨habout, hnext⟩, hfind⟩ := h.worker hjob
      have hmem := List.mem_of_getElem? hr
      obtain ⟨written', hgiven, hfind', hframe⟩ := habout.given hfind (hholds.opened hmem)
        (hholds.revisable r hmem) hreply (hmanner _ _ _ rfl)
      exact h.goOn hholds hr (hnext reply written' hgiven) hfind' hframe
  | @crashed store store' jobs i request next o hjob hover =>
    cases i with
    | zero => cases hselector.symm.trans hjob
    | succ k =>
      obtain ⟨r, written?, hr, ⟨habout, -⟩, -⟩ := h.worker hjob
      exact absurd hover (habout.not_overflows (hholds.revisable r (List.mem_of_getElem? hr)))
  | @handedOut store jobs i p' given hjob =>
    cases i with
    | zero =>
      -- the rows have been given away before
      cases hselector.symm.trans hjob
      have hlt := (List.getElem?_eq_some_iff.mp hjob).1
      have hsame : jobs.set 0 (.done (.selection p (.ok []))) = jobs := by
        rw [← (List.getElem?_eq_some_iff.mp hjob).2]
        exact List.set_getElem_self hlt
      rw [hsame, List.map_nil, List.append_nil]
      exact h
    | succ k =>
      obtain ⟨r, written?, -, hends, -⟩ := h.worker hjob
      cases hends

/-- **What a run preserves**, as long as nobody joins. -/
theorem run (h : crew.Tends manner ends s rows) (hholds : s.Holds rows) (hrun : crew.Run log crew')
    (halone : ∀ errand, Entry.began errand ∉ log)
    (hmanner : ∀ i request reply, Entry.asked i request reply ∈ log → manner request reply) :
    crew'.Tends manner ends s rows := by
  induction hrun with
  | start => exact h
  | step prior hstep ih =>
    refine (ih (fun errand hmem => ?_) fun i request reply hmem => ?_).step hholds hstep
      (fun errand he => ?_) fun i request reply he => ?_
    · exact halone errand (List.mem_append_left _ hmem)
    · exact hmanner i request reply (List.mem_append_left _ hmem)
    · exact halone errand (List.mem_append_right _ (List.mem_singleton.mpr he.symm))
    · exact hmanner i request reply (List.mem_append_right _ (List.mem_singleton.mpr he.symm))

/-- **A row whose worker has ended** is as its replay leaves it. -/
theorem ended (h : crew.Tends manner ends s rows) (hr : rows[k]? = some r) {job : Work Report}
    (hjob : crew.jobs[k + 1]? = some job) {progress : Progress (Except Error Consumer.Outcome)}
    (hended : job.ended? = some progress) :
    ∃ written?, ends r written? progress ∧ crew.store.find? r.key = some (written?.getD r) := by
  obtain ⟨job', written?, hjob', htends, hfind⟩ := h.tends k r hr
  obtain rfl := Option.some.inj (hjob.symm.trans hjob')
  refine ⟨written?, ?_, hfind⟩
  rcases Work.ended?_cases hended with ⟨outcome, rfl, rfl⟩ | ⟨text, rfl, rfl⟩
  · cases htends with
    | done h => exact h
  · cases htends with
    | crashed h => exact h

/-- **When all workers have ended**, all rows have been treated. -/
theorem finished (h : crew.Tends manner ends s rows)
    {outcomes : List (Except Error Consumer.Outcome)} (hjobs : crew.Concluded outcomes) :
    s.Treated ends rows outcomes crew.store := by
  unfold Concluded at hjobs
  have hlength : rows.length = outcomes.length := by
    have htail := congrArg List.length hjobs
    rw [List.length_tail, List.length_map, h.length] at htail
    exact htail
  refine ⟨List.forall₂_iff_get.mpr ⟨hlength, fun k hk hk' => ?_⟩, h.frame⟩
  have hjob : crew.jobs[k + 1]? = some (.done (.delivery outcomes[k])) := by
    rw [← List.getElem?_tail, hjobs, List.getElem?_map, List.getElem?_eq_getElem hk']
    rfl
  exact h.ended (List.getElem?_eq_getElem hk) hjob rfl

end Crew.Tends

/-! ### One after the other -/

section Alone

variable {σ : Type} {reply : Work.Replies σ} {view : σ → Store} {manner : Manner}

theorem Work.run_ask {α : Type} {request : Request} {next : request.Reply → Work α} {x x' : σ}
    {answer : request.Reply} (h : reply request x = (.done answer, x')) :
    (Work.ask request next).run reply x = (next answer).run reply x' := by
  rw [Work.run, h]

theorem Work.answered_of_run {α : Type} {request : Request} {next : request.Reply → Work α} {a : α}
    {x x' : σ} (h : (Work.ask request next).run reply x = (.done a, x')) :
    ∃ answer x₁, reply request x = (.done answer, x₁) ∧
      (next answer).run reply x₁ = (.done a, x') := by
  rw [Work.run] at h
  split at h
  · exact ⟨_, _, ‹_›, h⟩
  · cases h
  · cases h

/-- **Surroundings that keep a ledger** and answer in a certain manner.  They may overflow where the
ledger does, and only there. -/
def Work.Replies.Serves (reply : Work.Replies σ) (view : σ → Store) (manner : Manner) : Prop :=
  ∀ request x, (∀ o s', ¬ (view x).Overflows request o s') →
    ∃ answer x', reply request x = (.done answer, x') ∧
      (view x).Replies request answer (view x') ∧ manner request answer

/-- **A worker that is alone with its row comes to an end**, and no other row changes. -/
theorem Work.Tends.run {α : Type} {w : Work α} {r : Record}
    {ends : Option Record → Progress α → Prop} {written? : Option Record} {x : σ}
    (h : w.Tends manner r ends written?) (hserves : reply.Serves view manner)
    (hfind : (view x).find? r.key = some (written?.getD r)) (hopen : r.status.isTerminal = false)
    (hrevisable : r.Revisable) :
    ∃ progress x' written', w.run reply x = (progress, x') ∧ progress ≠ .stalled ∧
      ends written' progress ∧ (view x').find? r.key = some (written'.getD r) ∧
        (view x).SameBut (· = r.key) (view x') := by
  induction w generalizing x written? with
  | done a => exact ⟨.done a, x, written?, rfl, by simp, h, hfind, .refl _ _⟩
  | crash text => exact ⟨.crashed text, x, written?, rfl, by simp, h, hfind, .refl _ _⟩
  | ask request next ih =>
    obtain ⟨habout, hnext⟩ := h
    obtain ⟨answer, x₁, hreply, hreplies, hmanner⟩ :=
      hserves request x fun o s' => habout.not_overflows hrevisable
    obtain ⟨written₁, hgiven, hfind₁, hframe₁⟩ :=
      habout.given hfind hopen hrevisable hreplies hmanner
    obtain ⟨progress, x', written', hrun, hstalled, hends, hfind', hframe⟩ :=
      ih answer (hnext answer written₁ hgiven) hfind₁
    exact ⟨progress, x', written', (Work.run_ask hreply).trans hrun, hstalled, hends, hfind',
      hframe₁.trans hframe⟩

variable {p : Replayer}
  {ends : Record → Option Record → Progress (Except Error Consumer.Outcome) → Prop}

theorem Replayer.run_of_select {batch : Nat} {x x₁ x₂ : σ} {now : Instant} {rows : List Record}
    (hnow : reply .now x = (.done now, x₁))
    (hdue : reply (.due now batch) x₁ = (.done (.ok rows), x₂)) :
    p.run reply batch x =
      ((p.runRows reply p.places false { selected := rows.length } rows x₂).1.map .ok,
        (p.runRows reply p.places false { selected := rows.length } rows x₂).2) := by
  have hselect : (p.select batch).run reply x = (.done (.ok rows), x₂) :=
    (Work.run_ask hnow).trans (Work.run_ask hdue)
  simp only [run, hselect]
  match p.runRows reply p.places false { selected := rows.length } rows x₂ with
  | (.done report, x') | (.crashed text, x') | (.stalled, x') => rfl

/-- **Rows that are treated one after the other.**  Unless one of the replays crashes, all come to
their ends, each leaves its row to those behind it as it left it itself, and the report counts them. -/
theorem Replayer.runRows_tends (hserves : reply.Serves view manner) (places : Nat)
    {rows : List Record} {x : σ} (hholds : (view x).Holds rows)
    (htends : ∀ r ∈ rows, (p.replay r).Tends manner r (ends r) none) (report : ScanReport) :
    (∃ outcomes x', p.runRows reply (places + 1) false report rows x =
          (.done (outcomes.foldl ScanReport.count report), x') ∧
        (view x).Treated ends rows outcomes (view x')) ∨
      ∃ text x' r written?, p.runRows reply (places + 1) false report rows x = (.crashed text, x') ∧
        r ∈ rows ∧ ends r written? (.crashed text) := by
  induction rows generalizing x report with
  | nil =>
    refine .inl ⟨[], x, ?_, .nil, .refl _ _⟩
    rw [runRows]
    rfl
  | cons r rest ih =>
    obtain ⟨progress, x₁, written₁, hrun, hstalled, hends, hfind, hframe₁⟩ :=
      (htends r List.mem_cons_self).run hserves (hholds.found r List.mem_cons_self)
        (hholds.opened List.mem_cons_self) (hholds.revisable r List.mem_cons_self)
    cases progress with
    | stalled => exact absurd rfl hstalled
    | crashed text =>
      refine .inr ⟨text, x₁, r, written₁, ?_, List.mem_cons_self, hends⟩
      rw [runRows, hrun]
    | done outcome =>
      have hstep : p.runRows reply (places + 1) false report (r :: rest) x =
          p.runRows reply (places + 1) false (report.count outcome) rest x₁ := by
        rw [runRows, hrun]
      rw [hstep]
      rcases ih (hholds.tail hframe₁) (fun y hy => htends y (List.mem_cons_of_mem _ hy))
        (report.count outcome) with
        ⟨outcomes, x', hrows, htreated⟩ | ⟨text, x', y, written', hrows, hy, hends'⟩
      · exact .inl ⟨outcome :: outcomes, x', hrows, htreated.cons hholds hends hfind hframe₁⟩
      · exact .inr ⟨text, x', y, written', hrows, List.mem_cons_of_mem _ hy, hends'⟩

end Alone

end EventRelay
