import Mathlib.Data.List.Perm.Basic
import EventRelay.Proofs.Row.Conditions
import EventRelay.Proofs.Row.Reports
import EventRelay.Proofs.Row.Treatment

/-!
# The order of rows does not matter

Under fixed conditions a row ends in company as it would have ended alone on the ledger that the scan
found (`Replayer.tends_alone`).  What is left when all rows have been treated is therefore known from
the start (`Store.Treated.unique`), and neither the order of the rows nor that of the single calls, nor
what becomes of a row's neighbours, makes a difference (`Replayer.rows_independent`).
-/

namespace EventRelay

open Work (Progress)

/-! ### Alone -/

namespace Replayer

/-- **How a replay ends that is alone** with the ledger as the scan found it. -/
structure EndsAlone (p : Replayer) (w : Conditions) (s : Store) (r : Record)
    (written? : Option Record) (progress : Progress (Except Error Consumer.Outcome)) : Prop where
  leaves : p.consumer.Leaves w.Admits r written? progress
  progress : ((p.replay r).run w.reply s).1 = progress
  row : ((p.replay r).run w.reply s).2.find? r.key = some (written?.getD r)

section Alone

variable {p : Replayer} {w : Conditions} {s : Store} {r : Record} {rows : List Record}

/-- **In whatever company, a replay ends as it ends alone.** -/
theorem tends_alone (hholds : s.Holds rows) (hr : r ∈ rows)
    (hkey : r.key = p.consumer.key r.eventId) :
    (p.replay r).Tends w.Admits r (p.EndsAlone w s r) none := by
  have htends : (p.replay r).Tends w.Admits r (p.consumer.Leaves w.Admits r) none :=
    tends_replay (hholds.retrying r hr) hkey
  obtain ⟨written', progress, hexact⟩ := Conditions.tends_exact htends
  obtain ⟨_, s', _, hrun, -, ⟨rfl, rfl, -⟩, hfind, -⟩ :=
    hexact.run (x := s) w.serves (hholds.found r hr) (hholds.opened hr) (hholds.revisable r hr)
  refine hexact.mono fun written₁ progress₁ ⟨hwritten, hprogress, hleaves⟩ => ⟨hleaves, ?_, ?_⟩
  · rw [hrun]
    exact hprogress.symm
  · rw [hrun, hwritten]
    exact hfind

end Alone

end Replayer

/-! ### What is left -/

section Left

variable {p : Replayer} {w : Conditions} {s s₁ s₂ : Store} {rows rows' : List Record}
  {outcomes outcomes' : List (Except Error Consumer.Outcome)}

theorem Store.Treated.outcomes_eq (h : s.Treated (p.EndsAlone w s) rows outcomes s₁) :
    outcomes.map Progress.done = rows.map fun r => ((p.replay r).run w.reply s).1 := by
  have hall := h.each
  clear h
  induction hall with
  | nil => rfl
  | cons hend _ ih =>
    obtain ⟨written?, hends, -⟩ := hend
    rw [List.map_cons, List.map_cons, ih, hends.progress]

theorem Store.Treated.find?_eq (h : s.Treated (p.EndsAlone w s) rows outcomes s₁) {r : Record}
    (hr : r ∈ rows) : s₁.find? r.key = ((p.replay r).run w.reply s).2.find? r.key := by
  obtain ⟨k, hk, rfl⟩ := List.getElem_of_mem hr
  obtain ⟨hlength, hall⟩ := List.forall₂_iff_get.mp h.each
  obtain ⟨written?, hends, hfind⟩ := hall k hk (hlength ▸ hk)
  exact hfind.trans hends.row.symm

/-- **What is left is the same in every order.** -/
theorem Store.Treated.unique (hkeyed : s.Keyed) (hperm : rows.Perm rows')
    (h : s.Treated (p.EndsAlone w s) rows outcomes s₁)
    (h' : s.Treated (p.EndsAlone w s) rows' outcomes' s₂) :
    s₁ = s₂ ∧ outcomes.Perm outcomes' := by
  constructor
  · refine Store.eq_of_find? (h'.frame.keyed hkeyed) (h.frame.keys.trans h'.frame.keys.symm)
      (h.frame.lastId.trans h'.frame.lastId.symm) fun x _ => ?_
    by_cases hx : ∃ r ∈ rows, r.key = x.key
    · obtain ⟨r, hr, hkey⟩ := hx
      rw [← hkey, h.find?_eq hr, h'.find?_eq (hperm.mem_iff.mp hr)]
    · rw [h.frame.find x.key hx, h'.frame.find x.key fun ⟨r, hr, hkey⟩ =>
        hx ⟨r, hperm.mem_iff.mpr hr, hkey⟩]
  · have hdone : Function.Injective (@Progress.done (Except Error Consumer.Outcome)) :=
      fun _ _ hsame => by cases hsame; rfl
    rw [← List.map_perm_map_iff hdone, h.outcomes_eq, h'.outcomes_eq]
    exact hperm.map _

end Left

/-! ### Scans -/

namespace Replayer

/-- The replays of a scan go on under fixed conditions, in any interleaving, and nobody joins. -/
structure Proceeds (p : Replayer) (w : Conditions) (s : Store) (rows : List Record)
    (log : List Entry) (crew : Crew) : Prop where
  run : (p.selected s rows).Run log crew
  alone : ∀ errand, Entry.began errand ∉ log
  governed : w.Governs log

section Scan

variable {p : Replayer} {w : Conditions} {s : Store} {rows : List Record} {log : List Entry}
  {crew : Crew}

theorem Proceeds.tends (h : p.Proceeds w s rows log crew) (hholds : s.Holds rows)
    (hkeys : ∀ r ∈ rows, r.key = p.consumer.key r.eventId) :
    crew.Tends w.Admits (p.EndsAlone w s) s rows :=
  (Crew.Tends.start hholds fun r hr => tends_alone hholds hr (hkeys r hr)).run hholds h.run h.alone
    h.governed

theorem runRows_alone (hholds : s.Holds rows)
    (hkeys : ∀ r ∈ rows, r.key = p.consumer.key r.eventId)
    (hcrash : ∀ r ∈ rows, ∀ text, ((p.replay r).run w.reply s).1 ≠ .crashed text)
    (places : Nat) (report : ScanReport) :
    ∃ outcomes final, p.runRows w.reply (places + 1) false report rows s =
        (.done (outcomes.foldl ScanReport.count report), final) ∧
      s.Treated (p.EndsAlone w s) rows outcomes final := by
  rcases runRows_tends (x := s) w.serves places hholds
    (fun r hr => tends_alone hholds hr (hkeys r hr)) report with
    ⟨outcomes, final, hrows, htreated⟩ | ⟨text, final, r, written?, -, hr, hends⟩
  · exact ⟨outcomes, final, hrows, htreated⟩
  · exact absurd hends.progress (hcrash r hr text)

theorem run_due {now : Instant} {batch : Nat} (hnow : w.answers .now = now)
    (hfault : w.faults (.due now batch) = none) {report : ScanReport} {final : Store}
    (hrows : p.runRows w.reply p.places false { selected := (s.due now batch).length }
      (s.due now batch) s = (.done report, final)) :
    p.run w.reply batch s = (.done (.ok report), final) := by
  have hclock : w.reply .now s = (.done now, s) := by
    unfold Conditions.reply
    rw [show (w.faults .now).bind (Request.refusal? .now) = none by cases w.faults .now <;> rfl,
      ← hnow]
    rfl
  have hdue : w.reply (.due now batch) s = (.done (.ok (s.due now batch)), s) := by
    unfold Conditions.reply
    rw [hfault]
    rfl
  rw [run_of_select hclock hdue, hrows]
  rfl

/-- **A replay crashes alone only where user code panics when it is asked**, if retries are planned by
exponential backoff that does not turn back. -/
theorem not_crashed_alone (hholds : s.Holds rows)
    (hkeys : ∀ r ∈ rows, r.key = p.consumer.key r.eventId) {b : Backoff}
    (hrule : p.consumer.rule = .backoff b) (hmultiplier : ¬ b.multiplier < 0.0)
    (hlimit : ∀ r ∈ rows, r.maxRetryTimes ≤ greatestNat32) (hcalm : w.Calm) :
    ∀ r ∈ rows, ∀ text, ((p.replay r).run w.reply s).1 ≠ .crashed text := by
  intro r hr text hcrashed
  obtain ⟨progress, s', written', hrun, -, hends, -⟩ :=
    (tends_alone hholds hr (hkeys r hr)).run (x := s) w.serves (hholds.found r hr)
      (hholds.opened hr) (hholds.revisable r hr)
  rw [hrun] at hcrashed
  obtain rfl : progress = .crashed text := hcrashed
  exact hcalm.not_panicky (hends.leaves.panicky hrule hmultiplier (hlimit r hr))

end Scan

/-- **The order of the rows does not matter, and neither do neighbours.**  A scan of a ledger whose
selected rows are all of its own group, and can be written, goes on under fixed conditions.  However
the calls of the replays are interleaved, a row whose replay has ended is as it would have been left
by a replay alone on the ledger that was found, which would have ended in the same way; and what was
not selected is as it was.  If no replay would crash alone, the scan comes to a report, and to the same
one with the same ledger in every order of the rows and every interleaving.  Where retries are planned
by exponential backoff, only questions to user code can make a replay crash. -/
theorem rows_independent (p : Replayer) (w : Conditions) (now : Instant) (batch : Nat)
    {calls : List Store.Exchange} {s : Store} (hhistory : Store.History calls s)
    (howner : ∀ r ∈ s.due now batch, r.ownerGroup = p.consumer.config.ownerGroup)
    (hrevisable : ∀ r ∈ s.due now batch, r.Revisable) :
    (∀ log crew, p.Proceeds w s (s.due now batch) log crew →
      (∀ k r job progress, (s.due now batch)[k]? = some r → crew.jobs[k + 1]? = some job →
        job.ended? = some progress →
          ((p.replay r).run w.reply s).1 = progress ∧
          crew.store.find? r.key = ((p.replay r).run w.reply s).2.find? r.key) ∧
      ∀ key, (∀ r ∈ s.due now batch, r.key ≠ key) → crew.store.find? key = s.find? key) ∧
    ((∀ r ∈ s.due now batch, ∀ text, ((p.replay r).run w.reply s).1 ≠ .crashed text) →
      w.answers .now = now → w.faults (.due now batch) = none →
      ∃ report final, p.run w.reply batch s = (.done (.ok report), final) ∧
        (∀ r ∈ s.due now batch, final.find? r.key = ((p.replay r).run w.reply s).2.find? r.key) ∧
        (∀ rows, rows.Perm (s.due now batch) → ∀ places,
          p.runRows w.reply (places + 1) false { selected := rows.length } rows s =
            (.done report, final)) ∧
        ∀ log crew outcomes, p.Proceeds w s (s.due now batch) log crew → crew.Concluded outcomes →
          crew.store = final ∧
            ∀ order : List (Except Error Consumer.Outcome), order.Perm outcomes →
              ScanReport.ofOutcomes order = report) ∧
    ∀ b, p.consumer.rule = .backoff b → ¬ b.multiplier < 0.0 →
      (∀ r ∈ s.due now batch, r.maxRetryTimes ≤ greatestNat32) → w.Calm →
      ∀ r ∈ s.due now batch, ∀ text, ((p.replay r).run w.reply s).1 ≠ .crashed text := by
  have hkeyed := hhistory.keyed
  have hholds := Store.holds_due hkeyed hrevisable
  have hkeys : ∀ r ∈ s.due now batch, r.key = p.consumer.key r.eventId :=
    fun r hr => key_of_due hr (howner r hr)
  refine ⟨fun log crew hproceeds => ?_, fun hcrash hnow hfault => ?_,
    fun b hrule hmultiplier hlimit hcalm =>
      not_crashed_alone hholds hkeys hrule hmultiplier hlimit hcalm⟩
  · have htends := hproceeds.tends hholds hkeys
    refine ⟨fun k r job progress hr hjob hended => ?_, fun key hkey => ?_⟩
    · obtain ⟨written?, hends, hfind⟩ := htends.ended hr hjob hended
      exact ⟨hends.progress, hfind.trans hends.row.symm⟩
    · exact htends.frame.find key fun ⟨r, hr, hsame⟩ => hkey r hr hsame
  · obtain ⟨places, hplaces⟩ := p.exists_places
    obtain ⟨outcomes, final, hrows, htreated⟩ := runRows_alone hholds hkeys hcrash places
      { selected := (s.due now batch).length }
    rw [← hplaces] at hrows
    refine ⟨_, final, run_due hnow hfault hrows, fun r hr => htreated.find?_eq hr,
      fun rows hperm places => ?_, fun log crew outcomes' hproceeds hconcluded => ?_⟩
    · obtain ⟨outcomes', final', hrows', htreated'⟩ := runRows_alone (hholds.perm hperm)
        (fun r hr => hkeys r (hperm.mem_iff.mp hr)) (fun r hr => hcrash r (hperm.mem_iff.mp hr))
        places { selected := rows.length }
      obtain ⟨rfl, houtcomes⟩ := htreated.unique hkeyed hperm.symm htreated'
      rw [hrows', ScanReport.foldl_count_perm houtcomes, hperm.length_eq]
    · obtain ⟨hfinal, houtcomes⟩ := htreated.unique hkeyed (.refl _)
        ((hproceeds.tends hholds hkeys).finished hconcluded)
      refine ⟨hfinal.symm, fun order horder => ?_⟩
      rw [ScanReport.ofOutcomes, ScanReport.foldl_count_perm (horder.trans houtcomes.symm),
        (horder.trans houtcomes.symm).length_eq, htreated.each.length_eq]

end Replayer

namespace Crew

def jammed : Conditions :=
  unlucky fun
    | .update r => if r.eventId = "f" then some (.invalidState "jammed") else none
    | _ => none

/-- A row whose calls fail costs its neighbour nothing, whichever is treated first. -/
theorem rows_independent_jammed :
    ∃ report final, carrier.run jammed.reply 2 trio = (.done (.ok report), final) ∧
      carrier.runRows jammed.reply 1 false { selected := 2 } [hollowRow, dueRow] trio =
        (.done report, final) ∧
      (final.find? dueRow.key).map (·.retryTimes) = some 1 ∧
      final.find? hollowRow.key = some hollowRow := by
  obtain ⟨calls, hhistory⟩ := history_trio
  obtain ⟨-, hscan, hcrash⟩ := Replayer.rows_independent carrier jammed default 2
    hhistory (by rw [due_trio]; decide) (by rw [due_trio]; decide)
  obtain ⟨report, final, hrun, halone, horder, -⟩ := hscan
    (hcrash _ rfl (by decide) (by rw [due_trio]; decide) (calm_unlucky _)) rfl rfl
  rw [due_trio] at halone horder
  refine ⟨report, final, hrun, horder [hollowRow, dueRow] (.swap _ _ _) 0, ?_, ?_⟩
  · rw [halone dueRow List.mem_cons_self]
    decide +kernel
  · rw [halone hollowRow (List.mem_cons_of_mem _ List.mem_cons_self)]
    decide

end Crew

end EventRelay
