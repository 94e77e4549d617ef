import EventRelay.Proofs.Row.Company

/-!
# What a report counts

A report has one number for each way in which the replay of a row may end (`ScanReport.Column`).  Each
of them is the number of the outcomes that belong to it (`ScanReport.entry_ofOutcomes`), whatever their
order (`ScanReport.foldl_count_perm`), and together they account for all rows
(`ScanReport.total_ofOutcomes`).

An outcome says what its row was stored as, if it was stored.  So a report may be held against the
ledger that a scan has left (`ScanReport.TellsOf`).
-/

namespace EventRelay.ScanReport

inductive Column where
  | succeeded
  | rescheduled
  | failed
  | skipped
  | errors
  deriving DecidableEq

namespace Column

/-- The number in which an outcome counts.  What no handler takes has failed for good, and what
somebody else has handled, or has taken over, was skipped. -/
def of : Except Error Consumer.Outcome → Column
  | .ok .succeeded => succeeded
  | .ok (.rescheduled _ _) => rescheduled
  | .ok .failed | .ok .unhandled => failed
  | .ok (.skipped _) | .ok .missing | .ok .conflict => skipped
  | .error _ => errors

/-- The status of a row that was stored with an outcome that counts there. -/
def status? : Column → Option Status
  | succeeded => some .success
  | rescheduled => some .retrying
  | failed => some .failed
  | skipped | errors => none

theorem status?_eq_iff {a b : Column} (h : a.status?.isSome = true) :
    a.status? = b.status? ↔ a = b := by
  cases a with
  | skipped | errors => cases h
  | succeeded | rescheduled | failed => cases b <;> decide

end Column

def entry (report : ScanReport) : Column → Nat
  | .succeeded => report.succeeded
  | .rescheduled => report.rescheduled
  | .failed => report.failed
  | .skipped => report.skipped
  | .errors => report.errors

/-- The rows that a report has counted. -/
def total (report : ScanReport) : Nat :=
  report.succeeded + report.rescheduled + report.failed + report.skipped + report.errors

theorem eq_of_entries {a b : ScanReport} (hselected : a.selected = b.selected)
    (hentries : ∀ column, a.entry column = b.entry column) : a = b := by
  cases a
  cases b
  exact (ScanReport.mk.injEq ..).mpr ⟨hselected, hentries .succeeded, hentries .rescheduled,
    hentries .failed, hentries .skipped, hentries .errors⟩

/-! ### Counting -/

section Counting

variable {outcomes outcomes' : List (Except Error Consumer.Outcome)}

theorem entry_count (report : ScanReport) (outcome : Except Error Consumer.Outcome)
    (column : Column) :
    (report.count outcome).entry column =
      report.entry column + if Column.of outcome = column then 1 else 0 := by
  rcases outcome with _ | (_ | _ | _ | _ | _ | _ | _) <;> cases column <;> rfl

theorem selected_count (report : ScanReport) (outcome : Except Error Consumer.Outcome) :
    (report.count outcome).selected = report.selected := by
  rcases outcome with _ | (_ | _ | _ | _ | _ | _ | _) <;> rfl

theorem entry_foldl_count (outcomes : List (Except Error Consumer.Outcome)) (report : ScanReport)
    (column : Column) :
    (outcomes.foldl count report).entry column =
      report.entry column + outcomes.countP (Column.of · = column) := by
  induction outcomes generalizing report with
  | nil => rfl
  | cons outcome rest ih =>
    rw [List.foldl_cons, ih, entry_count, List.countP_cons]
    simp only [decide_eq_true_eq]
    omega

theorem selected_foldl_count (outcomes : List (Except Error Consumer.Outcome))
    (report : ScanReport) : (outcomes.foldl count report).selected = report.selected := by
  induction outcomes generalizing report with
  | nil => rfl
  | cons outcome rest ih => exact (ih _).trans (report.selected_count outcome)

/-- **Outcomes may be counted in any order.** -/
theorem foldl_count_perm (h : outcomes.Perm outcomes') (report : ScanReport) :
    outcomes.foldl count report = outcomes'.foldl count report := by
  refine eq_of_entries ?_ fun column => ?_
  · rw [selected_foldl_count, selected_foldl_count]
  · rw [entry_foldl_count, entry_foldl_count, h.countP_eq]

theorem selected_ofOutcomes : (ofOutcomes outcomes).selected = outcomes.length :=
  selected_foldl_count outcomes _

/-- **Each number of a report counts the outcomes that belong to it.** -/
theorem entry_ofOutcomes (column : Column) :
    (ofOutcomes outcomes).entry column = outcomes.countP (Column.of · = column) := by
  rw [ofOutcomes, entry_foldl_count]
  cases column <;> exact Nat.zero_add _

/-- **Each row is counted once.** -/
theorem total_ofOutcomes : (ofOutcomes outcomes).total = outcomes.length := by
  have hentry := @entry_ofOutcomes outcomes
  have htotal : (ofOutcomes outcomes).total = outcomes.countP (Column.of · = .succeeded) +
      outcomes.countP (Column.of · = .rescheduled) + outcomes.countP (Column.of · = .failed) +
      outcomes.countP (Column.of · = .skipped) + outcomes.countP (Column.of · = .errors) := by
    rw [← hentry, ← hentry, ← hentry, ← hentry, ← hentry]
    rfl
  rw [htotal]
  clear hentry htotal
  induction outcomes with
  | nil => rfl
  | cons outcome rest ih =>
    simp only [List.countP_cons, decide_eq_true_eq, List.length_cons]
    cases Column.of outcome <;> simp only [reduceCtorEq, if_true, if_false] <;> omega

end Counting

/-! ### Reports and rows -/

/-- **A report tells what has become of rows**: each of its numbers is that of the rows which are
stored with the status that belongs to it. -/
def TellsOf (report : ScanReport) (s : Store) (rows : List Record) : Prop :=
  ∀ column, report.entry column =
    rows.countP fun r => (s.find? r.key).map Record.status = column.status?

variable {s : Store} {rows : List Record} {outcomes : List (Except Error Consumer.Outcome)}

theorem TellsOf.of_forall₂
    (h : List.Forall₂ (fun r outcome => ∃ status, (s.find? r.key).map Record.status = some status ∧
      (Column.of outcome).status? = some status) rows outcomes) :
    (ofOutcomes outcomes).TellsOf s rows := by
  intro column
  rw [entry_ofOutcomes]
  induction h with
  | nil => rfl
  | cons hstored _ ih =>
    obtain ⟨status, hstored, hcolumn⟩ := hstored
    have hsome : (Column.of _).status?.isSome = true := Option.isSome_of_eq_some hcolumn
    rw [List.countP_cons, List.countP_cons, ih, hstored, ← hcolumn]
    simp only [decide_eq_true_eq, Column.status?_eq_iff hsome]

theorem TellsOf.none_left {report : ScanReport} (h : report.TellsOf s rows)
    (hfound : ∀ r ∈ rows, ∃ next, s.find? r.key = some next) :
    report.skipped = 0 ∧ report.errors = 0 := by
  have hnone : (rows.countP fun r => (s.find? r.key).map Record.status = none) = 0 := by
    refine List.countP_eq_zero.mpr fun r hr => ?_
    obtain ⟨next, hnext⟩ := hfound r hr
    simp [hnext]
  exact ⟨(h .skipped).trans hnone, (h .errors).trans hnone⟩

end EventRelay.ScanReport
