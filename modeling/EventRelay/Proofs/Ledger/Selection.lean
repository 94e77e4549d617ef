import Mathlib.Data.List.Sort
import EventRelay.Proofs.Ledger.Rows

/-!
# The selection of due rows

Rows are retried in the order of `Record.Before`: by fewest retries, then oldest, then lowest number.
The comparison by which a ledger sorts its due rows is the negation of that order turned round
(`Store.precedes_iff`), and decides between any two rows that have different numbers
(`Store.before_of_precedes`).  So a selection is the first part of one list that the rows determine
alone (`Store.due_first_in_order`).
-/

namespace EventRelay

/-! ### The order -/

def Record.Before (a b : Record) : Prop :=
  a.retryTimes < b.retryTimes ∨ a.retryTimes = b.retryTimes ∧
    (a.createTime < b.createTime ∨ a.createTime = b.createTime ∧ a.id < b.id)

theorem Instant.lt_iff {a b : Instant} :
    a < b ↔ a.second < b.second ∨ a.second = b.second ∧ a.fraction < b.fraction := Iff.rfl

theorem Instant.eq_iff {a b : Instant} :
    a = b ↔ a.second = b.second ∧ a.fraction = b.fraction := by
  cases a
  cases b
  simp

namespace Record

variable {a b c : Record}

theorem Before.irrefl (a : Record) : ¬ a.Before a := by
  simp only [Before, Instant.lt_iff]
  omega

theorem Before.trans (hab : a.Before b) (hbc : b.Before c) : a.Before c := by
  simp only [Before, Instant.lt_iff, Instant.eq_iff] at *
  omega

theorem Before.asymm (h : a.Before b) : ¬ b.Before a :=
  fun hba => Before.irrefl a (h.trans hba)

theorem Before.of_not (hid : a.id ≠ b.id) (h : ¬ b.Before a) : a.Before b := by
  simp only [Before, Instant.lt_iff, Instant.eq_iff] at *
  omega

theorem Before.between (h : a.Before c) (b : Record) : a.Before b ∨ b.Before c := by
  simp only [Before, Instant.lt_iff, Instant.eq_iff] at *
  omega

end Record

namespace Store

/-! ### The comparison -/

theorem precedes_iff {a b : Record} : precedes a b = true ↔ ¬ b.Before a := by
  unfold precedes Record.Before
  simp only [ne_eq, Instant.lt_iff, Instant.eq_iff]
  split
  · rw [decide_eq_true_eq]
    omega
  · split <;> rw [decide_eq_true_eq] <;> omega

theorem before_of_precedes {a b : Record} (hid : a.id ≠ b.id) (h : precedes a b = true) :
    a.Before b :=
  .of_not hid (precedes_iff.mp h)

theorem precedes_trans (a b c : Record) (hab : precedes a b = true) (hbc : precedes b c = true) :
    precedes a c = true := by
  rw [precedes_iff] at *
  intro hca
  rcases hca.between b with hcb | hba
  · exact hbc hcb
  · exact hab hba

theorem precedes_total (a b : Record) : (precedes a b || precedes b a) = true := by
  rw [Bool.or_eq_true, precedes_iff, precedes_iff]
  by_cases h : b.Before a
  · exact .inr h.asymm
  · exact .inl h

/-! ### All due rows in order -/

def dueInOrder (s : Store) (now : Instant) : List Record :=
  (s.rows.filter (·.isDue now)).mergeSort precedes

section Order

variable {s : Store}

theorem due_eq_take (s : Store) (now : Instant) (limit : Nat) :
    s.due now limit = (s.dueInOrder now).take limit := rfl

theorem perm_dueInOrder (s : Store) (now : Instant) :
    (s.dueInOrder now).Perm (s.rows.filter (·.isDue now)) :=
  List.mergeSort_perm _ _

theorem length_dueInOrder (s : Store) (now : Instant) :
    (s.dueInOrder now).length = s.rows.countP (·.isDue now) := by
  rw [(s.perm_dueInOrder now).length_eq, List.countP_eq_length_filter]

theorem mem_dueInOrder {now : Instant} {r : Record} :
    r ∈ s.dueInOrder now ↔ r ∈ s.rows ∧ r.isDue now = true := by
  rw [(s.perm_dueInOrder now).mem_iff, List.mem_filter]

/-- **Due rows with different numbers are in strict order.** -/
theorem pairwise_dueInOrder (hids : (s.rows.map (·.id)).Nodup) (now : Instant) :
    (s.dueInOrder now).Pairwise Record.Before := by
  have hdistinct : ((s.dueInOrder now).map (·.id)).Nodup := by
    rw [((s.perm_dueInOrder now).map _).nodup_iff]
    exact hids.sublist (List.filter_sublist.map _)
  have hsorted : (s.dueInOrder now).Pairwise fun a b => precedes a b = true :=
    List.pairwise_mergeSort precedes_trans precedes_total _
  have hboth := hsorted.and (List.pairwise_map.mp hdistinct)
  exact hboth.imp fun ⟨hprecedes, hid⟩ => before_of_precedes hid hprecedes

theorem dueInOrder_of_perm (hids : (s.rows.map (·.id)).Nodup) {rows : List Record}
    (hperm : rows.Perm s.rows) (last : Int) (now : Instant) :
    (Store.mk rows last).dueInOrder now = s.dueInOrder now := by
  have hids' : (rows.map (·.id)).Nodup := (hperm.map _).nodup_iff.mpr hids
  have hdue : ((Store.mk rows last).dueInOrder now).Perm (s.dueInOrder now) :=
    ((perm_dueInOrder _ now).trans (hperm.filter _)).trans (s.perm_dueInOrder now).symm
  exact List.Perm.eq_of_pairwise (fun a b _ _ hab hba => absurd hba hab.asymm)
    (pairwise_dueInOrder (s := ⟨rows, last⟩) hids' now) (pairwise_dueInOrder hids now) hdue

end Order

/-! ### Selections -/

/-- **A selection is the first part of the due rows in order.**  In a ledger whose rows have distinct
numbers, as many rows are selected as are due and wanted, all of them different rows of the ledger that
are due.  They are in strict order, and each due row that is left out comes after each row that is
selected.  The order in which the ledger keeps its rows makes no difference, and who asks for more rows
gets the same ones first. -/
theorem due_first_in_order {s : Store} (hids : (s.rows.map (·.id)).Nodup) (now : Instant)
    (limit : Nat) :
    (s.due now limit).length = min limit (s.rows.countP (·.isDue now)) ∧
    (s.due now limit).Nodup ∧
    (∀ r ∈ s.due now limit, r ∈ s.rows ∧ r.isDue now = true) ∧
    (s.due now limit).Pairwise Record.Before ∧
    (∀ r ∈ s.rows, r.isDue now = true → r ∉ s.due now limit →
      ∀ selected ∈ s.due now limit, selected.Before r) ∧
    (∀ rows last, rows.Perm s.rows → (Store.mk rows last).due now limit = s.due now limit) ∧
    ∀ more, limit ≤ more → s.due now limit <+: s.due now more := by
  have hsorted := pairwise_dueInOrder hids now
  have hfirst : (s.due now limit).Pairwise Record.Before := hsorted.take
  refine ⟨?_, ?_, fun r hr => mem_due hr, hfirst, ?_, ?_, ?_⟩
  · rw [due_eq_take, List.length_take, length_dueInOrder]
  · refine hfirst.imp ?_
    rintro a _ hab rfl
    exact Record.Before.irrefl a hab
  · intro r hr hdue hout selected hselected
    have hsplit := (s.dueInOrder now).take_append_drop limit
    have hmem := mem_dueInOrder.mpr ⟨hr, hdue⟩
    rw [← hsplit] at hmem hsorted
    have hrest := (List.mem_append.mp hmem).resolve_left hout
    exact (List.pairwise_append.mp hsorted).2.2 selected hselected r hrest
  · intro rows last hperm
    rw [due_eq_take, due_eq_take, dueInOrder_of_perm hids hperm]
  · exact fun more hle => List.take_prefix_take_left hle

def waiting (id : Int) (createTime : Instant) : Record where
  id := id
  eventId := "e"
  action := .consume
  ownerGroup := "g"
  ownerName := "n"
  eventType := "t"
  status := .retrying
  payload := none
  message := none
  retryTimes := 0
  maxRetryTimes := 3
  nextRetryTime := some default
  version := 0
  deleteMarker := 0
  createTime := createTime
  updateTime := default

/-- Of rows that are as old as each other the one with the lower number is selected, wherever it is
kept, and a row that has been retried more often is left out. -/
theorem due_first_in_order_tied :
    let tired := { waiting 1 ⟨0, 0⟩ with retryTimes := 1 }
    let s : Store := ⟨[tired, waiting 3 ⟨0, 5⟩, waiting 2 ⟨0, 5⟩], 3⟩
    (s.rows.map (·.id)).Nodup ∧ (s.due default 2).length = 2 ∧
      (s.due default 2).Pairwise Record.Before ∧
      (Store.mk [waiting 2 ⟨0, 5⟩, waiting 3 ⟨0, 5⟩, tired] 3).due default 2 = s.due default 2 ∧
      (tired ∉ s.due default 2 → ∀ r ∈ s.due default 2, r.Before tired) := by
  intro tired s
  have hids : (s.rows.map (·.id)).Nodup := by decide
  obtain ⟨hlength, -, -, hsorted, hleft, hkept, -⟩ := due_first_in_order hids default 2
  refine ⟨hids, hlength, hsorted, hkept _ _ ?_, hleft tired (by decide) (by decide)⟩
  decide

end Store

end EventRelay
