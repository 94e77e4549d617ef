import Mathlib.Data.List.Nodup
import EventRelay.Proofs.Ledger.History

/-!
# The keys of a ledger

No two rows of a ledger have the same key, however it was used.  Creating a row gives back the row
that is there, an update leaves each row under its key, and filing a row away displaces what stands
under the new key.
-/

namespace EventRelay.Store

variable {s s' : Store} {r : Record}

/-- Whether no two rows have the same key. -/
def Keyed (s : Store) : Prop :=
  (s.rows.map Record.key).Nodup

theorem keyed_empty : Store.empty.Keyed := List.nodup_nil

theorem Keyed.eq_of_key (h : s.Keyed) {x y : Record} (hx : x ∈ s.rows) (hy : y ∈ s.rows)
    (hkey : x.key = y.key) : x = y :=
  List.inj_on_of_nodup_map h hx hy hkey

theorem Keyed.find? (h : s.Keyed) (hr : r ∈ s.rows) : s.find? r.key = some r := by
  cases hfind : s.find? r.key with
  | none => exact absurd rfl (find?_eq_none_iff.mp hfind r hr)
  | some other => exact congrArg some (h.eq_of_key (mem_of_find? hfind) hr (key_of_find? hfind))

theorem Keyed.mem_iff (h : s.Keyed) : r ∈ s.rows ↔ s.find? r.key = some r :=
  ⟨h.find?, mem_of_find?⟩

theorem map_key_replace (s : Store) (r : Record) :
    (s.replace r).rows.map Record.key = s.rows.map Record.key := by
  show (s.rows.map _).map Record.key = _
  rw [List.map_map]
  refine List.map_congr_left fun old _ => ?_
  show (if old.key = r.key then r else old).key = old.key
  split
  · exact (‹old.key = r.key›).symm
  · rfl

theorem Keyed.replace (h : s.Keyed) (r : Record) : (s.replace r).Keyed := by
  unfold Keyed
  rw [map_key_replace]
  exact h

theorem Keyed.concat (h : s.Keyed) (hfree : ∀ x ∈ s.rows, x.key ≠ r.key) (last : Int) :
    (Store.mk (s.rows ++ [r]) last).Keyed := by
  show ((s.rows ++ [r]).map Record.key).Nodup
  rw [List.map_append, List.map_singleton, ← List.concat_eq_append]
  refine List.Nodup.concat ?_ h
  intro hmem
  obtain ⟨x, hx, hkey⟩ := List.mem_map.mp hmem
  exact hfree x hx hkey

theorem Keyed.erase (h : s.Keyed) (key : Key) : (s.erase key).Keyed :=
  h.sublist (List.filter_sublist.map _)

theorem Keyed.refile (h : s.Keyed) (old new : Record) : (s.refile old new).Keyed :=
  ((h.erase old.key).erase new.key).concat (fun _ hx => (mem_erase.mp hx).2) s.lastId

theorem Keyed.split (h : s.Keyed) {x : Record} (hx : x ∈ s.rows) :
    ∃ l₁ l₂, s.rows = l₁ ++ x :: l₂ ∧ ∀ z ∈ l₁ ++ l₂, z.key ≠ x.key := by
  obtain ⟨l₁, l₂, hrows⟩ := List.append_of_mem hx
  refine ⟨l₁, l₂, hrows, fun z hz hkey => ?_⟩
  have hperm : s.rows.Perm (x :: (l₁ ++ l₂)) := by rw [hrows]; exact List.perm_middle
  have hkeys := (List.nodup_cons.mp ((hperm.map Record.key).nodup_iff.mp h)).1
  exact hkeys (List.mem_map.mpr ⟨z, hz, hkey⟩)

theorem Keyed.perm_replace (h : s.Keyed) {x y : Record} (hx : x ∈ s.rows) (hkey : y.key = x.key) :
    ∃ rest, s.rows.Perm (x :: rest) ∧ (s.replace y).rows.Perm (y :: rest) ∧
      ∀ z ∈ rest, z.key ≠ y.key := by
  obtain ⟨l₁, l₂, hrows, hothers⟩ := h.split hx
  have hsame : ∀ l : List Record, (∀ z ∈ l, z ∈ l₁ ++ l₂) →
      l.map (fun old => if old.key = y.key then y else old) = l := by
    intro l hl
    conv_rhs => rw [← List.map_id l]
    refine List.map_congr_left fun z hz => ?_
    rw [if_neg (by rw [hkey]; exact hothers z (hl z hz)), id]
  refine ⟨l₁ ++ l₂, by rw [hrows]; exact List.perm_middle, ?_, ?_⟩
  · show (s.rows.map _).Perm _
    rw [hrows, List.map_append, List.map_cons, if_pos hkey.symm,
      hsame l₁ fun z hz => List.mem_append_left _ hz,
      hsame l₂ fun z hz => List.mem_append_right _ hz]
    exact List.perm_middle
  · intro z hz
    rw [hkey]
    exact hothers z hz

theorem Keyed.perm_refile (h : s.Keyed) {x y : Record} (hx : x ∈ s.rows)
    (hfree : ∀ z ∈ s.rows, z.key ≠ x.key → z.key ≠ y.key) :
    ∃ rest, s.rows.Perm (x :: rest) ∧ (s.refile x y).rows.Perm (y :: rest) ∧
      ∀ z ∈ rest, z.key ≠ y.key := by
  obtain ⟨l₁, l₂, hrows, hothers⟩ := h.split hx
  have hmem : ∀ z ∈ l₁ ++ l₂, z ∈ s.rows := by
    intro z hz
    rw [hrows, List.mem_append, List.mem_cons]
    rcases List.mem_append.mp hz with hz | hz
    · exact .inl hz
    · exact .inr (.inr hz)
  have hrest : ∀ z ∈ l₁ ++ l₂, z.key ≠ y.key := fun z hz => hfree z (hmem z hz) (hothers z hz)
  have hkeep : ∀ key : Key, ∀ l : List Record, (∀ z ∈ l, z.key ≠ key) →
      l.filter (fun r => r.key ≠ key) = l :=
    fun key l hl => List.filter_eq_self.mpr fun z hz => decide_eq_true (hl z hz)
  have hxgone : (l₁ ++ x :: l₂).filter (fun r => r.key ≠ x.key) = l₁ ++ l₂ := by
    rw [List.filter_append, List.filter_cons_of_neg (by simp), ← List.filter_append]
    exact hkeep _ _ hothers
  refine ⟨l₁ ++ l₂, by rw [hrows]; exact List.perm_middle, ?_, hrest⟩
  show (((s.rows.filter _).filter _) ++ [y]).Perm _
  rw [hrows, hxgone, hkeep _ _ hrest]
  exact List.perm_append_singleton y _

theorem Keyed.due (h : s.Keyed) (now : Instant) (limit : Nat) :
    ((s.due now limit).map Record.key).Nodup := by
  have hfiltered : ((s.rows.filter (·.isDue now)).map Record.key).Nodup :=
    List.Nodup.sublist (List.filter_sublist.map _) h
  have hsorted : (((s.rows.filter (·.isDue now)).mergeSort precedes).map Record.key).Nodup :=
    ((List.mergeSort_perm _ _).map _).nodup_iff.mpr hfiltered
  exact hsorted.sublist ((List.take_sublist _ _).map _)

theorem Keyed.performs {response : Response} {c : Call} (h : s.Keyed)
    (hcall : s.Performs c response s') : s'.Keyed := by
  cases hcall with
  | found | selected | existing | refused | overflowed | kept => exact h
  | @created r hfree =>
    exact h.concat (r := { r with id := s.lastId + 1 }) (find?_eq_none_iff.mp hfree) _
  | updated hfind hversion hopen => exact h.replace _
  | deleted hfind hversion => exact h.refile _ _
  | lost hfind hrange => exact h.erase _

/-- **However a ledger was used, no two of its rows have the same key.** -/
theorem History.keyed {log : List Exchange} (h : History log s) : s.Keyed := by
  induction h with
  | empty => exact keyed_empty
  | @call log s prior c ih => exact ih.performs (s.performs c)

end EventRelay.Store
