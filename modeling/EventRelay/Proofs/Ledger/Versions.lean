import EventRelay.Proofs.Ledger.Copies
import Mathlib.Data.List.Induction

/-!
# Versions under an active key

An accepted change names the version of the row under its key, and an accepted copy leaves the next
one there.  So the versions that are named under a key rise until the key is deleted, and of all
the changes that were made from one version one at most is accepted (`Rising`).  A row that is
deleted goes to a key with a marker, so that nothing comes under an active key but a row that is
created there (`Performs.find?_of_ne`).

`compare_and_swap` says this of every history, whatever records its callers sent: stale ones, made
up ones, and the same one again and again.
-/

namespace EventRelay.Store

/-! ### What a call was about -/

namespace Exchange

def after (x : Exchange) : Store :=
  (x.before.perform x.call).2

/-- The key under which a call may change something. -/
def key? (x : Exchange) : Option Key :=
  match x.call with
  | .create r | .update r | .tombstone r _ => some r.key
  | .find _ | .due _ _ => none

/-- Whether a call gave back rows that were there, or was refused. -/
def idle (x : Exchange) : Bool :=
  match x.response with
  | .rows _ | .creation (.existing _) | .changed (.ok false) => true
  | .creation (.created _) | .changed _ => false

/-- The version under a key from which an accepted change was made. -/
def takes? (x : Exchange) (key : Key) : Option Int :=
  match x.written? with
  | some r => if x.accepted ∧ r.key = key then some r.version else none
  | none => none

theorem takes?_eq_some {x : Exchange} {key : Key} {v : Int} :
    x.takes? key = some v ↔
      ∃ r, x.written? = some r ∧ x.accepted = true ∧ r.key = key ∧ r.version = v := by
  unfold takes?
  cases x.written? with
  | none => simp
  | some r => simp [and_assoc]

theorem key?_of_takes? {x : Exchange} {key : Key} {v : Int} (h : x.takes? key = some v) :
    x.key? = some key := by
  obtain ⟨r, hwritten, -, rfl, -⟩ := takes?_eq_some.mp h
  unfold written? at hwritten
  unfold key?
  split at hwritten
  · rename_i hcall
    rw [hcall]
    exact congrArg (Option.map Record.key) hwritten
  · rename_i hcall
    rw [hcall]
    exact congrArg (Option.map Record.key) hwritten
  · cases hwritten

end Exchange

/-! ### What a call leaves -/

namespace Performs

variable {s s' : Store} {c : Call} {response : Response} {key : Key} {row : Record}

theorem eq_of_idle (h : s.Performs c response s')
    (hidle : (Exchange.mk s c response).idle = true) : s' = s := by
  cases h with
  | found | selected | existing | refused | kept | overflowed => rfl
  | created | updated | deleted | lost => cases hidle

/-- **The frame.**  What is found under an active key changes by no call but those that name it. -/
theorem find?_of_ne (h : s.Performs c response s') (hactive : key.deleteMarker = 0)
    (hother : (Exchange.mk s c response).key? ≠ some key) : s'.find? key = s.find? key := by
  cases h with
  | found | selected | existing | refused | overflowed | kept => rfl
  | @created r hfree =>
    have hkey : ({ r with id := s.lastId + 1 } : Record).key ≠ key :=
      fun hkey => hother (congrArg some hkey)
    rw [find?_append, if_neg hkey, Option.or_none]
  | @updated r stored hfind hversion hopen =>
    have hkey : r.revised.key ≠ key := fun hkey => hother (congrArg some hkey)
    exact find?_replace_of_ne hkey
  | @deleted r stored now hfind hversion =>
    have hkey : stored.key ≠ key := by
      rw [key_of_find? hfind]
      exact fun hkey => hother (congrArg some hkey)
    have hmarked := stored.key_deleted_ne now hactive
    rw [find?_refile, if_neg hmarked, if_neg hkey]
  | @lost r stored now o hfind hrange =>
    have hkey : r.key ≠ key := fun hkey => hother (congrArg some hkey)
    rw [find?_erase, if_neg hkey]

theorem find?_of_accepted {r : Record} (h : s.Performs (.update r) response s')
    (haccepted : (Exchange.mk s (.update r) response).accepted = true) :
    ∃ stored, s.find? r.key = some stored ∧ stored.version = r.version ∧
      s'.find? r.key = some r.revised := by
  cases h with
  | updated hfind hversion hopen => exact ⟨_, hfind, hversion, find?_replace_of_eq hfind rfl⟩
  | refused | overflowed => cases haccepted

theorem find?_of_terminal {r : Record} (h : s.Performs (.update r) response s')
    (hfind : s.find? key = some row) (hterminal : row.status.isTerminal = true) :
    s'.find? key = some row := by
  cases h with
  | @updated r stored hstored hversion hopen =>
    by_cases hkey : r.key = key
    · rw [hkey, hfind] at hstored
      rw [← Option.some.inj hstored, hterminal] at hopen
      cases hopen
    · have hother : r.revised.key ≠ key := hkey
      rw [find?_replace_of_ne hother]
      exact hfind
  | refused | overflowed => exact hfind

/-- **A row that is not deleted keeps its version or gets the next one.**  It gets the next one when
a change is accepted, and that change was made from the version it had. -/
theorem version_of_kept (h : s.Performs c response s') (hactive : key.deleteMarker = 0)
    (hfind : s.find? key = some row) (hrevisable : row.Revisable)
    (hkept : (Exchange.mk s c response).deletes key = false) :
    ∃ row', s'.find? key = some row' ∧ row.version ≤ row'.version ∧
      ∀ v, (Exchange.mk s c response).takes? key = some v → v < row'.version := by
  by_cases hkey : (Exchange.mk s c response).key? = some key
  · cases h with
    | found | selected => cases hkey
    | existing => exact ⟨row, hfind, Int.le_refl _, nofun⟩
    | created hfree =>
      rw [Option.some.inj hkey, hfind] at hfree
      cases hfree
    | @updated r stored hstored hversion hopen =>
      obtain rfl : r.key = key := Option.some.inj hkey
      obtain rfl : row = stored := Option.some.inj (hfind.symm.trans hstored)
      have hnext : row.version < r.revised.version := by
        rw [Record.version_revised]
        omega
      refine ⟨r.revised, find?_replace_of_eq hstored rfl, Int.le_of_lt hnext, fun v htakes => ?_⟩
      obtain ⟨r', hwritten, -, -, rfl⟩ := Exchange.takes?_eq_some.mp htakes
      obtain rfl := Option.some.inj hwritten
      omega
    | refused | overflowed | kept =>
      refine ⟨row, hfind, Int.le_refl _, fun v htakes => ?_⟩
      obtain ⟨-, -, haccepted, -⟩ := Exchange.takes?_eq_some.mp htakes
      cases haccepted
    | deleted =>
      have hdeletes := of_decide_eq_false hkept
      exact absurd (Option.some.inj hkey) hdeletes
    | @lost r stored now o hstored hrange =>
      obtain rfl : r.key = key := Option.some.inj hkey
      obtain rfl : row = stored := Option.some.inj (hfind.symm.trans hstored)
      have hlow := hrevisable.1
      have hhigh := hrevisable.2
      omega
  · refine ⟨row, ?_, Int.le_refl _, fun v htakes => absurd (Exchange.key?_of_takes? htakes) hkey⟩
    rw [h.find?_of_ne hactive hkey]
    exact hfind

end Performs

/-! ### Histories, cut -/

section Cut

variable {log rest : List Exchange} {x : Exchange} {s : Store}

theorem History.of_concat (h : History (log ++ [x]) s) :
    ∃ prior c, History log prior ∧ x = prior.exchange c ∧ s = (prior.perform c).2 := by
  generalize hwhole : log ++ [x] = whole at h
  cases h with
  | empty => simp at hwhole
  | @call log' prior h' c =>
    obtain ⟨rfl, hx⟩ := List.append_inj' hwhole rfl
    obtain rfl := List.singleton_inj.mp hx
    exact ⟨prior, c, h', rfl, rfl⟩

theorem History.front (h : History (log ++ rest) s) : ∃ prior, History log prior := by
  induction rest using List.reverseRecOn generalizing s with
  | nil =>
    rw [List.append_nil] at h
    exact ⟨s, h⟩
  | append_singleton rest x ih =>
    rw [← List.append_assoc] at h
    obtain ⟨prior, -, hprior, -⟩ := h.of_concat
    exact ih hprior

theorem History.exchange_of_mem (h : History log s) (hx : x ∈ log) :
    x = x.before.exchange x.call := by
  obtain ⟨before, after, rfl⟩ := List.append_of_mem hx
  rw [List.append_cons] at h
  obtain ⟨_, hfront⟩ := h.front
  obtain ⟨prior, c, -, rfl, -⟩ := hfront.of_concat
  rfl

end Cut

/-! ### Versions rise -/

/-- The versions that were taken under a key: they rise, and the row that is found there has left
them behind. -/
structure Rising (key : Key) (log : List Exchange) (s : Store) : Prop where
  sorted : (log.filterMap (·.takes? key)).Pairwise (· < ·)
  below : ∀ v ∈ log.filterMap (·.takes? key), ∃ row, s.find? key = some row ∧ v < row.version

section Rising

variable {key : Key} {before during log : List Exchange} {s : Store}

theorem rising_nil : Rising key [] s where
  sorted := .nil
  below _ hv := absurd hv List.not_mem_nil

/-- The next change is made from a version that was not taken, also if it deletes the key. -/
theorem Rising.sorted_concat (h : Rising key log s) (c : Call) :
    ((log ++ [s.exchange c]).filterMap (·.takes? key)).Pairwise (· < ·) := by
  rw [List.filterMap_append, List.pairwise_append]
  refine ⟨h.sorted, ?_, fun v hv w hw => ?_⟩
  · cases htakes : (s.exchange c).takes? key <;> simp [htakes]
  · obtain ⟨x, hx, htakes⟩ := List.mem_filterMap.mp hw
    obtain rfl := List.mem_singleton.mp hx
    obtain ⟨r, hwritten, haccepted, rfl, rfl⟩ := Exchange.takes?_eq_some.mp htakes
    obtain ⟨stored, hstored, hversion⟩ := (s.performs c).stored_of_accepted hwritten haccepted
    obtain ⟨row, hfind, hlt⟩ := h.below v hv
    obtain rfl : row = stored := Option.some.inj (hfind.symm.trans hstored)
    omega

/-- **What a call preserves** that does not delete the key. -/
theorem Rising.step (h : Rising key log s) {c : Call} (hactive : key.deleteMarker = 0)
    (hrevisable : ∀ row, s.find? key = some row → row.Revisable)
    (hkept : (s.exchange c).deletes key = false) :
    Rising key (log ++ [s.exchange c]) (s.perform c).2 where
  sorted := h.sorted_concat c
  below v hv := by
    rw [List.filterMap_append, List.mem_append] at hv
    rcases hv with hold | hnew
    · obtain ⟨row, hfind, hlt⟩ := h.below v hold
      obtain ⟨row', hfind', hle, -⟩ :=
        (s.performs c).version_of_kept hactive hfind (hrevisable row hfind) hkept
      exact ⟨row', hfind', by omega⟩
    · obtain ⟨x, hx, htakes⟩ := List.mem_filterMap.mp hnew
      obtain rfl := List.mem_singleton.mp hx
      obtain ⟨r, hwritten, haccepted, rfl, -⟩ := Exchange.takes?_eq_some.mp htakes
      obtain ⟨stored, hstored, -⟩ := (s.performs c).stored_of_accepted hwritten haccepted
      obtain ⟨row', hfind', -, hlt⟩ :=
        (s.performs c).version_of_kept hactive hstored (hrevisable stored hstored) hkept
      exact ⟨row', hfind', hlt v htakes⟩

/-- **As long as a key is not deleted, the versions that are taken under it rise.** -/
theorem History.rising (h : History (before ++ during) s) (hactive : key.deleteMarker = 0)
    (hrevisable : ∀ x ∈ during, ∀ row, x.before.find? key = some row → row.Revisable)
    (hkept : ∀ x ∈ during, x.deletes key = false) : Rising key during s := by
  induction during using List.reverseRecOn generalizing s with
  | nil => exact rising_nil
  | append_singleton during x ih =>
    rw [← List.append_assoc] at h
    obtain ⟨prior, c, hprior, rfl, rfl⟩ := h.of_concat
    have hlast : prior.exchange c ∈ during ++ [prior.exchange c] := by simp
    have hrising := ih hprior (fun x hx => hrevisable x (List.mem_append_left _ hx))
      fun x hx => hkept x (List.mem_append_left _ hx)
    exact hrising.step hactive (hrevisable _ hlast) (hkept _ hlast)

theorem History.count_takes (h : History (before ++ during) s) (hactive : key.deleteMarker = 0)
    (hrevisable : ∀ x ∈ during, ∀ row, x.before.find? key = some row → row.Revisable)
    (hkept : ∀ x ∈ during.dropLast, x.deletes key = false) (v : Int) :
    during.countP (fun x => x.takes? key = some v) ≤ 1 := by
  have hsorted : (during.filterMap (·.takes? key)).Pairwise (· < ·) := by
    rcases List.eq_nil_or_concat during with rfl | ⟨front, x, rfl⟩
    · exact .nil
    · rw [List.concat_eq_append] at h hrevisable hkept ⊢
      rw [List.dropLast_concat] at hkept
      rw [← List.append_assoc] at h
      obtain ⟨prior, c, hprior, rfl, -⟩ := h.of_concat
      have hfront := hprior.rising hactive
        (fun x hx => hrevisable x (List.mem_append_left _ hx)) hkept
      exact hfront.sorted_concat c
  have hnodup : (during.filterMap (·.takes? key)).Nodup := hsorted.imp Int.ne_of_lt
  have hcount := List.nodup_iff_count_le_one.mp hnodup v
  rw [List.count_filterMap] at hcount
  simpa only [beq_eq_decide] using hcount

end Rising

/-! ### Compare and swap -/

/-- **Compare and swap under an active key.**  Whatever the calls of a history were, as long as the
versions under the key can be counted up. -/
theorem compare_and_swap {log : List Exchange} {s : Store} (h : History log s) {key : Key}
    (hactive : key.deleteMarker = 0)
    (hrevisable : ∀ x ∈ log, ∀ row, x.before.find? key = some row → row.Revisable) :
    -- there is one row at most under the key, and it is found there
    (s.rows.countP (·.key = key) ≤ 1 ∧ ∀ row ∈ s.rows, row.key = key → s.find? key = some row) ∧
    -- from one deletion of the key to the next, one change at most is accepted of each version
    (∀ before during after, log = before ++ during ++ after →
      (∀ x ∈ during.dropLast, x.deletes key = false) →
        ∀ v, during.countP (fun x => x.takes? key = some v) ≤ 1) ∧
    -- an accepted copy takes the place of the version before it
    (∀ x ∈ log, ∀ r, x.call = .update r → r.key = key → x.accepted = true →
      ∃ stored, x.before.find? key = some stored ∧ stored.version = r.version ∧
        x.after.find? key = some { r with version := stored.version + 1 }) ∧
    -- no copy takes the place of a finished row
    (∀ x ∈ log, ∀ r, x.call = .update r → ∀ row, x.before.find? key = some row →
      row.status.isTerminal = true → x.after.find? key = some row) ∧
    -- reads and refused calls change nothing, and other calls nothing under other active keys
    (∀ x ∈ log, x.idle = true → x.after = x.before) ∧
    ∀ x ∈ log, x.key? ≠ some key → x.after.find? key = x.before.find? key := by
  have hkeyed := h.keyed
  refine ⟨⟨?_, fun row hrow hkey => ?_⟩, fun before during after hlog hkept v => ?_,
    fun x hx r hcall hkey haccepted => ?_, fun x _ r hcall row hfind hterminal => ?_,
    fun x hx hidle => ?_, fun x hx hother => ?_⟩
  · have hcount := List.nodup_iff_count_le_one.mp hkeyed key
    rw [List.count, List.countP_map] at hcount
    simpa only [Function.comp_def, beq_eq_decide] using hcount
  · rw [← hkey]
    exact hkeyed.find? hrow
  · subst hlog
    obtain ⟨prior, hprior⟩ := h.front
    refine hprior.count_takes hactive (fun x hx => hrevisable x ?_) hkept v
    exact List.mem_append_left _ (List.mem_append_right _ hx)
  · rw [h.exchange_of_mem hx, hcall] at haccepted
    have hdone := x.before.performs (.update r)
    obtain ⟨stored, hfind, hversion, hafter⟩ := hdone.find?_of_accepted haccepted
    rw [hkey] at hfind hafter
    refine ⟨stored, hfind, hversion, ?_⟩
    rw [Exchange.after, hcall, hversion]
    exact hafter
  · rw [Exchange.after, hcall]
    exact (x.before.performs (.update r)).find?_of_terminal hfind hterminal
  · rw [h.exchange_of_mem hx] at hidle
    exact (x.before.performs x.call).eq_of_idle hidle
  · rw [h.exchange_of_mem hx] at hother
    exact (x.before.performs x.call).find?_of_ne hactive hother

/-- Two workers write from the first version of a row.  One of them is accepted, and the other is
refused. -/
theorem compare_and_swap_twice :
    let s₁ := (empty.perform (.create (draft "a"))).2
    let s₂ := (s₁.perform (.update first)).2
    let s₃ := (s₂.perform (.update firstDone)).2
    let during := [s₁.exchange (.update first), s₂.exchange (.update firstDone)]
    s₃.find? first.key = some { first with version := 1 } ∧
      during.map (fun x => x.takes? first.key) = [some 0, none] ∧
      during.countP (fun x => x.takes? first.key = some 0) ≤ 1 := by
  intro s₁ s₂ s₃ during
  have hhistory : History (empty.exchange (.create (draft "a")) :: during) s₃ :=
    .call (.call (.call .empty (.create (draft "a"))) (.update first)) (.update firstDone)
  have hrevisable : ∀ x ∈ empty.exchange (.create (draft "a")) :: during, ∀ row,
      x.before.find? first.key = some row → row.Revisable := by
    intro x hx row hfind
    have hall : ∀ x ∈ empty.exchange (.create (draft "a")) :: during,
        ∀ row ∈ x.before.find? first.key, row.Revisable := by decide
    exact hall x hx row hfind
  have hactive : first.key.deleteMarker = 0 := rfl
  have hlaws := compare_and_swap hhistory hactive hrevisable
  refine ⟨by decide, by decide, ?_⟩
  exact hlaws.2.1 [empty.exchange (.create (draft "a"))] during [] (by rw [List.append_nil]; rfl)
    (by decide) 0

end EventRelay.Store
