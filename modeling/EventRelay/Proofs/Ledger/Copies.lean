import EventRelay.Proofs.Ledger.Keys

/-!
# Copies that outlive their rows

A guarded write names a key and a version.  It does not name a row: when the row is deleted its key
comes free, the next row under it counts its versions from zero again, and a copy of the old row may
meet the new one at its own version.

`Timely` says that a write was made from a copy whose key had not been deleted since.  While all
accepted writes are timely every one of them hits the row that its copy was made from, the rows keep
distinct numbers and the columns they were created with, and no row is lost.  `writes_hit_iff` says
that this is exactly the condition: the first accepted write that is not timely hits another row.
`stale_write` is such a write.

The invariant is `Sound`.  Of copies it says that each belongs to one row, by number, that this row
is at least as new, and that it is still under the key of the copy as long as that was not deleted.
-/

namespace EventRelay.Store

/-! ### What is asked of callers, and what they are promised -/

/-- What a caller sends back for a copy: the copy, or what a transition made of it. -/
def DerivedFrom (copy r : Record) : Prop :=
  r = copy ∨ ∃ t now, copy.transition t now = .ok r

/-- Callers create active rows of version zero, and change what the ledger has given them. -/
def Proper (before : List Exchange) (x : Exchange) : Prop :=
  (∀ r, x.call = .create r → r.deleteMarker = 0 ∧ r.version = 0) ∧
    ∀ r, x.written? = some r → ∃ y ∈ before, ∃ copy ∈ y.returned, DerivedFrom copy r

/-- An accepted change concerns the row of the same number. -/
def Exchange.Hits (x : Exchange) : Prop :=
  ∀ r, x.written? = some r → x.accepted = true →
    ∃ stored, x.before.find? r.key = some stored ∧ stored.id = r.id

/-- An accepted change was made from a copy whose key had not been deleted since. -/
def Timely (before : List Exchange) (x : Exchange) : Prop :=
  ∀ r, x.written? = some r → x.accepted = true →
    ∃ copy, HeldSince before copy ∧ DerivedFrom copy r

section Derived

variable {copy r : Record}

theorem DerivedFrom.id (h : DerivedFrom copy r) : r.id = copy.id := by
  rcases h with rfl | ⟨t, now, h⟩
  · rfl
  · exact Record.id_transition h

theorem DerivedFrom.key (h : DerivedFrom copy r) : r.key = copy.key := by
  rcases h with rfl | ⟨t, now, h⟩
  · rfl
  · exact Record.key_transition h

theorem DerivedFrom.version (h : DerivedFrom copy r) : r.version = copy.version := by
  rcases h with rfl | ⟨t, now, h⟩
  · rfl
  · exact Record.version_transition h

theorem DerivedFrom.origin (h : DerivedFrom copy r) : r.origin = copy.origin := by
  rcases h with rfl | ⟨t, now, h⟩
  · rfl
  · exact Record.origin_transition h

end Derived

/-! ### The invariant -/

/-- The row that a copy was made from, as it is now. -/
structure Row (log : List Exchange) (s : Store) (copy row : Record) : Prop where
  mem : row ∈ s.rows
  id : row.id = copy.id
  origin : row.origin = copy.origin
  version : copy.version ≤ row.version
  /-- It stays under its key until that is deleted, -/
  key : HeldSince log copy → row.key = copy.key
  /-- and is not met there again at the version of the copy. -/
  held : row.key = copy.key → row.version = copy.version → HeldSince log copy

/-- The ledger after a log whose accepted writes were all timely. -/
structure Sound (log : List Exchange) (s : Store) : Prop where
  ids : (s.rows.map (·.id)).Nodup
  keys : (s.rows.map (·.key)).Nodup
  last : 0 ≤ s.lastId
  numbered : ∀ x ∈ s.rows, 1 ≤ x.id ∧ x.id ≤ s.lastId
  marked : ∀ x ∈ s.rows, x.deleteMarker = 0 ∨ x.deleteMarker = x.id
  count : s.rows.length = (created log).length
  kept : ∀ r ∈ created log, ∃ x ∈ s.rows, x.id = r.id ∧ x.origin = r.origin
  copies : ∀ y ∈ log, ∀ copy ∈ y.returned, ∃ row, Row log s copy row

theorem sound_empty : Sound [] .empty where
  ids := List.nodup_nil
  keys := List.nodup_nil
  last := Int.le_refl 0
  numbered _ hx := absurd hx List.not_mem_nil
  marked _ hx := absurd hx List.not_mem_nil
  count := rfl
  kept _ hr := absurd hr List.not_mem_nil
  copies _ hy := absurd hy List.not_mem_nil

section Row

variable {log : List Exchange} {s s' : Store} {e : Exchange} {copy row : Record}

theorem Row.fresh (hmem : copy ∈ s.rows) (hreturned : copy ∈ e.returned) :
    Row (log ++ [e]) s copy copy where
  mem := hmem
  id := rfl
  origin := rfl
  version := Int.le_refl _
  key _ := rfl
  held _ _ := heldSince_concat.mpr (.inl hreturned)

theorem Row.kept (h : Row log s copy row) (hmem : row ∈ s'.rows)
    (hreturned : copy ∈ e.returned → row.key = copy.key)
    (hdeletes : row.key = copy.key → e.deletes copy.key = false) :
    Row (log ++ [e]) s' copy row where
  mem := hmem
  id := h.id
  origin := h.origin
  version := h.version
  key hheld := by
    rcases heldSince_concat.mp hheld with hnow | ⟨hold, -⟩
    · exact hreturned hnow
    · exact h.key hold
  held hkey hversion := heldSince_concat.mpr (.inr ⟨h.held hkey hversion, hdeletes hkey⟩)

/-- A changed row is newer than the copies of it, and under their key if that is not deleted. -/
theorem Row.changed {row' : Record} (h : Row log s copy row) (hmem : row' ∈ s'.rows)
    (hid : row'.id = row.id) (horigin : row'.origin = row.origin)
    (hversion : row'.version = row.version + 1) (hreturned : e.returned = [])
    (hstays : e.deletes row.key = false → row'.key = row.key) :
    Row (log ++ [e]) s' copy row' where
  mem := hmem
  id := hid.trans h.id
  origin := horigin.trans h.origin
  version := by
    have := h.version
    omega
  key hheld := by
    rcases heldSince_concat.mp hheld with hnow | ⟨hold, hkeep⟩
    · rw [hreturned] at hnow
      cases hnow
    · rw [← h.key hold] at hkeep ⊢
      exact hstays hkeep
  held _ hsame := by
    have := h.version
    omega

end Row

namespace Sound

variable {log : List Exchange} {s s' : Store} {e : Exchange}

theorem eq_of_key (h : Sound log s) {x y : Record} (hx : x ∈ s.rows) (hy : y ∈ s.rows)
    (hkey : x.key = y.key) : x = y :=
  List.inj_on_of_nodup_map h.keys hx hy hkey

theorem eq_of_id (h : Sound log s) {x y : Record} (hx : x ∈ s.rows) (hy : y ∈ s.rows)
    (hid : x.id = y.id) : x = y :=
  List.inj_on_of_nodup_map h.ids hx hy hid

theorem row_of_held (h : Sound log s) {copy r stored : Record} (hheld : HeldSince log copy)
    (hderived : DerivedFrom copy r) (hfind : s.find? r.key = some stored) :
    Row log s copy stored := by
  obtain ⟨before, y, since, hlog, hcopy, -⟩ := id hheld
  obtain ⟨row, hrow⟩ := h.copies y (by rw [hlog]; simp) copy hcopy
  have heq : row = stored := by
    refine h.eq_of_key hrow.mem (mem_of_find? hfind) ?_
    rw [hrow.key hheld, key_of_find? hfind, hderived.key]
  exact heq ▸ hrow

/-- **An accepted write hits its row exactly when it is timely.**  The row under the key has the
version of the copy.  If it is the row of the copy, that one has not left the key; and if the copy
is held, its row is under the key. -/
theorem hits_iff (h : Sound log s) (hbefore : e.before = s) (hproper : Proper log e)
    (haccepted : ∀ r, e.written? = some r → e.accepted = true →
      ∃ stored, s.find? r.key = some stored ∧ stored.version = r.version) :
    e.Hits ↔ Timely log e := by
  constructor
  · intro hhits r hwritten hok
    obtain ⟨y, hy, copy, hcopy, hderived⟩ := hproper.2 r hwritten
    obtain ⟨stored, hfind, hversion⟩ := haccepted r hwritten hok
    obtain ⟨row, hrow⟩ := h.copies y hy copy hcopy
    obtain ⟨stored', hfind', hid⟩ := hhits r hwritten hok
    rw [hbefore, hfind] at hfind'
    obtain rfl := Option.some.inj hfind'
    have heq : row = stored :=
      h.eq_of_id hrow.mem (mem_of_find? hfind) (by rw [hrow.id, hid, hderived.id])
    subst heq
    refine ⟨copy, hrow.held ?_ ?_, hderived⟩
    · rw [key_of_find? hfind, hderived.key]
    · rw [hversion, hderived.version]
  · intro htimely r hwritten hok
    obtain ⟨copy, hheld, hderived⟩ := htimely r hwritten hok
    obtain ⟨stored, hfind, -⟩ := haccepted r hwritten hok
    have hrow := h.row_of_held hheld hderived hfind
    exact ⟨stored, by rw [hbefore]; exact hfind, by rw [hrow.id, hderived.id]⟩

/-! ### What calls preserve -/

theorem created_concat (log : List Exchange) (e : Exchange) :
    created (log ++ [e]) = created log ++ e.created?.toList := by
  unfold created
  rw [List.filterMap_append]
  cases h : e.created? <;> simp [h]

theorem copies_concat (h : Sound log s)
    (hold : ∀ copy row, Row log s copy row → ∃ row', Row (log ++ [e]) s' copy row')
    (hnew : ∀ copy ∈ e.returned, copy ∈ s'.rows) :
    ∀ y ∈ log ++ [e], ∀ copy ∈ y.returned, ∃ row, Row (log ++ [e]) s' copy row := by
  intro y hy copy hcopy
  rcases List.mem_append.mp hy with hy | hy
  · obtain ⟨row, hrow⟩ := h.copies y hy copy hcopy
    exact hold copy row hrow
  · obtain rfl := List.mem_singleton.mp hy
    exact ⟨copy, .fresh (hnew copy hcopy) hcopy⟩

theorem unchanged (h : Sound log s) (hreturned : ∀ r ∈ e.returned, r ∈ s.rows)
    (hcreated : e.created? = none) (hdeletes : ∀ key, e.deletes key = false) :
    Sound (log ++ [e]) s := by
  have hlist : created (log ++ [e]) = created log := by
    rw [created_concat, hcreated]
    exact List.append_nil _
  refine { h with count := by rw [hlist]; exact h.count, kept := by rw [hlist]; exact h.kept,
                  copies := h.copies_concat (fun copy row hrow => ⟨row, ?_⟩) hreturned }
  refine hrow.kept hrow.mem (fun hnow => ?_) fun _ => hdeletes _
  rw [h.eq_of_id hrow.mem (hreturned copy hnow) hrow.id]

theorem nodup_map_concat {α : Type} {f : Record → α} {l : List Record} {r : Record}
    (h : (l.map f).Nodup) (hfree : ∀ x ∈ l, f x ≠ f r) : ((l ++ [r]).map f).Nodup := by
  rw [List.map_append, List.nodup_append]
  refine ⟨h, List.nodup_singleton _, ?_⟩
  intro a ha b hb
  obtain ⟨x, hx, rfl⟩ := List.mem_map.mp ha
  obtain rfl := List.mem_singleton.mp hb
  exact hfree x hx

theorem added (h : Sound log s) {row : Record} (hrows : s'.rows = s.rows ++ [row])
    (hlast : s'.lastId = s.lastId + 1) (hid : row.id = s.lastId + 1)
    (hmarker : row.deleteMarker = 0) (hfree : ∀ x ∈ s.rows, x.key ≠ row.key)
    (hreturned : e.returned = [row]) (hcreated : e.created? = some row)
    (hdeletes : ∀ key, e.deletes key = false) : Sound (log ++ [e]) s' := by
  have hlist : created (log ++ [e]) = created log ++ [row] := by
    rw [created_concat, hcreated]
    rfl
  have hmem : ∀ x, x ∈ s'.rows ↔ x ∈ s.rows ∨ x = row := by
    intro x
    rw [hrows, List.mem_append, List.mem_singleton]
  have hlt := h.last
  have hother : ∀ x ∈ s.rows, x.id ≠ row.id := by
    intro x hx
    have := (h.numbered x hx).2
    omega
  refine ⟨?_, ?_, by omega, ?_, ?_, ?_, ?_, h.copies_concat ?_ ?_⟩
  · rw [hrows]
    exact nodup_map_concat h.ids hother
  · rw [hrows]
    exact nodup_map_concat h.keys hfree
  · intro x hx
    rcases (hmem x).mp hx with hx | rfl
    · have := h.numbered x hx
      omega
    · omega
  · intro x hx
    rcases (hmem x).mp hx with hx | rfl
    · exact h.marked x hx
    · exact .inl hmarker
  · rw [hrows, hlist, List.length_append, List.length_append, h.count]
  · intro r hr
    rw [hlist, List.mem_append, List.mem_singleton] at hr
    rcases hr with hr | rfl
    · obtain ⟨x, hx, hxr⟩ := h.kept r hr
      exact ⟨x, (hmem x).mpr (.inl hx), hxr⟩
    · exact ⟨r, (hmem r).mpr (.inr rfl), rfl, rfl⟩
  · intro copy x hx
    refine ⟨x, hx.kept ((hmem x).mpr (.inl hx.mem)) (fun hnow => ?_) fun _ => hdeletes _⟩
    rw [hreturned, List.mem_singleton] at hnow
    exact absurd (hnow ▸ hx.id) (hother x hx.mem)
  · intro copy hcopy
    rw [hreturned, List.mem_singleton] at hcopy
    exact (hmem copy).mpr (.inr hcopy)

/-- A row is replaced by its next version, under the same key or under that of its marker. -/
theorem changed (h : Sound log s) {x y : Record} {rest : List Record}
    (hrows : s.rows.Perm (x :: rest)) (hrows' : s'.rows.Perm (y :: rest))
    (hlast : s'.lastId = s.lastId) (hid : y.id = x.id) (horigin : y.origin = x.origin)
    (hversion : y.version = x.version + 1)
    (hmarker : y.deleteMarker = 0 ∨ y.deleteMarker = y.id) (hfree : ∀ z ∈ rest, z.key ≠ y.key)
    (hreturned : e.returned = []) (hcreated : e.created? = none)
    (hstays : e.deletes x.key = false → y.key = x.key)
    (hdeletes : ∀ key, e.deletes key = true → key = x.key) : Sound (log ++ [e]) s' := by
  have hlist : created (log ++ [e]) = created log := by
    rw [created_concat, hcreated]
    exact List.append_nil _
  have hmem : ∀ z, z ∈ s.rows ↔ z = x ∨ z ∈ rest := fun z => hrows.mem_iff.trans List.mem_cons
  have hmem' : ∀ z, z ∈ s'.rows ↔ z = y ∨ z ∈ rest := fun z => hrows'.mem_iff.trans List.mem_cons
  have hx : x ∈ s.rows := (hmem x).mpr (.inl rfl)
  have hy : y ∈ s'.rows := (hmem' y).mpr (.inl rfl)
  have hkeys := List.nodup_cons.mp ((hrows.map (·.key)).nodup_iff.mp h.keys)
  refine ⟨?_, ?_, by rw [hlast]; exact h.last, ?_, ?_, ?_, ?_, h.copies_concat ?_ ?_⟩
  · rw [(hrows'.map (·.id)).nodup_iff, List.map_cons, hid]
    exact (hrows.map (·.id)).nodup_iff.mp h.ids
  · rw [(hrows'.map (·.key)).nodup_iff, List.map_cons, List.nodup_cons]
    refine ⟨fun hmap => ?_, hkeys.2⟩
    obtain ⟨z, hz, hzy⟩ := List.mem_map.mp hmap
    exact hfree z hz hzy
  · intro z hz
    rw [hlast]
    rcases (hmem' z).mp hz with rfl | hz
    · rw [hid]
      exact h.numbered x hx
    · exact h.numbered z ((hmem z).mpr (.inr hz))
  · intro z hz
    rcases (hmem' z).mp hz with rfl | hz
    · exact hmarker
    · exact h.marked z ((hmem z).mpr (.inr hz))
  · rw [hlist, ← h.count, hrows.length_eq, hrows'.length_eq]
    rfl
  · intro r hr
    rw [hlist] at hr
    obtain ⟨z, hz, hzid, hzorigin⟩ := h.kept r hr
    rcases (hmem z).mp hz with rfl | hz
    · exact ⟨y, hy, hid.trans hzid, horigin.trans hzorigin⟩
    · exact ⟨z, (hmem' z).mpr (.inr hz), hzid, hzorigin⟩
  · intro copy z hz
    rcases (hmem z).mp hz.mem with rfl | hrest
    · exact ⟨y, hz.changed hy hid horigin hversion hreturned hstays⟩
    · refine ⟨z, hz.kept ((hmem' z).mpr (.inr hrest)) (fun hnow => ?_) fun hkey => ?_⟩
      · rw [hreturned] at hnow
        cases hnow
      · -- if the key of this row were deleted, it would be that of the changed row
        cases hd : e.deletes copy.key with
        | false => rfl
        | true =>
          have hzx : z.key = x.key := hkey.trans (hdeletes _ hd)
          exact absurd (List.mem_map.mpr ⟨z, hrest, hzx⟩) hkeys.1
  · intro copy hcopy
    rw [hreturned] at hcopy
    cases hcopy

theorem perm_refile (h : Sound log s) {x y : Record} (hx : x ∈ s.rows) (hid : y.id = x.id)
    (hmarker : y.deleteMarker = y.id) :
    ∃ rest, s.rows.Perm (x :: rest) ∧ (s.refile x y).rows.Perm (y :: rest) ∧
      ∀ z ∈ rest, z.key ≠ y.key := by
  have hkeyed : s.Keyed := h.keys
  refine hkeyed.perm_refile hx fun z hz hother hkey => ?_
  -- a row under that key has the marker of `y`, which is its own number
  have hzmarker : z.deleteMarker = y.deleteMarker := congrArg Key.deleteMarker hkey
  have hxnum := (h.numbered x hx).1
  rcases h.marked z hz with h0 | hz0
  · omega
  · exact hother (congrArg Record.key (h.eq_of_id hz hx (by omega)))

/-! ### Calls and histories -/

/-- **What a call preserves**, as long as updates are timely and no row is lost. -/
theorem call (h : Sound log s) {c : Call} {response : Response} (hcall : s.Performs c response s')
    (hproper : Proper log ⟨s, c, response⟩)
    (hkept : (Exchange.mk s c response).loses = false)
    (htimely : ∀ r, c = .update r → Timely log ⟨s, c, response⟩) :
    Sound (log ++ [⟨s, c, response⟩]) s' := by
  cases hcall with
  | found =>
    refine h.unchanged (fun r hr => ?_) rfl fun _ => rfl
    exact mem_of_find? (Option.mem_toList.mp hr)
  | selected => exact h.unchanged (fun r hr => (mem_due hr).1) rfl fun _ => rfl
  | existing hfind =>
    refine h.unchanged (fun x hx => ?_) rfl fun _ => rfl
    rw [List.mem_singleton.mp hx]
    exact mem_of_find? hfind
  | @created r hfree =>
    obtain ⟨hmarker, -⟩ := hproper.1 r rfl
    exact h.added rfl rfl rfl hmarker (find?_eq_none_iff.mp hfree) rfl rfl fun _ => rfl
  | @updated r stored hfind hversion hopen =>
    obtain ⟨copy, hheld, hderived⟩ := htimely r rfl r rfl rfl
    have hrow := h.row_of_held hheld hderived hfind
    have hid : r.id = stored.id := by rw [hderived.id, hrow.id]
    have hkey : r.key = stored.key := (key_of_find? hfind).symm
    have hkeyed : s.Keyed := h.keys
    obtain ⟨rest, hperm, hperm', hfree⟩ := hkeyed.perm_replace (y := r.revised) hrow.mem hkey
    refine h.changed hperm hperm' rfl hid ?_ ?_ ?_ hfree rfl rfl (fun _ => hkey) ?_
    · rw [Record.origin_revised, hderived.origin, hrow.origin]
    · rw [Record.version_revised, hversion]
    · have hmarker : r.deleteMarker = stored.deleteMarker := congrArg Key.deleteMarker hkey
      have := h.marked stored hrow.mem
      show r.deleteMarker = 0 ∨ r.deleteMarker = r.id
      omega
    · intro key hd
      cases hd
  | refused | overflowed | kept =>
    exact h.unchanged (fun _ hx => absurd hx List.not_mem_nil) rfl fun _ => rfl
  | @deleted r stored now hfind hversion =>
    have hmem := mem_of_find? hfind
    have hkey := key_of_find? hfind
    have hmarker : (stored.deleted now).revised.deleteMarker = stored.id := by
      have := (h.numbered stored hmem).1
      show max stored.id 1 = stored.id
      omega
    obtain ⟨rest, hperm, hperm', hfree⟩ :=
      h.perm_refile (y := (stored.deleted now).revised) hmem rfl hmarker
    refine h.changed hperm hperm' rfl rfl rfl rfl (.inr hmarker) hfree rfl rfl ?_ ?_
    · intro hd
      rw [hkey] at hd
      exact absurd hd (by simp [Exchange.deletes, Exchange.accepted])
    · intro key hd
      rw [hkey]
      exact (of_decide_eq_true hd).symm
  | lost => cases hkept

end Sound

theorem Performs.stored_of_accepted {s s' : Store} {c : Call} {response : Response} {r : Record}
    (h : s.Performs c response s') (hwritten : (Exchange.mk s c response).written? = some r)
    (hok : (Exchange.mk s c response).accepted = true) :
    ∃ stored, s.find? r.key = some stored ∧ stored.version = r.version := by
  cases h with
  | found | selected | existing | created => cases hwritten
  | updated hfind hversion | deleted hfind hversion =>
    obtain rfl := Option.some.inj hwritten
    exact ⟨_, hfind, hversion⟩
  | refused | overflowed | kept | lost => cases hok

/-! ### Rows that are lost -/

theorem length_erase_lt {s : Store} {key : Key} {r : Record} (h : s.find? key = some r) :
    (s.erase key).rows.length < s.rows.length := by
  unfold erase
  rw [List.length_filter_lt_length_iff_exists]
  exact ⟨r, mem_of_find? h, by simp [key_of_find? h]⟩

theorem Performs.length {s s' : Store} {c : Call} {response : Response}
    (h : s.Performs c response s') :
    s'.rows.length + (Exchange.mk s c response).loses.toNat ≤
      s.rows.length + (Exchange.mk s c response).created?.toList.length := by
  cases h with
  | found | selected | existing | refused | overflowed | kept => exact Nat.le_refl _
  | created =>
    show (s.rows ++ [_]).length + 0 ≤ s.rows.length + 1
    exact Nat.le_of_eq List.length_append
  | updated =>
    show (s.rows.map _).length ≤ s.rows.length
    exact Nat.le_of_eq (List.length_map ..)
  | @deleted r stored now hfind hversion =>
    have hlt := length_erase_lt hfind
    have hle : ((s.erase stored.key).erase (stored.deleted now).revised.key).rows.length ≤
        (s.erase stored.key).rows.length := List.length_filter_le _ _
    rw [key_of_find? hfind] at hle
    show (((s.erase stored.key).erase _).rows ++ [_]).length ≤ s.rows.length
    rw [List.length_append, List.length_singleton, key_of_find? hfind]
    omega
  | lost hfind => exact length_erase_lt hfind

theorem length_perform (s : Store) (c : Call) :
    (s.perform c).2.rows.length + (s.exchange c).loses.toNat ≤
      s.rows.length + (s.exchange c).created?.toList.length :=
  (s.performs c).length

theorem length_le {log : List Exchange} {s : Store} (h : History log s) :
    s.rows.length ≤ (created log).length := by
  induction h with
  | empty => exact Nat.le_refl 0
  | @call log s prior c ih =>
    have hstep := length_perform s c
    rw [Sound.created_concat, List.length_append]
    omega

theorem loses_of_length {log : List Exchange} {s : Store} (h : History log s)
    (hlength : s.rows.length = (created log).length) : ∀ x ∈ log, x.loses = false := by
  induction h with
  | empty => exact fun _ hx => absurd hx List.not_mem_nil
  | @call log s prior c ih =>
    have hstep := length_perform s c
    have hle := length_le prior
    rw [Sound.created_concat, List.length_append] at hlength
    intro x hx
    rcases List.mem_append.mp hx with hx | hx
    · exact ih (by omega) x hx
    · rw [List.mem_singleton.mp hx]
      cases hloses : (s.exchange c).loses with
      | false => rfl
      | true =>
        rw [hloses, Bool.toNat_true] at hstep
        omega

/-! ### The exact condition -/

theorem sound_of_timely {log : List Exchange} {s : Store} (h : History log s)
    (hproper : Throughout Proper log) (htimely : Throughout Timely log)
    (hkept : ∀ x ∈ log, x.loses = false) : Sound log s := by
  induction h with
  | empty => exact sound_empty
  | @call log s prior c ih =>
    rw [throughout_concat] at hproper htimely
    have hlast := hkept _ (List.mem_append_right _ (List.mem_singleton_self _))
    have hsound := ih hproper.1 htimely.1 fun x hx => hkept x (List.mem_append_left _ hx)
    exact hsound.call (s.performs c) hproper.2 hlast fun _ _ => htimely.2

theorem hits_iff_timely {log : List Exchange} {s : Store} (h : History log s)
    (hproper : Throughout Proper log) (hkept : ∀ x ∈ log, x.loses = false) :
    (∀ x ∈ log, x.Hits) ↔ Throughout Timely log := by
  induction h with
  | empty =>
    constructor
    · intro _ before x since hlog
      cases before <;> cases hlog
    · exact fun _ _ hx => absurd hx List.not_mem_nil
  | @call log s prior c ih =>
    rw [throughout_concat] at hproper ⊢
    have hprior : ∀ x ∈ log, x.loses = false := fun x hx => hkept x (List.mem_append_left _ hx)
    have hih := ih hproper.1 hprior
    have hlast : Throughout Timely log →
        ((s.exchange c).Hits ↔ Timely log (s.exchange c)) := fun htimely =>
      (sound_of_timely prior hproper.1 htimely hprior).hits_iff rfl hproper.2
        fun _ => (s.performs c).stored_of_accepted
    constructor
    · intro hhits
      have htimely := hih.mp fun x hx => hhits x (List.mem_append_left _ hx)
      refine ⟨htimely, (hlast htimely).mp ?_⟩
      exact hhits _ (List.mem_append_right _ (List.mem_singleton_self _))
    · rintro ⟨htimely, hc⟩ x hx
      rcases List.mem_append.mp hx with hx | hx
      · exact hih.mpr htimely x hx
      · rw [List.mem_singleton.mp hx]
        exact (hlast htimely).mpr hc

/-- **Writes hit the rows of their copies, and no row is lost or changed in what it is for, exactly
as long as every accepted write is timely** and no row is deleted whose version cannot be counted
up any more. -/
theorem writes_hit_iff {log : List Exchange} {s : Store} (h : History log s)
    (hproper : Throughout Proper log) :
    ((∀ x ∈ log, x.Hits) ∧ (s.rows.map (·.id)).Nodup ∧
        s.rows.length = (created log).length ∧
        ∀ r ∈ created log, ∃ row ∈ s.rows, row.id = r.id ∧ row.origin = r.origin) ↔
      Throughout Timely log ∧ ∀ x ∈ log, x.loses = false := by
  constructor
  · rintro ⟨hhits, -, hlength, -⟩
    have hkept := loses_of_length h hlength
    exact ⟨(hits_iff_timely h hproper hkept).mp hhits, hkept⟩
  · rintro ⟨htimely, hkept⟩
    have hsound := sound_of_timely h hproper htimely hkept
    exact ⟨(hits_iff_timely h hproper hkept).mpr htimely, hsound.ids, hsound.count, hsound.kept⟩

/-! ### A timely write and a stale one -/

theorem proper_create {log : List Exchange} {s : Store} {r : Record}
    (hmarker : r.deleteMarker = 0) (hversion : r.version = 0) :
    Proper log (s.exchange (.create r)) := by
  refine ⟨fun r' h => ?_, fun r' h => ?_⟩
  · cases h
    exact ⟨hmarker, hversion⟩
  · cases h

theorem proper_change {log : List Exchange} {s : Store} {c : Call} {r : Record}
    (hc : c = .update r ∨ ∃ now, c = .tombstone r now)
    (hderived : ∃ y ∈ log, ∃ copy ∈ y.returned, DerivedFrom copy r) :
    Proper log (s.exchange c) := by
  rcases hc with rfl | ⟨now, rfl⟩
  · refine ⟨fun _ h => (nomatch h), fun r' h => ?_⟩
    cases h
    exact hderived
  · refine ⟨fun _ h => (nomatch h), fun r' h => ?_⟩
    cases h
    exact hderived

def draft (eventType : String) : Record where
  id := 0
  eventId := "e"
  action := .consume
  ownerGroup := "g"
  ownerName := "n"
  eventType := eventType
  status := .retrying
  payload := none
  message := none
  retryTimes := 0
  maxRetryTimes := 3
  nextRetryTime := none
  version := 0
  deleteMarker := 0
  createTime := default
  updateTime := default

def first : Record := { draft "a" with id := 1 }

def firstDone : Record := { first with status := .success }

theorem derived_firstDone : DerivedFrom first firstDone :=
  .inr ⟨.succeeded, default, by decide⟩

theorem returned_first : first ∈ (empty.exchange (.create (draft "a"))).returned := by decide

/-- A write that follows the creation of its row is timely, and hits it. -/
theorem writes_hit_once :
    let s := (empty.perform (.create (draft "a"))).2
    let log := [empty.exchange (.create (draft "a")), s.exchange (.update firstDone)]
    (s.exchange (.update firstDone)).accepted = true ∧ ∀ x ∈ log, x.Hits := by
  intro s log
  have hcopy : ∃ y ∈ [empty.exchange (.create (draft "a"))], ∃ copy ∈ y.returned,
      DerivedFrom copy firstDone :=
    ⟨_, List.mem_singleton_self _, first, returned_first, derived_firstDone⟩
  have hhistory : History log (s.perform (.update firstDone)).2 :=
    .call (.call .empty (.create (draft "a"))) (.update firstDone)
  have hproper : Throughout Proper log :=
    throughout_concat.mpr ⟨throughout_concat.mpr ⟨throughout_nil, proper_create rfl rfl⟩,
      proper_change (.inl rfl) hcopy⟩
  refine ⟨by decide, ((writes_hit_iff hhistory hproper).mpr ⟨?_, by decide⟩).1⟩
  refine throughout_concat.mpr ⟨throughout_concat.mpr ⟨throughout_nil, ?_⟩, ?_⟩
  · intro r hwritten
    cases hwritten
  · intro r hwritten _
    cases hwritten
    refine ⟨first, ⟨[], _, [], rfl, returned_first, ?_⟩, derived_firstDone⟩
    exact fun _ hy => absurd hy List.not_mem_nil

/-- **A stale write.**  The first row is deleted, another one is created under its key, and the
result of the worker at the first row is accepted.  The second row is gone then, and the first one
is there twice. -/
theorem stale_write :
    let s₁ := (empty.perform (.create (draft "a"))).2
    let s₂ := (s₁.perform (.tombstone first default)).2
    let s₃ := (s₂.perform (.create (draft "b"))).2
    let s₄ := (s₃.perform (.update firstDone)).2
    let log := [empty.exchange (.create (draft "a")), s₁.exchange (.tombstone first default),
      s₂.exchange (.create (draft "b")), s₃.exchange (.update firstDone)]
    History log s₄ ∧ Throughout Proper log ∧
      (s₃.exchange (.update firstDone)).accepted = true ∧ ¬ (s₃.exchange (.update firstDone)).Hits ∧
      s₄.rows.map (fun r => (r.id, r.eventType)) = [(1, "a"), (1, "a")] := by
  intro s₁ s₂ s₃ s₄ log
  have hcopy : ∀ r, DerivedFrom first r → ∀ rest : List Exchange,
      ∃ y ∈ empty.exchange (.create (draft "a")) :: rest, ∃ copy ∈ y.returned,
        DerivedFrom copy r := fun r hr rest =>
    ⟨_, List.mem_cons_self .., first, returned_first, hr⟩
  refine ⟨?_, ?_, by decide, ?_, by decide⟩
  · exact .call (.call (.call (.call .empty (.create (draft "a"))) (.tombstone first default))
      (.create (draft "b"))) (.update firstDone)
  · show Throughout Proper ([] ++ [_] ++ [_] ++ [_] ++ [_])
    rw [throughout_concat, throughout_concat, throughout_concat, throughout_concat]
    refine ⟨⟨⟨⟨throughout_nil, ?_⟩, ?_⟩, ?_⟩, ?_⟩
    · exact proper_create rfl rfl
    · exact proper_change (.inr ⟨_, rfl⟩) (hcopy first (.inl rfl) [])
    · exact proper_create rfl rfl
    · exact proper_change (.inl rfl) (hcopy firstDone derived_firstDone _)
  · intro hhits
    obtain ⟨stored, hfind, hid⟩ := hhits firstDone rfl (by decide)
    have hsecond : s₃.find? firstDone.key = some { draft "b" with id := 2 } := by decide
    have : stored = { draft "b" with id := 2 } := Option.some.inj (hfind.symm.trans hsecond)
    rw [this] at hid
    exact absurd hid (by decide)

end EventRelay.Store
