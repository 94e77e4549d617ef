import EventRelay.Ledger.Store

/-!
# Rows under their keys

What the calls of `Ledger/Store.lean` do to the row that is found under a key, and to the rows
there are.  A changed copy differs from what it was made from in the columns of its transition, in
its status and in its time of update, and in nothing else (`transition_cases`).  An accepted copy
takes the place of the row under its key (`update_cases`), a deleted row goes to the key of its
marker (`tombstone_cases`), and a created one comes last (`create_cases`).  These three say all
that the calls can do, and no later proof opens the calls themselves.
-/

namespace EventRelay

/-! ### Records -/

namespace Record

@[simp] theorem version_revised (r : Record) : r.revised.version = r.version + 1 := rfl
@[simp] theorem retryTimes_revised (r : Record) : r.revised.retryTimes = r.retryTimes := rfl
@[simp] theorem status_revised (r : Record) : r.revised.status = r.status := rfl
@[simp] theorem key_revised (r : Record) : r.revised.key = r.key := rfl
@[simp] theorem version_deleted (r : Record) (now : Instant) :
    (r.deleted now).version = r.version := rfl

/-- The columns that say what a row is for.  They are filled in when it is created. -/
structure Origin where
  eventId : String
  action : Action
  ownerGroup : String
  ownerName : String
  eventType : String
  payload : Option Bytes
  maxRetryTimes : Nat
  createTime : Instant
  deriving DecidableEq, Repr

def origin (r : Record) : Origin :=
  ⟨r.eventId, r.action, r.ownerGroup, r.ownerName, r.eventType, r.payload, r.maxRetryTimes,
    r.createTime⟩

@[simp] theorem origin_revised (r : Record) : r.revised.origin = r.origin := rfl

theorem deleteMarker_deleted (r : Record) (now : Instant) : (r.deleted now).deleteMarker ≠ 0 := by
  show max r.id 1 ≠ 0
  omega

theorem key_deleted_ne (r : Record) (now : Instant) {key : Key} (hkey : key.deleteMarker = 0) :
    (r.deleted now).revised.key ≠ key := by
  intro h
  have hmarker : (r.deleted now).deleteMarker = key.deleteMarker := congrArg Key.deleteMarker h
  exact r.deleteMarker_deleted now (hmarker.trans hkey)

theorem revise_eq_ok {r next : Record} (h : r.revise = .ok next) : next = r.revised := by
  unfold revise within64 at h
  split at h
  · cases h
    rfl
  · cases h

theorem revise_eq_error {r : Record} {o : Overflow} (h : r.revise = .error o) :
    r.version + 1 < leastInt64 ∨ greatestInt64 < r.version + 1 := by
  unfold revise within64 at h
  split at h
  · cases h
  · omega

/-- Whether the version of a row can be counted up. -/
def Revisable (r : Record) : Prop :=
  leastInt64 ≤ r.version + 1 ∧ r.version + 1 ≤ greatestInt64

instance (r : Record) : Decidable r.Revisable :=
  inferInstanceAs (Decidable (_ ∧ _))

theorem revisable_of_version {r r' : Record} (h : r'.version = r.version) (hr : r.Revisable) :
    r'.Revisable := by
  unfold Revisable
  rw [h]
  exact hr

theorem revise_of_revisable {r : Record} (h : r.Revisable) : r.revise = .ok r.revised := by
  unfold revise within64
  rw [if_pos (show leastInt64 ≤ r.version + 1 ∧ r.version + 1 ≤ greatestInt64 from h)]
  rfl

theorem revisable_of_revise {r next : Record} (h : r.revise = .ok next) : r.Revisable := by
  unfold revise within64 at h
  split at h
  · assumption
  · cases h

theorem apply_columns (r : Record) (t : Transition) :
    (r.apply t).id = r.id ∧ (r.apply t).key = r.key ∧ (r.apply t).version = r.version ∧
      (r.apply t).origin = r.origin := by
  cases t <;> exact ⟨rfl, rfl, rfl, rfl⟩

theorem isDue_iff {r : Record} {now : Instant} :
    r.isDue now = true ↔ r.deleteMarker = 0 ∧ r.action = .consume ∧ r.status = .retrying ∧
      ∃ t, r.nextRetryTime = some t ∧ t ≤ now := by
  unfold isDue
  cases r.nextRetryTime <;> simp [and_assoc]

theorem key_of_isDue {r : Record} {now : Instant} (h : r.isDue now = true) :
    r.key = .active r.eventId .consume r.ownerGroup := by
  obtain ⟨hmarker, haction, -, -⟩ := isDue_iff.mp h
  unfold key
  rw [hmarker, haction]
  rfl

/-- **All that a transition can do.**  It is a step of the lifecycle, and it changes the columns
of its kind besides status and time of update. -/
theorem transition_cases {r next : Record} {t : Transition} {now : Instant}
    (h : r.transition t now = .ok next) :
    r.status.canBecome t.status = true ∧
      next = { r.apply t with status := t.status, updateTime := now } := by
  unfold transition at h
  split at h
  · rename_i hs
    exact ⟨hs, (Except.ok.inj h).symm⟩
  · cases h

section Transition

variable {r next : Record} {t : Transition} {now : Instant}

theorem status_transition (h : r.transition t now = .ok next) : next.status = t.status := by
  rw [(transition_cases h).2]

theorem id_transition (h : r.transition t now = .ok next) : next.id = r.id := by
  rw [(transition_cases h).2]
  exact (apply_columns r t).1

theorem key_transition (h : r.transition t now = .ok next) : next.key = r.key := by
  rw [(transition_cases h).2]
  exact (apply_columns r t).2.1

theorem version_transition (h : r.transition t now = .ok next) : next.version = r.version := by
  rw [(transition_cases h).2]
  exact (apply_columns r t).2.2.1

theorem origin_transition (h : r.transition t now = .ok next) : next.origin = r.origin := by
  rw [(transition_cases h).2]
  exact (apply_columns r t).2.2.2

theorem transition_of_retrying (h : r.status = .retrying) (t : Transition) (now : Instant) :
    ∃ next, r.transition t now = .ok next := by
  unfold transition
  rw [h, if_pos (by cases t <;> rfl)]
  exact ⟨_, rfl⟩

theorem status_ne_created_of_transition (h : r.transition t now = .ok next) :
    next.status ≠ .created := by
  rw [status_transition h]
  cases t <;> simp [Transition.status]

end Transition

end Record

/-! ### Rows -/

namespace Store

variable {s s' : Store} {r : Record} {key : Key} {now : Instant}

theorem key_of_find? (h : s.find? key = some r) : r.key = key := by
  have := List.find?_some h
  simpa using this

theorem mem_of_find? (h : s.find? key = some r) : r ∈ s.rows :=
  List.mem_of_find?_eq_some h

theorem find?_eq_none_iff : s.find? key = none ↔ ∀ r ∈ s.rows, r.key ≠ key := by
  unfold find?
  rw [List.find?_eq_none]
  simp

/-! ### Creating -/

/-- **All that creating can do.**  A taken key gives its row back; a free one gets a new row with
the next number. -/
theorem create_cases (s : Store) (r : Record) :
    (∃ winner, s.find? r.key = some winner ∧ s.create r = (.existing winner, s)) ∨
      (s.find? r.key = none ∧ s.create r = (.created { r with id := s.lastId + 1 },
        ⟨s.rows ++ [{ r with id := s.lastId + 1 }], s.lastId + 1⟩)) := by
  unfold create
  cases h : s.find? r.key with
  | none => exact .inr ⟨rfl, rfl⟩
  | some winner => exact .inl ⟨winner, rfl, rfl⟩

theorem find?_append (s : Store) (r : Record) (key : Key) (last : Int) :
    (Store.mk (s.rows ++ [r]) last).find? key =
      (s.find? key).or (if r.key = key then some r else none) := by
  unfold find?
  rw [List.find?_append]
  by_cases h : r.key = key <;> simp [h]

/-! ### Updating -/

theorem find?_replace (s : Store) (r : Record) (key : Key) :
    (s.replace r).find? key = (s.find? key).map fun old => if r.key = key then r else old := by
  have hcomp : ((fun x : Record => decide (x.key = key)) ∘
      fun old => if old.key = r.key then r else old) = fun x => decide (x.key = key) := by
    funext old
    by_cases ho : old.key = r.key
    · simp [ho]
    · simp [ho]
  show List.find? _ (s.rows.map _) = _
  rw [List.find?_map, hcomp]
  show Option.map _ (s.find? key) = _
  cases h : s.find? key with
  | none => rfl
  | some old =>
    have hk := key_of_find? h
    by_cases ho : r.key = key
    · simp [hk, ho]
    · simp [hk, ho, Ne.symm ho]

theorem find?_replace_of_eq {old : Record} (hfind : s.find? key = some old) (hkey : r.key = key) :
    (s.replace r).find? key = some r := by
  rw [find?_replace, hfind]
  exact congrArg some (if_pos hkey)

theorem find?_replace_of_ne (hkey : r.key ≠ key) : (s.replace r).find? key = s.find? key := by
  rw [find?_replace]
  cases s.find? key with
  | none => rfl
  | some old => exact congrArg some (if_neg hkey)

theorem mem_replace {x : Record} (h : x ∈ (s.replace r).rows) :
    x = r ∨ x ∈ s.rows ∧ x.key ≠ r.key := by
  obtain ⟨old, hmem, rfl⟩ := List.mem_map.mp h
  by_cases ho : old.key = r.key
  · rw [if_pos ho]
    exact .inl rfl
  · rw [if_neg ho]
    exact .inr ⟨hmem, ho⟩

/-- **All that an update can do.**  An accepted copy has the version of the row under its key,
which is not finished, and takes its place; any other outcome leaves the ledger as it was. -/
theorem update_cases {done : Except Overflow Bool} (h : s.update r = (done, s')) :
    (∃ stored, s.find? r.key = some stored ∧ stored.version = r.version ∧
        stored.status.isTerminal = false ∧ done = .ok true ∧ s' = s.replace r.revised) ∨
      ((done = .ok false ∨ ∃ o, done = .error o) ∧ s' = s) := by
  unfold update at h
  split at h
  · cases h
    exact .inr ⟨.inl rfl, rfl⟩
  · rename_i stored hfind
    split at h
    · rename_i hguard
      split at h
      · rename_i next hnext
        cases h
        rw [Record.revise_eq_ok hnext]
        exact .inl ⟨stored, hfind, hguard.1, hguard.2, rfl, rfl⟩
      · rename_i o _
        cases h
        exact .inr ⟨.inr ⟨o, rfl⟩, rfl⟩
    · cases h
      exact .inr ⟨.inl rfl, rfl⟩

theorem update_of_revisable {stored : Record} (hfind : s.find? r.key = some stored)
    (hversion : stored.version = r.version) (hopen : stored.status.isTerminal = false)
    (hrevisable : r.Revisable) : s.update r = (.ok true, s.replace r.revised) := by
  unfold update
  simp only [hfind, hversion, hopen, and_self, if_true, Record.revise_of_revisable hrevisable]

theorem revisable_of_update (h : s.update r = (.ok true, s')) : r.Revisable := by
  unfold update at h
  split at h
  · cases h
  · split at h
    · split at h
      · rename_i next hnext
        exact Record.revisable_of_revise hnext
      · cases h
    · cases h

/-! ### Deleting -/

/-- The ledger after a row was filed under another key, where it displaces what is there. -/
def refile (s : Store) (old new : Record) : Store :=
  { s with rows := ((s.erase old.key).erase new.key).rows ++ [new] }

theorem mem_erase {x : Record} : x ∈ (s.erase key).rows ↔ x ∈ s.rows ∧ x.key ≠ key := by
  simp [erase]

theorem find?_erase (s : Store) (gone key : Key) :
    (s.erase gone).find? key = if gone = key then none else s.find? key := by
  unfold find? erase
  rw [List.find?_filter]
  by_cases h : gone = key
  · subst h
    rw [if_pos rfl, List.find?_eq_none]
    simp
  · rw [if_neg h]
    congr 1
    funext x
    by_cases hx : x.key = key
    · simp [hx, Ne.symm h]
    · simp [hx]

theorem mem_refile {old new x : Record} (h : x ∈ (s.refile old new).rows) :
    x = new ∨ x ∈ s.rows ∧ x.key ≠ old.key ∧ x.key ≠ new.key := by
  unfold refile at h
  rw [List.mem_append, mem_erase, mem_erase, List.mem_singleton] at h
  rcases h with ⟨⟨hmem, ho⟩, hn⟩ | rfl
  · exact .inr ⟨hmem, ho, hn⟩
  · exact .inl rfl

theorem find?_refile (s : Store) (old new : Record) (key : Key) :
    (s.refile old new).find? key =
      if new.key = key then some new else if old.key = key then none else s.find? key := by
  show (Store.mk (((s.erase old.key).erase new.key).rows ++ [new]) s.lastId).find? key = _
  rw [find?_append, find?_erase, find?_erase]
  by_cases hn : new.key = key
  · simp [hn]
  · by_cases ho : old.key = key <;> simp [hn, ho]

/-- **All that a deletion can do.**  An accepted one has the version of the row under the key,
which is marked and filed away.  Where the version cannot be counted up the row is lost. -/
theorem tombstone_cases {done : Except Overflow Bool} (h : s.tombstone r now = (done, s')) :
    (∃ stored, s.find? r.key = some stored ∧ stored.version = r.version ∧ done = .ok true ∧
        s' = s.refile stored (stored.deleted now).revised) ∨
      (done = .ok false ∧ s' = s ∧
        ∀ stored, s.find? r.key = some stored → stored.version ≠ r.version) ∨
      (∃ stored o, s.find? r.key = some stored ∧ stored.version = r.version ∧ done = .error o ∧
        (stored.version + 1 < leastInt64 ∨ greatestInt64 < stored.version + 1) ∧
        s' = s.erase r.key) := by
  unfold tombstone at h
  split at h
  · rename_i hnone
    cases h
    exact .inr (.inl ⟨rfl, rfl, fun stored hfind => by rw [hnone] at hfind; cases hfind⟩)
  · rename_i stored hfind
    have hk := key_of_find? hfind
    split at h
    · rename_i hversion
      simp only at h
      split at h
      · rename_i o herror
        cases h
        have hrange := Record.revise_eq_error herror
        rw [Record.version_deleted] at hrange
        exact .inr (.inr ⟨stored, o, hfind, hversion, rfl, hrange, rfl⟩)
      · rename_i marked hmarked
        cases h
        rw [Record.revise_eq_ok hmarked, ← hk]
        exact .inl ⟨stored, by rw [hk]; exact hfind, hversion, rfl, rfl⟩
    · rename_i hversion
      cases h
      refine .inr (.inl ⟨rfl, rfl, fun other hother => ?_⟩)
      rw [hfind] at hother
      rw [← Option.some.inj hother]
      exact hversion

/-- The row under a key is filed away by whoever names its version, if that can be counted up. -/
theorem tombstone_of_revisable {stored : Record} (hfind : s.find? r.key = some stored)
    (hversion : stored.version = r.version) (hrevisable : stored.Revisable) :
    s.tombstone r now = (.ok true, s.refile stored (stored.deleted now).revised) := by
  have hkey := key_of_find? hfind
  have hrevise : (stored.deleted now).revise = .ok (stored.deleted now).revised :=
    Record.revise_of_revisable (Record.revisable_of_version (stored.version_deleted now) hrevisable)
  unfold tombstone refile
  simp only [hfind, hversion, if_true, hrevise, hkey]
  rfl

/-! ### Selecting -/

theorem mem_due {limit : Nat} (h : r ∈ s.due now limit) : r ∈ s.rows ∧ r.isDue now = true := by
  have := List.mem_of_mem_take h
  rw [List.mem_mergeSort, List.mem_filter] at this
  exact this

theorem due_of_pairwise (limit : Nat)
    (h : (s.rows.filter (·.isDue now)).Pairwise fun a b => precedes a b = true) :
    s.due now limit = (s.rows.filter (·.isDue now)).take limit := by
  unfold due
  rw [List.mergeSort_of_pairwise h]

end Store

end EventRelay
