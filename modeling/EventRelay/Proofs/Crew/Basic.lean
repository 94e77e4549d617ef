import EventRelay.Producer
import EventRelay.Replay
import EventRelay.Proofs.Ledger.Keys
import EventRelay.Proofs.Work.Follows

/-!
# Crews

Any number of workers that share a ledger.  Each of them works off one errand, whose work is that of
`Consumer`, `Producer` and `Replayer`; whose turn it is, is open at every request.  A request to the
ledger is one atomic step, and it may fail without effect.  Whatever else is asked for, the clock,
the transport and user code, may be answered in any way.

`Crew.Run init log crew` says that a crew went from `init` to `crew` by the steps of `log`.  A
worker that never gets its turn again has been dropped, and a run may end anywhere.
-/

namespace EventRelay

inductive Report where
  | delivery (outcome : Except Error Consumer.Outcome)
  | publication (outcome : Producer.Outcome)
  | selection (p : Replayer) (rows : Except Error (List Record))

/-- What a worker is asked to do. -/
inductive Errand where
  | deliver (c : Consumer) (event : Event)
  | redeliver (c : Consumer) (event : Event)
  | publish (p : Producer) (event : Event)
  | scan (p : Replayer) (batch : Nat)
  | replay (p : Replayer) (r : Record)

def Errand.work : Errand → Work Report
  | .deliver c event => (c.deliver event).bind fun outcome => .done (.delivery outcome)
  | .redeliver c event => (c.redeliver event).bind fun outcome => .done (.delivery outcome)
  | .publish p event => (p.publish event).bind fun outcome => .done (.publication outcome)
  | .scan p batch => (p.select batch).bind fun rows => .done (.selection p rows)
  | .replay p r => (p.replay r).bind fun outcome => .done (.delivery outcome)

/-- The outcome of a delivery that has ended without an error. -/
def Work.outcome? : Work Report → Option Consumer.Outcome
  | .done (.delivery (.ok outcome)) => some outcome
  | _ => none

theorem Work.outcome?_eq_some {w : Work Report} {outcome : Consumer.Outcome} :
    w.outcome? = some outcome ↔ w = .done (.delivery (.ok outcome)) := by
  constructor
  · intro h
    unfold outcome? at h
    split at h
    · rw [Option.some.inj h]
    · cases h
  · rintro rfl
    rfl

/-! ### Steps -/

/-- The ledger answers a request.  What is not asked of the ledger may be answered in any way. -/
def Store.Answers (s : Store) : (r : Request) → r.Reply → Store → Prop
  | .find key, reply, s' => reply = .ok (s.find? key) ∧ s' = s
  | .create r, reply, s' => reply = .ok (s.create r).1 ∧ s' = (s.create r).2
  | .update r, reply, s' => ∃ done, s.update r = (.ok done, s') ∧ reply = .ok done
  | .tombstone r now, reply, s' => ∃ done, s.tombstone r now = (.ok done, s') ∧ reply = .ok done
  | .due now limit, reply, s' => reply = .ok (s.due now limit) ∧ s' = s
  | .now, _, s' | .send _, _, s' | .accepts _ _, _, s' | .handle _ _, _, s' => s' = s
  | .supports _ _, _, s' | .escalate _ _ _ _, _, s' => s' = s

/-- The ledger answers a request, or fails without effect. -/
def Store.Replies (s : Store) (r : Request) (reply : r.Reply) (s' : Store) : Prop :=
  s.Answers r reply s' ∨ (∃ e, r.Fails reply e) ∧ s' = s

/-- The ledger cannot count a version up, which crashes the worker. -/
def Store.Overflows (s : Store) : Request → Overflow → Store → Prop
  | .update r, o, s' => s.update r = (.error o, s')
  | .tombstone r now, o, s' => s.tombstone r now = (.error o, s')
  | _, _, _ => False

/-- A step of a crew. Workers are known by their places. -/
inductive Entry where
  | began (errand : Errand)
  | asked (worker : Nat) (request : Request) (reply : request.Reply)
  | crashed (worker : Nat) (request : Request)
  | handedOut (worker : Nat) (rows : List Record)

/-- A ledger, and what its workers have still to do. -/
structure Crew where
  store : Store
  jobs : List (Work Report)

namespace Crew

/-- **The steps of a crew.** -/
inductive Step : Crew → Entry → Crew → Prop
  | began {s : Store} {jobs : List (Work Report)} (errand : Errand) :
      Step ⟨s, jobs⟩ (.began errand) ⟨s, jobs ++ [errand.work]⟩
  | asked {s s' : Store} {jobs : List (Work Report)} {i : Nat} {request : Request}
      {next : request.Reply → Work Report} {reply : request.Reply}
      (hjob : jobs[i]? = some (.ask request next)) (h : s.Replies request reply s') :
      Step ⟨s, jobs⟩ (.asked i request reply) ⟨s', jobs.set i (next reply)⟩
  | crashed {s s' : Store} {jobs : List (Work Report)} {i : Nat} {request : Request}
      {next : request.Reply → Work Report} {o : Overflow}
      (hjob : jobs[i]? = some (.ask request next)) (h : s.Overflows request o s') :
      Step ⟨s, jobs⟩ (.crashed i request) ⟨s', jobs.set i (.crash o.message)⟩
  /-- A scan gives each of its rows to a worker. -/
  | handedOut {s : Store} {jobs : List (Work Report)} {i : Nat} {p : Replayer} {rows : List Record}
      (hjob : jobs[i]? = some (.done (.selection p (.ok rows)))) :
      Step ⟨s, jobs⟩ (.handedOut i rows)
        ⟨s, jobs.set i (.done (.selection p (.ok []))) ++
          rows.map fun r => (Errand.replay p r).work⟩

inductive Run (init : Crew) : List Entry → Crew → Prop
  | start : Run init [] init
  | step {log : List Entry} {crew crew' : Crew} {entry : Entry} (prior : Run init log crew)
      (h : Step crew entry crew') : Run init (log ++ [entry]) crew'

theorem Run.trans {init crew crew' : Crew} {log log' : List Entry} (h : Run init log crew)
    (h' : Run crew log' crew') : Run init (log ++ log') crew' := by
  induction h' with
  | start =>
    rw [List.append_nil]
    exact h
  | step prior hstep ih =>
    rw [← List.append_assoc]
    exact ih.step hstep

end Crew

/-! ### What entries tell -/

namespace Entry

def update? : Entry → Option (Nat × Record)
  | .asked i (.update r) (.ok true) => some (i, r)
  | _ => none

def deletion? : Entry → Option (Nat × Record)
  | .asked i (.tombstone r _) (.ok true) => some (i, r)
  | _ => none

def creation? : Entry → Option Record
  | .asked _ (.create _) (.ok (.created r)) => some r
  | _ => none

/-- The key under which a row was found and taken away. -/
def cleared? : Entry → Option Key
  | .asked _ (.tombstone r _) (.ok true) => some r.key
  | .crashed _ (.tombstone r _) => some r.key
  | _ => none

theorem eq_of_update? {e : Entry} {i : Nat} {r : Record} (h : e.update? = some (i, r)) :
    e = .asked i (.update r) (.ok true) := by
  unfold update? at h
  split at h
  · cases h
    rfl
  · cases h

theorem eq_of_creation? {e : Entry} {r : Record} (h : e.creation? = some r) :
    ∃ i draft, e = .asked i (.create draft) (.ok (.created r)) := by
  unfold creation? at h
  split at h
  · cases h
    exact ⟨_, _, rfl⟩
  · cases h

theorem eq_of_deletion? {e : Entry} {i : Nat} {r : Record} (h : e.deletion? = some (i, r)) :
    ∃ now, e = .asked i (.tombstone r now) (.ok true) := by
  unfold deletion? at h
  split at h
  · cases h
    exact ⟨_, rfl⟩
  · cases h

theorem of_cleared? {e : Entry} {key : Key} (h : e.cleared? = some key) :
    ∃ i r now, r.key = key ∧
      (e = .asked i (.tombstone r now) (.ok true) ∨ e = .crashed i (.tombstone r now)) := by
  unfold cleared? at h
  split at h
  · exact ⟨_, _, _, Option.some.inj h, .inl rfl⟩
  · exact ⟨_, _, _, Option.some.inj h, .inr rfl⟩
  · cases h

end Entry

def writes (log : List Entry) : List (Nat × Record) :=
  log.filterMap Entry.update?

theorem writes_concat (log : List Entry) (e : Entry) :
    writes (log ++ [e]) = writes log ++ e.update?.toList := by
  unfold writes
  rw [List.filterMap_append]
  cases h : e.update? <;> simp [h]

theorem writes_mono {part log : List Entry} (h : part ⊆ log) : writes part ⊆ writes log :=
  List.filterMap_subset _ h

theorem mem_writes_concat {log : List Entry} {i : Nat} {r : Record} :
    (i, r) ∈ writes (log ++ [.asked i (.update r) (.ok true)]) := by
  rw [writes_concat]
  exact List.mem_append_right _ (List.mem_singleton_self _)

/-- **All that an entry can do to the ledger.** -/
inductive Store.Effect (s : Store) : Entry → Store → Prop
  | unchanged {entry : Entry} (hupdate : entry.update? = none) (hcreation : entry.creation? = none)
      (hcleared : entry.cleared? = none) : Effect s entry s
  | created {i : Nat} {r : Record} (hfree : s.find? r.key = none) :
      Effect s (.asked i (.create r) (.ok (.created { r with id := s.lastId + 1 })))
        ⟨s.rows ++ [{ r with id := s.lastId + 1 }], s.lastId + 1⟩
  | updated {i : Nat} {r stored : Record} (hfind : s.find? r.key = some stored)
      (hversion : stored.version = r.version) (hactive : stored.status.isTerminal = false) :
      Effect s (.asked i (.update r) (.ok true)) (s.replace r.revised)
  | deleted {i : Nat} {r stored : Record} {now : Instant} (hfind : s.find? r.key = some stored)
      (hversion : stored.version = r.version) :
      Effect s (.asked i (.tombstone r now) (.ok true))
        (s.refile stored (stored.deleted now).revised)
  | lost {i : Nat} {r stored : Record} {now : Instant} (hfind : s.find? r.key = some stored)
      (hversion : stored.version = r.version) :
      Effect s (.crashed i (.tombstone r now)) (s.erase r.key)

section Effect

variable {s s' : Store} {request : Request} {i : Nat}

theorem Store.Replies.effect {reply : request.Reply} (h : s.Replies request reply s') :
    s.Effect (.asked i request reply) s' := by
  rcases h with h | ⟨⟨e, h⟩, rfl⟩
  · cases request with
    | now => exact h ▸ .unchanged rfl rfl rfl
    | send event => exact h ▸ .unchanged rfl rfl rfl
    | accepts slot event => exact h ▸ .unchanged rfl rfl rfl
    | handle slot event => exact h ▸ .unchanged rfl rfl rfl
    | supports slot eventType => exact h ▸ .unchanged rfl rfl rfl
    | escalate slot event record reason => exact h ▸ .unchanged rfl rfl rfl
    | find key =>
      obtain ⟨-, rfl⟩ := h
      exact .unchanged rfl rfl rfl
    | due now limit =>
      obtain ⟨-, rfl⟩ := h
      exact .unchanged rfl rfl rfl
    | create r =>
      obtain ⟨rfl, rfl⟩ := h
      rcases Store.create_cases s r with ⟨winner, -, hcreate⟩ | ⟨hfree, hcreate⟩
      · rw [hcreate]
        exact .unchanged rfl rfl rfl
      · rw [hcreate]
        exact .created hfree
    | update r =>
      obtain ⟨done, hupdate, rfl⟩ := h
      rcases Store.update_cases hupdate with
        ⟨stored, hfind, hversion, hactive, hdone, rfl⟩ | ⟨hdone, rfl⟩
      · cases hdone
        exact .updated hfind hversion hactive
      · rcases hdone with hdone | ⟨o, hdone⟩
        · cases hdone
          exact .unchanged rfl rfl rfl
        · cases hdone
    | tombstone r now =>
      obtain ⟨done, htombstone, rfl⟩ := h
      rcases Store.tombstone_cases htombstone with
        ⟨stored, hfind, hversion, hdone, rfl⟩ | ⟨hdone, rfl, -⟩ | ⟨-, o, -, -, hdone, -⟩
      · cases hdone
        exact .deleted hfind hversion
      · cases hdone
        exact .unchanged rfl rfl rfl
      · cases hdone
  · -- a call that failed is not among those that had an effect
    cases request <;> first | exact h.elim | (cases h; exact .unchanged rfl rfl rfl)

theorem Store.Overflows.effect {o : Overflow} (h : s.Overflows request o s') :
    s.Effect (.crashed i request) s' := by
  cases request with
  | update r =>
    rcases Store.update_cases h with ⟨stored, -, -, -, hdone, -⟩ | ⟨-, rfl⟩
    · cases hdone
    · exact .unchanged rfl rfl rfl
  | tombstone r now =>
    rcases Store.tombstone_cases h with
      ⟨stored, -, -, hdone, -⟩ | ⟨hdone, -⟩ | ⟨stored, o', hfind, hversion, -, -, rfl⟩
    · cases hdone
    · cases hdone
    · exact .lost hfind hversion
  | now => exact h.elim
  | find key => exact h.elim
  | create r => exact h.elim
  | due now limit => exact h.elim
  | send event => exact h.elim
  | accepts slot event => exact h.elim
  | handle slot event => exact h.elim
  | supports slot eventType => exact h.elim
  | escalate slot event record reason => exact h.elim

/-- A version that cannot be counted up hinders writing a row, which leaves the ledger as it was, and
deleting one. -/
theorem Store.Overflows.request_cases {o : Overflow} (h : s.Overflows request o s') :
    (∃ r, request = .update r ∧ s' = s) ∨ ∃ r now, request = .tombstone r now := by
  cases request with
  | update r =>
    rcases Store.update_cases h with ⟨stored, -, -, -, hdone, -⟩ | ⟨-, hs⟩
    · cases hdone
    · exact .inl ⟨r, rfl, hs⟩
  | tombstone r now => exact .inr ⟨r, now, rfl⟩
  | now | find | create | due | send | accepts | handle | supports | escalate => exact h.elim

theorem Crew.Step.replies {crew crew' : Crew} {reply : request.Reply}
    (h : crew.Step (.asked i request reply) crew') :
    crew.store.Replies request reply crew'.store := by
  cases h with
  | asked hjob h => exact h

theorem Crew.Step.effect {crew crew' : Crew} {entry : Entry} (h : crew.Step entry crew') :
    crew.store.Effect entry crew'.store := by
  cases h with
  | began errand => exact .unchanged rfl rfl rfl
  | asked hjob h => exact h.effect
  | crashed hjob h => exact h.effect
  | handedOut hjob => exact .unchanged rfl rfl rfl

theorem Store.Effect.keyed {e : Entry} (h : s.Effect e s') (hkeyed : s.Keyed) : s'.Keyed := by
  cases h with
  | unchanged => exact hkeyed
  | @created i r hfree =>
    exact hkeyed.concat (r := { r with id := s.lastId + 1 }) (Store.find?_eq_none_iff.mp hfree) _
  | @updated i r stored hfind hversion hopen => exact hkeyed.replace r.revised
  | @deleted i r stored now hfind hversion => exact hkeyed.refile stored _
  | @lost i r stored now hfind hversion => exact hkeyed.erase r.key

theorem Store.Effect.eq {e : Entry} (h : s.Effect e s') (hupdate : e.update? = none)
    (hcreation : e.creation? = none) (hcleared : e.cleared? = none) : s' = s := by
  cases h with
  | unchanged h1 h2 h3 => rfl
  | created hfree => cases hcreation
  | updated hfind hversion hactive => cases hupdate
  | deleted hfind hversion => cases hcleared
  | lost hfind hversion => cases hcleared

theorem Store.Effect.of_update {r : Record} (h : s.Effect (.asked i (.update r) (.ok true)) s') :
    ∃ stored, s.find? r.key = some stored ∧ stored.version = r.version ∧
      stored.status.isTerminal = false ∧ s' = s.replace r.revised := by
  cases h with
  | unchanged hupdate hcreation hcleared => cases hupdate
  | updated hfind hversion hactive => exact ⟨_, hfind, hversion, hactive, rfl⟩

theorem Store.Effect.of_deletion {r : Record} {now : Instant}
    (h : s.Effect (.asked i (.tombstone r now) (.ok true)) s') :
    ∃ stored, s.find? r.key = some stored ∧ stored.version = r.version ∧
      s' = s.refile stored (stored.deleted now).revised := by
  cases h with
  | unchanged hupdate hcreation hcleared => cases hcleared
  | deleted hfind hversion => exact ⟨_, hfind, hversion, rfl⟩

/-- **The frame of an entry.**  An active row stays as it is until its key is written or
cleared. -/
theorem Store.Effect.find_kept {e : Entry} (h : s.Effect e s') {key : Key} {row : Record}
    (hkey : key.deleteMarker = 0) (hfind : s.find? key = some row)
    (hupdate : ∀ w, e.update? = some w → w.2.key ≠ key) (hcleared : e.cleared? ≠ some key) :
    s'.find? key = some row := by
  cases h with
  | unchanged => exact hfind
  | created hfree =>
    rw [Store.find?_append, hfind]
    rfl
  | @updated i r stored hstored hversion hactive =>
    have hr : r.key ≠ key := hupdate (i, r) rfl
    rw [Store.find?_replace_of_ne (show r.revised.key ≠ key from hr), hfind]
  | @deleted i r stored now hstored hversion =>
    have hr : r.key ≠ key := fun hr => hcleared (congrArg some hr)
    rw [Store.find?_refile, if_neg (stored.key_deleted_ne now hkey), Store.key_of_find? hstored,
      if_neg hr, hfind]
  | @lost i r stored now hstored hversion =>
    have hr : r.key ≠ key := fun hr => hcleared (congrArg some hr)
    rw [Store.find?_erase, if_neg hr, hfind]

theorem Store.Effect.of_creation {e : Entry} (h : s.Effect e s') {r : Record}
    (hcreation : e.creation? = some r) : s.find? r.key = none ∧ s'.find? r.key = some r := by
  cases h with
  | unchanged hupdate hnone hcleared =>
    rw [hnone] at hcreation
    cases hcreation
  | @created i draft hfree =>
    obtain rfl := Option.some.inj hcreation
    refine ⟨hfree, ?_⟩
    rw [Store.find?_append, if_pos rfl]
    show (s.find? draft.key).or _ = _
    rw [hfree]
    rfl
  | updated hfind hversion hactive => cases hcreation
  | deleted hfind hversion => cases hcreation
  | lost hfind hversion => cases hcreation

theorem Store.Effect.key_of_creation {e : Entry} {draft r : Record} (h : s.Effect e s')
    (he : e = .asked i (.create draft) (.ok (.created r))) : r.key = draft.key := by
  cases h with
  | unchanged hupdate hcreation hcleared =>
    rw [he] at hcreation
    cases hcreation
  | created hfree =>
    cases he
    rfl
  | updated hfind hversion hactive => cases he
  | deleted hfind hversion => cases he
  | lost hfind hversion => cases he

theorem Store.Effect.find_none {e : Entry} (h : s.Effect e s') {key : Key}
    (hkey : key.deleteMarker = 0) (hfind : s.find? key = none)
    (hcreation : ∀ r, e.creation? = some r → r.key ≠ key) : s'.find? key = none := by
  cases h with
  | unchanged => exact hfind
  | @created i draft hfree =>
    rw [Store.find?_append, hfind, if_neg (hcreation _ rfl)]
    rfl
  | updated hstored hversion hactive =>
    rw [Store.find?_replace, hfind]
    rfl
  | @deleted i r stored now hstored hversion =>
    rw [Store.find?_refile, if_neg (stored.key_deleted_ne now hkey), hfind, ite_self]
  | lost hstored hversion => rw [Store.find?_erase, hfind, ite_self]

/-- **What becomes of an active row.**  Unless its key is cleared, the row is written, which it has
to be open for, or stays as it is. -/
theorem Store.Effect.find_next {e : Entry} (h : s.Effect e s') {key : Key} {row : Record}
    (hkey : key.deleteMarker = 0) (hfind : s.find? key = some row)
    (hcleared : e.cleared? ≠ some key) :
    (∃ i next, e = .asked i (.update next) (.ok true) ∧ next.key = key ∧
        row.version = next.version ∧ row.status.isTerminal = false ∧
          s'.find? key = some next.revised) ∨
      ((∀ w, e.update? = some w → w.2.key ≠ key) ∧ s'.find? key = some row) := by
  by_cases hwrite : ∃ i next, e.update? = some (i, next) ∧ next.key = key
  · obtain ⟨i, next, hupdate, hnext⟩ := hwrite
    obtain rfl := Entry.eq_of_update? hupdate
    obtain ⟨stored, hstored, hversion, hactive, rfl⟩ := h.of_update
    rw [hnext, hfind] at hstored
    obtain rfl := Option.some.inj hstored
    exact .inl ⟨i, next, rfl, hnext, hversion, hactive, Store.find?_replace_of_eq hfind hnext⟩
  · have hother : ∀ w, e.update? = some w → w.2.key ≠ key :=
      fun w hw hwkey => hwrite ⟨w.1, w.2, hw, hwkey⟩
    exact .inr ⟨hother, h.find_kept hkey hfind hother hcleared⟩

theorem Request.Fails.silent {reply : request.Reply} {e : Error} (h : request.Fails reply e)
    (i : Nat) : (Entry.asked i request reply).update? = none ∧
      (Entry.asked i request reply).creation? = none ∧
        (Entry.asked i request reply).cleared? = none := by
  cases request <;> first | exact h.elim | (cases h; exact ⟨rfl, rfl, rfl⟩)

theorem Store.Replies.found {key : Key} {found : Option Record}
    (h : s.Replies (.find key) (.ok found) s') : found = s.find? key ∧ s' = s := by
  rcases h with ⟨hfound, hs⟩ | ⟨⟨e, hfails⟩, -⟩
  · exact ⟨Except.ok.inj hfound, hs⟩
  · cases hfails

theorem Store.Replies.creation {r : Record} {creation : Creation}
    (h : s.Replies (.create r) (.ok creation) s') :
    (∃ winner, creation = .existing winner ∧ s.find? r.key = some winner) ∨
      creation = .created { r with id := s.lastId + 1 } := by
  rcases h with ⟨hcreation, -⟩ | ⟨⟨e, hfails⟩, -⟩
  · rcases Store.create_cases s r with ⟨winner, hfind, hcreate⟩ | ⟨-, hcreate⟩
    · rw [hcreate] at hcreation
      exact .inl ⟨winner, Except.ok.inj hcreation, hfind⟩
    · rw [hcreate] at hcreation
      exact .inr (Except.ok.inj hcreation)
  · cases hfails

end Effect

end EventRelay
