import EventRelay.Proofs.Ledger.Rows
import EventRelay.Proofs.Log

/-!
# Histories of a ledger

A ledger is used by calls, one after the other.  `History log s` says that the calls of `log`, made
on an empty ledger, were answered as the log says and left `s`.  The log keeps the ledger in front
of each call, so that what a call did can be said of the log alone.

A record that a call gives back is a copy of a row, and it ages.  `HeldSince log copy` says that the
ledger gave `copy` back in `log` and that its key has not been deleted since.
-/

namespace EventRelay

namespace Store

/-! ### Calls -/

inductive Call where
  | find (key : Key)
  | create (r : Record)
  | update (r : Record)
  | tombstone (r : Record) (now : Instant)
  | due (now : Instant) (limit : Nat)

inductive Response where
  | rows (found : List Record)
  | creation (c : Creation)
  | changed (done : Except Overflow Bool)

/-- What a call gives back, and the ledger after it. -/
def perform (s : Store) : Call → Response × Store
  | .find key => (.rows (s.find? key).toList, s)
  | .create r => (.creation (s.create r).1, (s.create r).2)
  | .update r => (.changed (s.update r).1, (s.update r).2)
  | .tombstone r now => (.changed (s.tombstone r now).1, (s.tombstone r now).2)
  | .due now limit => (.rows (s.due now limit), s)

/-- A call as a log keeps it: with the ledger in front of it, and with its answer. -/
structure Exchange where
  before : Store
  call : Call
  response : Response

namespace Exchange

def returned (x : Exchange) : List Record :=
  match x.response with
  | .rows found => found
  | .creation c => [c.record]
  | .changed _ => []

def created? (x : Exchange) : Option Record :=
  match x.response with
  | .creation (.created r) => some r
  | _ => none

def written? (x : Exchange) : Option Record :=
  match x.call with
  | .update r | .tombstone r _ => some r
  | _ => none

def accepted (x : Exchange) : Bool :=
  match x.response with
  | .changed (.ok done) => done
  | _ => false

def deletes (x : Exchange) (key : Key) : Bool :=
  match x.call with
  | .tombstone r _ => x.accepted && r.key = key
  | _ => false

/-- Whether a row was lost: it was to be deleted, and its version could not be counted up. -/
def loses (x : Exchange) : Bool :=
  match x.call, x.response with
  | .tombstone _ _, .changed (.error _) => true
  | _, _ => false

end Exchange

def exchange (s : Store) (c : Call) : Exchange :=
  ⟨s, c, (s.perform c).1⟩

/-- **All that a call can do.** -/
inductive Performs (s : Store) : Call → Response → Store → Prop
  | found {key : Key} : Performs s (.find key) (.rows (s.find? key).toList) s
  | selected {now : Instant} {limit : Nat} :
      Performs s (.due now limit) (.rows (s.due now limit)) s
  | existing {r winner : Record} (hfind : s.find? r.key = some winner) :
      Performs s (.create r) (.creation (.existing winner)) s
  | created {r : Record} (hfree : s.find? r.key = none) :
      Performs s (.create r) (.creation (.created { r with id := s.lastId + 1 }))
        ⟨s.rows ++ [{ r with id := s.lastId + 1 }], s.lastId + 1⟩
  | updated {r stored : Record} (hfind : s.find? r.key = some stored)
      (hversion : stored.version = r.version) (hopen : stored.status.isTerminal = false) :
      Performs s (.update r) (.changed (.ok true)) (s.replace r.revised)
  | refused {r : Record} : Performs s (.update r) (.changed (.ok false)) s
  | overflowed {r : Record} {o : Overflow} : Performs s (.update r) (.changed (.error o)) s
  | deleted {r stored : Record} {now : Instant} (hfind : s.find? r.key = some stored)
      (hversion : stored.version = r.version) :
      Performs s (.tombstone r now) (.changed (.ok true))
        (s.refile stored (stored.deleted now).revised)
  | kept {r : Record} {now : Instant} : Performs s (.tombstone r now) (.changed (.ok false)) s
  | lost {r stored : Record} {now : Instant} {o : Overflow} (hfind : s.find? r.key = some stored)
      (hrange : stored.version + 1 < leastInt64 ∨ greatestInt64 < stored.version + 1) :
      Performs s (.tombstone r now) (.changed (.error o)) (s.erase r.key)

theorem performs (s : Store) (c : Call) : s.Performs c (s.perform c).1 (s.perform c).2 := by
  cases c with
  | find key => exact .found
  | due now limit => exact .selected
  | create r =>
    show s.Performs (.create r) (.creation (s.create r).1) (s.create r).2
    rcases create_cases s r with ⟨winner, hfind, hcreate⟩ | ⟨hfree, hcreate⟩
    · rw [hcreate]
      exact .existing hfind
    · rw [hcreate]
      exact .created hfree
  | update r =>
    obtain ⟨done, s', hupdate⟩ : ∃ done s', s.update r = (done, s') := ⟨_, _, rfl⟩
    show s.Performs (.update r) (.changed (s.update r).1) (s.update r).2
    rw [hupdate]
    rcases update_cases hupdate with
      ⟨stored, hfind, hversion, hopen, rfl, rfl⟩ | ⟨rfl | ⟨o, rfl⟩, rfl⟩
    · exact .updated hfind hversion hopen
    · exact .refused
    · exact .overflowed
  | tombstone r now =>
    obtain ⟨done, s', htombstone⟩ : ∃ done s', s.tombstone r now = (done, s') := ⟨_, _, rfl⟩
    show s.Performs (.tombstone r now) (.changed (s.tombstone r now).1) (s.tombstone r now).2
    rw [htombstone]
    rcases tombstone_cases htombstone with
      ⟨stored, hfind, hversion, rfl, rfl⟩ | ⟨rfl, rfl, -⟩ | ⟨stored, o, hfind, -, rfl, hrange, rfl⟩
    · exact .deleted hfind hversion
    · exact .kept
    · exact .lost hfind hrange

/-- A ledger and the log of the calls that made it what it is. -/
inductive History : List Exchange → Store → Prop
  | empty : History [] .empty
  | call {log : List Exchange} {s : Store} (prior : History log s) (c : Call) :
      History (log ++ [s.exchange c]) (s.perform c).2

def created (log : List Exchange) : List Record :=
  log.filterMap (·.created?)

/-- A record that was given back is a copy of a row until its key is deleted. -/
def HeldSince (log : List Exchange) (copy : Record) : Prop :=
  ∃ before x since, log = before ++ x :: since ∧ copy ∈ x.returned ∧
    ∀ y ∈ since, y.deletes copy.key = false

theorem heldSince_concat {log : List Exchange} {x : Exchange} {copy : Record} :
    HeldSince (log ++ [x]) copy ↔
      copy ∈ x.returned ∨ HeldSince log copy ∧ x.deletes copy.key = false := by
  constructor
  · rintro ⟨before, y, since, hlog, hmem, hsince⟩
    rcases concat_eq_append_cons.mp hlog with ⟨rfl, rfl, rfl⟩ | ⟨since', rfl, rfl⟩
    · exact .inl hmem
    · refine .inr ⟨⟨before, y, since', rfl, hmem, fun z hz => hsince z ?_⟩, hsince x ?_⟩
      · exact List.mem_append_left _ hz
      · exact List.mem_append_right _ (List.mem_singleton_self x)
  · rintro (hmem | ⟨⟨before, y, since, rfl, hmem, hsince⟩, hx⟩)
    · exact ⟨log, x, [], rfl, hmem, fun _ hz => absurd hz List.not_mem_nil⟩
    · refine ⟨before, y, since ++ [x], by simp, hmem, fun z hz => ?_⟩
      rcases List.mem_append.mp hz with hz | hz
      · exact hsince z hz
      · rw [List.mem_singleton.mp hz]
        exact hx

end Store

end EventRelay
