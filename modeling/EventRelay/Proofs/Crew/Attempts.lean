import Mathlib.Data.List.Nodup
import EventRelay.Proofs.Crew.Chart

/-!
# What a worker does once

A delivery creates one row at most, and calls one handler at most, whatever happens to it.  Both are
so because there is a part of its course that it leaves with what it does, and that it never comes
back to (`Consumer.Once`).  Of any such thing it follows, for all runs, that no worker does it twice
(`Chart.Done`).
-/

namespace EventRelay

def Entry.doer? (acts : (request : Request) → request.Reply → Bool) : Entry → Option Nat
  | .asked i request reply => if acts request reply then some i else none
  | .began _ | .crashed _ _ | .handedOut _ _ => none

def doers (acts : (request : Request) → request.Reply → Bool) (log : List Entry) : List Nat :=
  log.filterMap (Entry.doer? acts)

theorem doers_append (acts : (request : Request) → request.Reply → Bool) (log log' : List Entry) :
    doers acts (log ++ log') = doers acts log ++ doers acts log' :=
  List.filterMap_append

theorem doers_concat (acts : (request : Request) → request.Reply → Bool) (log : List Entry)
    (entry : Entry) : doers acts (log ++ [entry]) = doers acts log ++ (entry.doer? acts).toList := by
  rw [doers_append]
  rfl

theorem mem_doers_concat {acts : (request : Request) → request.Reply → Bool} {log : List Entry}
    {i : Nat} (h : i ∈ doers acts log) (entry : Entry) : i ∈ doers acts (log ++ [entry]) := by
  rw [doers_concat]
  exact List.mem_append_left _ h

theorem doers_concat_other {acts : (request : Request) → request.Reply → Bool} {log : List Entry}
    {entry : Entry} (h : entry.doer? acts = none) :
    doers acts (log ++ [entry]) = doers acts log := by
  rw [doers_concat, h]
  exact List.append_nil _

theorem doer?_asked {acts : (request : Request) → request.Reply → Bool} {i : Nat}
    {request : Request} {reply : request.Reply} (h : acts request reply = true) :
    (Entry.asked i request reply).doer? acts = some i :=
  if_pos h

theorem doers_concat_self {acts : (request : Request) → request.Reply → Bool} {log : List Entry}
    {i : Nat} {request : Request} {reply : request.Reply} (h : acts request reply = true) :
    doers acts (log ++ [.asked i request reply]) = doers acts log ++ [i] := by
  rw [doers_concat, doer?_asked h]
  rfl

theorem mem_doers_self {acts : (request : Request) → request.Reply → Bool} {log : List Entry}
    {i : Nat} {request : Request} {reply : request.Reply} (h : acts request reply = true) :
    i ∈ doers acts (log ++ [.asked i request reply]) := by
  rw [doers_concat_self h]
  exact List.mem_append_right _ (List.mem_singleton_self _)

theorem eq_of_doer? {acts : (request : Request) → request.Reply → Bool} {entry : Entry} {i : Nat}
    (h : entry.doer? acts = some i) :
    ∃ request reply, entry = .asked i request reply ∧ acts request reply = true := by
  cases entry with
  | asked j request reply =>
    by_cases hacts : acts request reply = true
    · rw [Entry.doer?, if_pos hacts] at h
      obtain rfl := Option.some.inj h
      exact ⟨request, reply, rfl, hacts⟩
    · rw [Entry.doer?, if_neg hacts] at h
      cases h
  | began errand => cases h
  | crashed j request => cases h
  | handedOut j rows => cases h

theorem mem_doers {acts : (request : Request) → request.Reply → Bool} {log : List Entry} {i : Nat}
    (h : i ∈ doers acts log) :
    ∃ request reply, Entry.asked i request reply ∈ log ∧ acts request reply = true := by
  obtain ⟨entry, hmem, hdoer⟩ := List.mem_filterMap.mp h
  obtain ⟨request, reply, rfl, hacts⟩ := eq_of_doer? hdoer
  exact ⟨request, reply, hmem, hacts⟩

/-- The part of the course of a delivery that is left by doing something, and not come back to.
Nobody else does it. -/
structure Consumer.Once (acts : (request : Request) → request.Reply → Bool)
    (ready : Consumer.Stage → Prop) : Prop where
  leaves : ∀ {c event s request reply s'}, Consumer.Moves c event s request reply s' →
    acts request reply = true → ready s ∧ ¬ ready s'
  stays : ∀ {c event s request reply s'}, Consumer.Moves c event s request reply s' → ready s' →
    ready s
  publishing : ∀ {p event s request reply s'}, Producer.Moves p event s request reply s' →
    acts request reply = false
  clock : ∀ now, acts .now now = false
  selecting : ∀ now limit reply, acts (.due now limit) reply = false

namespace Chart

structure Done (acts : (request : Request) → request.Reply → Bool) (ready : Consumer.Stage → Prop)
    (log : List Entry) (chart : Chart) : Prop where
  known : ∀ i ∈ doers acts log, i < chart.posts.length
  ready : ∀ (i : Nat) c event stage, chart.posts[i]? = some (.delivery c event stage) →
    ready stage → i ∉ doers acts log
  nodup : (doers acts log).Nodup

variable {acts : (request : Request) → request.Reply → Bool} {ready : Consumer.Stage → Prop}
  {log : List Entry} {chart chart' : Chart} {entry : Entry}

theorem Step.ready_of_doer (hact : Consumer.Once acts ready) (h : chart.Step entry chart') {i : Nat}
    (hi : entry.doer? acts = some i) :
    ∃ c event stage stage', chart.posts[i]? = some (.delivery c event stage) ∧ ready stage ∧
      chart'.posts[i]? = some (.delivery c event stage') ∧ ¬ ready stage' := by
  obtain ⟨request, reply, rfl, hacts⟩ := eq_of_doer? hi
  obtain ⟨post, post', hpost, hpost', -, hmove⟩ := h.of_asked
  cases hmove with
  | delivery hmove =>
    obtain ⟨hready, hpast⟩ := hact.leaves hmove hacts
    exact ⟨_, _, _, _, hpost, hready, hpost', hpast⟩
  | publication hmove => exact absurd ((hact.publishing hmove).symm.trans hacts) (by decide)
  | clock => exact absurd ((hact.clock _).symm.trans hacts) (by decide)
  | selected => exact absurd ((hact.selecting _ _ _).symm.trans hacts) (by decide)

theorem Done.step (hact : Consumer.Once acts ready) (h : Done acts ready log chart)
    (hstep : chart.Step entry chart') : Done acts ready (log ++ [entry]) chart' where
  known i hi := by
    rw [doers_concat, List.mem_append, Option.mem_toList] at hi
    rcases hi with hi | hi
    · exact Nat.lt_of_lt_of_le (h.known i hi) hstep.length_le
    · obtain ⟨_, _, _, _, -, -, hpost, -⟩ := hstep.ready_of_doer hact hi
      exact (List.getElem?_eq_some_iff.mp hpost).1
  ready i c event stage hpost hready hi := by
    rw [doers_concat, List.mem_append, Option.mem_toList] at hi
    rcases hi with hi | hi
    · have hlt := h.known i hi
      cases hstep.came hpost with
      | stayed hold hentry => exact h.ready i c event stage hold hready hi
      | moved hentry hold hreply hmove =>
        cases hmove with
        | delivery hmove => exact h.ready i c event _ hold (hact.stays hmove hready) hi
      | joined hpost hentry hj => omega
      | handed hpost hentry hsel hr hj => omega
      | emptied hpost hentry hsel => cases hpost
      | crashed hpost hentry => cases hpost
    · obtain ⟨_, _, _, stage', -, -, hpost', hpast⟩ := hstep.ready_of_doer hact hi
      rw [hpost] at hpost'
      cases hpost'
      exact hpast hready
  nodup := by
    rw [doers_concat]
    refine h.nodup.append ?_ fun i hi hdoer => ?_
    · cases entry.doer? acts with
      | none => exact List.nodup_nil
      | some i => exact List.nodup_singleton i
    · obtain ⟨_, _, _, _, hpost, hready, -⟩ :=
        hstep.ready_of_doer hact (Option.mem_toList.mp hdoer)
      exact h.ready i _ _ _ hpost hready hi

/-- **No worker does it twice.** -/
theorem Done.run (hact : Consumer.Once acts ready) {s : Store} {posts : List Post}
    (hrun : (Chart.mk s posts).Run log chart) : Done acts ready log chart := by
  induction hrun with
  | start => exact ⟨fun i hi => absurd hi List.not_mem_nil,
      fun i c event stage hpost hready => List.not_mem_nil, List.nodup_nil⟩
  | step prior hstep ih => exact ih.step hact hstep

end Chart

/-! ### Calling a handler, and creating a row -/

def Request.handles (eventId : String) : (request : Request) → request.Reply → Bool
  | .handle _ event, _ => event.id = eventId
  | _, _ => false

def Request.creates (key : Key) : (request : Request) → request.Reply → Bool
  | .create draft, .ok (.created _) => draft.key = key
  | _, _ => false

abbrev handlers (eventId : String) (log : List Entry) : List Nat :=
  doers (Request.handles eventId) log

theorem handlers_append (eventId : String) (log log' : List Entry) :
    handlers eventId (log ++ log') = handlers eventId log ++ handlers eventId log' :=
  doers_append _ log log'

abbrev creators (key : Key) (log : List Entry) : List Nat :=
  doers (Request.creates key) log

theorem handles_iff {eventId : String} {request : Request} {reply : request.Reply} :
    request.handles eventId reply = true ↔
      ∃ slot event, request = .handle slot event ∧ event.id = eventId := by
  constructor
  · intro h
    unfold Request.handles at h
    split at h
    · exact ⟨_, _, rfl, of_decide_eq_true h⟩
    · cases h
  · rintro ⟨slot, event, rfl, h⟩
    exact decide_eq_true h

theorem eq_of_creates {key : Key} {request : Request} {reply : request.Reply}
    (h : request.creates key reply = true) :
    ∃ draft r, draft.key = key ∧
      (⟨request, reply⟩ : (q : Request) × q.Reply) = ⟨.create draft, .ok (.created r)⟩ := by
  unfold Request.creates at h
  split at h
  · exact ⟨_, _, of_decide_eq_true h, rfl⟩
  · cases h

namespace Consumer

/-- A delivery that has not called a handler. -/
def Stage.Untried : Stage → Prop
  | .seeking _ | .founding | .reopening _ | .joining _ | .holding _ .pending => True
  | .holding _ _ | .notifying _ | .ended _ => False

/-- A delivery that has yet to get hold of a row, which it may create. -/
def Stage.Rowless : Stage → Prop
  | .seeking again => again = false
  | .founding | .reopening _ => True
  | .joining _ | .holding _ _ | .notifying _ | .ended _ => False

theorem Moves.rowless {c : Consumer} {event : Event} {s s' : Stage} {request : Request}
    {reply : request.Reply} (h : Moves c event s request reply s') (hs' : s'.Rowless) :
    s.Rowless := by
  cases h with
  | missing | passed | beaten | kept | unclaimed | concluded | refused | fault => exact hs'.elim
  | resumed | met | created | second | claimed | questioned | handled | gaveUp | consulted
  | notified => exact hs'.elim
  | unknown | reopened => rfl
  | freed => trivial
  | clock htick =>
    rcases Stage.tick_cases htick with ⟨r, verdict, rfl, rfl⟩ | rfl
    · exact hs'.elim
    · exact hs'

theorem once_handles (eventId : String) : Once (Request.handles eventId) Stage.Untried where
  leaves hmove hacts := by
    obtain ⟨slot, event, rfl, -⟩ := handles_iff.mp hacts
    cases hmove with
    | handled h => exact ⟨trivial, fun h => h⟩
    | fault hfails hs => exact hfails.elim
  stays hmove hready := by
    cases hmove with
    | missing | passed | beaten | kept | unclaimed | concluded | gaveUp | refused | consulted
    | notified | handled | fault => exact hready.elim
    | unknown | reopened | resumed | met | created | second | freed | claimed | questioned =>
      trivial
    | clock htick =>
      rcases Stage.tick_cases htick with ⟨r, verdict, -, rfl⟩ | rfl
      · exact hready.elim
      · exact hready
  publishing hmove := by cases hmove <;> rfl
  clock now := rfl
  selecting now limit reply := rfl

theorem once_creates {key : Key} (hkey : key.action = .consume) :
    Once (Request.creates key) Stage.Rowless where
  leaves hmove hacts := by
    obtain ⟨draft, r, -, hasked⟩ := eq_of_creates hacts
    cases hasked
    cases hmove with
    | created hpayload => exact ⟨trivial, fun h => h⟩
    | fault hfails hs => cases hfails
  stays hmove hready := hmove.rowless hready
  publishing hmove := by
    cases hmove with
    | @created now r =>
      refine decide_eq_false fun h => ?_
      rw [← h] at hkey
      cases hkey
    | duplicate | known | unable | sent | deferred | noted | sentUnrecorded | clock
    | clockNoting => rfl
  clock now := rfl
  selecting now limit reply := rfl

end Consumer

end EventRelay
