import EventRelay.Proofs.Daemon.Feeding
import EventRelay.Rehearsal.World

/-!
# A daemon in a rehearsal

The world of a rehearsal is wired as a daemon needs it (`Rehearsal.World.wired`), if its transport is
a channel, nothing is to go wrong with its ledger, and its handlers do not hand on events themselves.
So what is shown of a daemon that is fed holds in it.  Two events that go through a channel with room
for one are consumed if the daemon has its turn in time, and the first of them is lost if its turn
comes too late.
-/

namespace EventRelay.Rehearsal

def Behaviour.handsOn : Behaviour → Bool
  | .deliver _ _ _ => true
  | .succeed | .stall | .asPayload | .fail _ | .panic _ => false

/-- No call to a handler hands an event on. -/
def HandlerDouble.KeepsToItself (double : HandlerDouble) : Prop :=
  ∀ n, (double.script.at n).handsOn = false

namespace World

/-- The channel and the ledger of a world in which nothing goes wrong. -/
structure Shows (w : World) (b : Broadcast) (l : Store) : Prop where
  transport : w.transport = .channel b
  store : w.store = l
  faults : w.faults = []
  handlers : ∀ played ∈ w.handlers, played.1.KeepsToItself

variable {w : World} {b : Broadcast} {l l' : Store}

theorem ledgerCall_of_clear {α : Type} (hclear : w.faults = []) (call : LedgerCall)
    (key? : Option Key) (refusal? : Option α) (act : Store → Except Overflow α × Store) :
    w.ledgerCall call key? refusal? act =
      ((Work.Progress.ofChecked (act w.store).1).map .ok,
        { w with store := (act w.store).2, called := call :: w.called }) := by
  simp only [ledgerCall, meet, hclear, List.find?_nil, Option.map_none]

theorem answer_call (hclear : w.faults = []) (depth : Nat) {request : Request}
    {result : Except Overflow request.Reply} (h : w.store.serve request = some (result, l')) :
    ∃ called, answer depth request w =
      (Work.Progress.ofChecked result, { w with store := l', called := called }) := by
  cases request with
  | find key =>
    cases h
    exact ⟨.find :: w.called, by rw [answer, ledgerCall_of_clear hclear]; rfl⟩
  | create r =>
    cases h
    exact ⟨.create :: w.called, by rw [answer, ledgerCall_of_clear hclear]; rfl⟩
  | update r =>
    cases h
    refine ⟨.update :: w.called, ?_⟩
    rw [answer, ledgerCall_of_clear hclear]
    cases (w.store.update r).1 <;> rfl
  | tombstone r now =>
    cases h
    refine ⟨.tombstone :: w.called, ?_⟩
    rw [answer, ledgerCall_of_clear hclear]
    cases (w.store.tombstone r now).1 <;> rfl
  | due now limit =>
    cases h
    exact ⟨.due :: w.called, by rw [answer, ledgerCall_of_clear hclear]; rfl⟩
  | now => cases h
  | send event => cases h
  | accepts slot event => cases h
  | handle slot event => cases h
  | supports slot eventType => cases h
  | escalate slot event r reason => cases h

theorem Shows.handle (h : w.Shows b l) (reply : Work.Replies World) (slot : Nat) (event : Event) :
    (w.handle reply slot event).2.Shows b l := by
  unfold World.handle
  cases hslot : w.handlers[slot]? with
  | none => exact h
  | some played =>
    obtain ⟨double, consumer⟩ := played
    have hdouble := h.handlers _ (List.mem_of_getElem? hslot)
    have hown := hdouble double.calls
    have hkept : ({ w.note (.handle double.name event) with
        handlers := w.handlers.set slot ({ double with calls := double.calls + 1 }, consumer) } :
        World).Shows b l := by
      refine ⟨h.transport, h.store, h.faults, fun other hother => ?_⟩
      rcases List.mem_or_eq_of_mem_set hother with hother | rfl
      · exact h.handlers other hother
      · exact hdouble
    dsimp only
    cases hbehaviour : double.script.at double.calls with
    | deliver other again next =>
      rw [hbehaviour] at hown
      cases hown
    | succeed => exact hkept
    | stall => exact hkept
    | asPayload => exact hkept
    | fail causes => exact hkept
    | panic text? => exact hkept

theorem Shows.cue (h : w.Shows b l) (depth : Nat) {request : Request}
    (hcue : request.isCue = true) : (answer depth request w).2.Shows b l := by
  cases request with
  | accepts slot event =>
    rw [answer]
    exact h
  | supports slot eventType =>
    rw [answer]
    exact h
  | escalate slot event r reason =>
    rw [answer]
    unfold World.escalate
    cases w.escalations[slot]? with
    | none => exact h
    | some double => exact ⟨h.transport, h.store, h.faults, h.handlers⟩
  | handle slot event =>
    cases depth with
    | zero =>
      rw [answer]
      exact h
    | succ depth =>
      rw [answer]
      exact h.handle (answer depth) slot event
  | find key => cases hcue
  | create r => cases hcue
  | update r => cases hcue
  | tombstone r now => cases hcue
  | due now limit => cases hcue
  | now => cases hcue
  | send event => cases hcue

theorem answer_send (h : w.Shows b l) (depth : Nat) (event : Event) :
    answer depth (.send event) w =
      (.done (b.send event).1, { w with transport := .channel (b.send event).2 }) := by
  rw [answer]
  simp only [World.send, h.transport]

theorem answer_now (w : World) (depth : Nat) : answer depth .now w = (.done w.clock.now, w) := by
  rw [answer]

/-- **The world of a rehearsal is wired**, where nothing is to go wrong. -/
theorem wired : surroundings.Wired Shows where
  receive {w b l} h receiver := by
    refine ⟨{ w with transport := .channel (b.receive receiver).2 }, ?_, rfl, h.store, h.faults,
      h.handlers⟩
    simp only [surroundings, h.transport]
  waiting {w b l} h receiver := by
    simp only [surroundings, h.transport]
  now {w b l} h := ⟨w.clock.now, w, answer_now w depth, h⟩
  send {w b l} h event :=
    ⟨_, answer_send h depth event, rfl, h.store, h.faults, h.handlers⟩
  call {w b l l' request answered} h hserve := by
    rw [← h.store] at hserve
    obtain ⟨called, hcall⟩ := answer_call h.faults depth hserve
    exact ⟨_, hcall, h.transport, rfl, h.faults, h.handlers⟩
  overflow {w b l l' request o} h hserve := by
    rw [← h.store] at hserve
    obtain ⟨called, hcall⟩ := answer_call h.faults depth hserve
    exact ⟨_, hcall, h.transport, rfl, h.faults, h.handlers⟩
  cue {w b l request} h hcue := ⟨l, h.cue depth hcue, .refl l⟩

end World

/-! ### A channel with room for one event -/

def slip (id : String) : Event := ⟨id, "t", .null, default, none⟩

def sender : Producer := ⟨{}, .json⟩

/-- A consumer with one handler, which takes every event. -/
def clerk : Consumer := ⟨{}, .ofHandlers [⟨0, .all⟩], .backoff (.ofConfig {}), [], .json⟩

def listener : Daemon where
  config := { retryEnabled := false }
  consumer := clerk
  replayer := ⟨{}, clerk, .json⟩

def roomForOne : Broadcast := ⟨1, 0, [], [], 0⟩

theorem withRoom_one : Broadcast.withRoom 1 = roomForOne := by
  have hroom : Nat.nextPowerOfTwo 1 = 1 := by decide +kernel
  rw [Broadcast.withRoom, hroom, roomForOne]

theorem ofCapacity_one : Broadcast.ofCapacity 1 = .ok roomForOne := by
  have hroom : Nat.nextPowerOfTwo 1 = 1 := by decide +kernel
  have hfew : ¬ greatestInt64.toNat < 1 := by decide
  have hmemory : ¬ Broadcast.addressable ≤ 1 := by decide
  simp only [Broadcast.ofCapacity, hroom, Nat.one_ne_zero, hfew, hmemory, if_false, withRoom_one]

def narrow : World where
  clock := ⟨default⟩
  transport := .channel roomForOne
  handlers := [({ name := "h", types := .all }, clerk)]

def ready : Daemon × World := listener.turn World.surroundings narrow

def handed (id : String) (w : World) : World :=
  ((sender.publish (slip id)).run World.reply w).2

def taken (w : World) : World := (ready.1.turn World.surroundings w).2

theorem shows_ready : ready.2.Shows roomForOne.subscribe.2 .empty where
  transport := rfl
  store := rfl
  faults := rfl
  handlers := by
    intro played hplayed
    cases hplayed with
    | head => exact fun n => rfl
    | tail _ h => cases h

/-- The daemon has its turn after each publication. -/
def inTime : World := taken (handed "b" (taken (handed "a" ready.2)))

/-- The daemon has its turn after both publications. -/
def late : World := taken (handed "b" (handed "a" ready.2))

theorem hasPlace_ready : ready.1.held < ready.1.places := by decide

open Daemon.Act in
set_option maxRecDepth 10000 in
theorem course_inTime :
    Daemon.Course World.surroundings World.Shows 1 ready.1 ready.2
      [published (slip "a") .delivered, took (.ok (slip "a")), published (slip "b") .delivered,
        took (.ok (slip "b"))] ready.1 inTime := by
  have hfirst : Daemon.Takes World.surroundings 1 ready.1 (handed "a" ready.2) (.ok (slip "a"))
      ready.1 (taken (handed "a" ready.2)) := by
    apply Daemon.Takes.handled hasPlace_ready <;> rfl
  have hsecond : Daemon.Takes World.surroundings 1 ready.1
      (handed "b" (taken (handed "a" ready.2))) (.ok (slip "b")) ready.1 inTime := by
    apply Daemon.Takes.handled hasPlace_ready <;> rfl
  exact .took (.published (.took (.published .start (p := sender) rfl) hfirst) (p := sender) rfl)
    hsecond

set_option maxRecDepth 10000 in
/-- A daemon that has its turn after each publication consumes all of them. -/
theorem consumed_in_time :
    Daemon.KeptUp 1 [.published (slip "a") .delivered, .took (.ok (slip "a")),
        .published (slip "b") .delivered, .took (.ok (slip "b"))] ∧
      ∃ b l, inTime.Shows b l ∧ (l.find? (clerk.key "a")).isSome ∧
        (l.find? (clerk.key "b")).isSome := by
  have hholds : roomForOne.Holds [] := withRoom_one ▸ Broadcast.holds_withRoom 1
  obtain ⟨-, hgiven, b, l, hshows, hrows⟩ := Daemon.consumed_iff_keptUp World.wired shows_ready
    hholds.subscribe.1 hholds.subscribe.2 course_inTime rfl
  have hkept := hgiven.mp rfl
  have hnodup : [slip "a", slip "b"].Nodup := by simp [slip]
  have hwrites : ∀ event ∈ [slip "a", slip "b"], clerk.Writes event := by
    simp only [List.forall_mem_cons]
    exact ⟨⟨_, rfl⟩, ⟨_, rfl⟩, nofun⟩
  have hall := (hrows hnodup hwrites).mpr hkept
  exact ⟨hkept, b, l, hshows, (hall (slip "a") (.head _)).2,
    (hall (slip "b") (.tail _ (.head _))).2⟩

set_option maxRecDepth 10000 in
/-- **An event that was delivered and that nobody consumes.**  Two events are published before the
daemon gets its turn.  Both end as delivered, and the rows of both publications say so.  The daemon
keeps listening, nothing waits any more, but its handler has got the second event only.  There is no
row for consuming the first one, and nothing is ever due. -/
theorem overtaken_event_is_lost :
    Broadcast.ofCapacity 1 = .ok roomForOne ∧ ready.1.receiver? = some 1 ∧
      (sender.publish (slip "a")).run World.reply ready.2 = (.done .delivered, handed "a" ready.2) ∧
      (sender.publish (slip "b")).run World.reply (handed "a" ready.2) =
        (.done .delivered, handed "b" (handed "a" ready.2)) ∧
      ready.1.turn World.surroundings (handed "b" (handed "a" ready.2)) = (ready.1, late) ∧
      World.surroundings.waiting 1 late = 0 ∧
      late.log = [.handle "h" (slip "b")] ∧
      late.store.find? (clerk.key "a") = none ∧
      late.store.rows.map (fun r => (r.eventId, r.action, r.status)) =
          [("a", .publish, .success), ("b", .publish, .success), ("b", .consume, .success)] ∧
      ∀ now limit, late.store.due now limit = [] := by
  refine ⟨ofCapacity_one, rfl, rfl, rfl, rfl, rfl, rfl, rfl, rfl, fun now limit => ?_⟩
  have hnone : late.store.rows.filter (·.isDue now) = [] := rfl
  rw [Store.due, hnone, List.mergeSort_nil, List.take_nil]

end EventRelay.Rehearsal
