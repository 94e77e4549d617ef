import EventRelay.Consumer
import EventRelay.Proofs.Ledger.Rows
import EventRelay.Proofs.Work.Follows

/-!
# The course of a delivery

What a worker that delivers an event knows of the row of the event, and how it comes to know it.
`Consumer.Stage` are the positions of a delivery, `Consumer.Moves` all its moves, and
`Consumer.Ends` all its ends.  First and later deliveries and the abandoning of a row keep to this course
(`follows_deliver`, `follows_redeliver`, `follows_abandon`), so that whatever is preserved by the
moves is preserved by deliveries.

A copy of a row that a worker goes on with is part of its stage.  Between reading and writing the
ledger may move on; the stage does not notice.
-/

namespace EventRelay

/-- Why a handler's attempt failed, if it did. -/
def Verdict.reason? : Verdict → Option String
  | .ok => none
  | .failed reason => some reason
  | .panicked text => some ("handler panicked: " ++ text)

namespace Consumer

/-! ### Stages and moves -/

/-- How far the attempt of a worker has come that holds a row. -/
inductive Attempt where
  | pending
  | answered (verdict : Verdict)
  /-- The clock has been read since the handler's answer. -/
  | weighed (verdict : Verdict)
  /-- The row is to be given up without an attempt. -/
  | abandoned (reason : String)

/-- What a worker knows of the row of its event. -/
inductive Stage where
  /-- It has not looked yet; `again` on a later delivery. -/
  | seeking (again : Bool)
  | founding
  | reopening (r : Record)
  /-- The row is only created, and is to be taken over. -/
  | joining (r : Record)
  | holding (r : Record) (attempt : Attempt)
  /-- The row has failed for good, and is stored so. -/
  | notifying (stored : Record)
  | ended (outcome : Except Error Outcome)

namespace Stage

def hasEnded : Stage → Bool
  | .ended _ => true
  | _ => false

def tick? : Stage → Option Stage
  | .holding r (.answered verdict) | .holding r (.weighed verdict) =>
    some (.holding r (.weighed verdict))
  | .holding r attempt => some (.holding r attempt)
  | .founding => some .founding
  | .reopening r => some (.reopening r)
  | .joining r => some (.joining r)
  | .seeking _ | .notifying _ | .ended _ => none

theorem tick_cases {s s' : Stage} (h : s.tick? = some s') :
    (∃ r verdict, s = .holding r (.answered verdict) ∧ s' = .holding r (.weighed verdict)) ∨
      s' = s := by
  cases s with
  | holding r attempt =>
    cases attempt with
    | answered verdict =>
      cases h
      exact .inl ⟨r, verdict, rfl, rfl⟩
    | pending | weighed verdict | abandoned reason =>
      cases h
      exact .inr rfl
  | founding | reopening r | joining r =>
    cases h
    exact .inr rfl
  | seeking again | notifying stored | ended outcome => cases h

end Stage

variable (c : Consumer) (event : Event)

inductive Settles (r : Record) : Attempt → Transition → Outcome → Prop
  | unhandled :
      Settles r .pending (.failed ("no handler matched event type " ++ event.eventType)) .unhandled
  | succeeded {verdict : Verdict} (h : verdict.reason? = none) :
      Settles r (.weighed verdict) .succeeded .succeeded
  | rescheduled {verdict : Verdict} {reason : String} {now t : Instant}
      (h : verdict.reason? = some reason)
      (hallows : c.rule.allows r.retryTimes r.maxRetryTimes = true)
      (hcount : r.retryTimes < greatestNat32) (htime : c.rule.time now (r.retryTimes + 1) = .ok t) :
      Settles r (.weighed verdict)
        (.retryScheduled (r.retryTimes + 1) t (Message.truncate reason))
        (.rescheduled (r.retryTimes + 1) t)
  | exhausted {verdict : Verdict} {reason : String} (h : verdict.reason? = some reason)
      (hallows : c.rule.allows r.retryTimes r.maxRetryTimes = false) :
      Settles r (.weighed verdict) (.failed (Consumer.exhausted ++ Message.truncate reason)) .failed
  | abandoned {reason : String} :
      Settles r (.abandoned reason)
        (.failed ("replay aborted: " ++ Message.truncate reason)) .failed

/-- **The moves of a delivery.** -/
inductive Moves : Stage → (request : Request) → request.Reply → Stage → Prop
  | missing : Moves (.seeking true) (.find (c.key event.id)) (.ok none) (.ended (.ok .missing))
  | unknown : Moves (.seeking false) (.find (c.key event.id)) (.ok none) .founding
  | reopened {r : Record} (h : r.status = .failed) :
      Moves (.seeking false) (.find (c.key event.id)) (.ok (some r)) (.reopening r)
  | resumed {r : Record} (h : r.status = .retrying) :
      Moves (.seeking true) (.find (c.key event.id)) (.ok (some r)) (.holding r .pending)
  | met {again : Bool} {r : Record} (h : r.status = .created) :
      Moves (.seeking again) (.find (c.key event.id)) (.ok (some r)) (.joining r)
  | passed {again : Bool} {r : Record} (h : r.status ≠ .created)
      (hfailed : r.status = .failed → again = true)
      (hretrying : r.status = .retrying → again = false) :
      Moves (.seeking again) (.find (c.key event.id)) (.ok (some r))
        (.ended (.ok (.skipped r.status)))
  | created {payload : Bytes} {now : Instant} {r : Record}
      (h : c.codec.encode event.payload = .ok payload) :
      Moves .founding (.create (c.freshRecord event payload now)) (.ok (.created r))
        (.holding r .pending)
  | second {payload : Bytes} {now : Instant} {winner : Record}
      (h : c.codec.encode event.payload = .ok payload) (hstatus : winner.status = .created) :
      Moves .founding (.create (c.freshRecord event payload now)) (.ok (.existing winner))
        (.joining winner)
  | beaten {payload : Bytes} {now : Instant} {winner : Record}
      (h : c.codec.encode event.payload = .ok payload) (hstatus : winner.status ≠ .created) :
      Moves .founding (.create (c.freshRecord event payload now)) (.ok (.existing winner))
        (.ended (.ok (.skipped winner.status)))
  | freed {r : Record} {now : Instant} :
      Moves (.reopening r) (.tombstone r now) (.ok true) .founding
  | kept {r : Record} {now : Instant} :
      Moves (.reopening r) (.tombstone r now) (.ok false) (.ended (.ok (.skipped .failed)))
  | claimed {r next : Record} {lease now : Instant}
      (h : r.transition (.claimed (c.leaseUntil lease)) now = .ok next) :
      Moves (.joining r) (.update next) (.ok true) (.holding next.revised .pending)
  | unclaimed {r next : Record} {lease now : Instant}
      (h : r.transition (.claimed (c.leaseUntil lease)) now = .ok next) :
      Moves (.joining r) (.update next) (.ok false) (.ended (.ok (.skipped .created)))
  | questioned {r : Record} {slot : Nat} {reply : Except String Bool}
      (h : slot ∈ c.routes.candidates event.eventType) :
      Moves (.holding r .pending) (.accepts slot event) reply (.holding r .pending)
  | handled {r : Record} {slot : Nat} {verdict : Verdict}
      (h : slot ∈ c.routes.candidates event.eventType) :
      Moves (.holding r .pending) (.handle slot event) verdict (.holding r (.answered verdict))
  | concluded {r next : Record} {attempt : Attempt} {t : Transition} {outcome : Outcome}
      {now : Instant} (h : Settles c event r attempt t outcome) (hfailed : outcome ≠ .failed)
      (hnext : r.transition t now = .ok next) :
      Moves (.holding r attempt) (.update next) (.ok true) (.ended (.ok outcome))
  | gaveUp {r next : Record} {attempt : Attempt} {t : Transition} {now : Instant}
      (h : Settles c event r attempt t .failed) (hnext : r.transition t now = .ok next) :
      Moves (.holding r attempt) (.update next) (.ok true) (.notifying next.revised)
  | refused {r next : Record} {attempt : Attempt} {t : Transition} {outcome : Outcome}
      {now : Instant} (h : Settles c event r attempt t outcome)
      (hnext : r.transition t now = .ok next) :
      Moves (.holding r attempt) (.update next) (.ok false) (.ended (.ok .conflict))
  | consulted {stored : Record} {slot : Nat} {reply : Except String Bool} (h : slot ∈ c.chain) :
      Moves (.notifying stored) (.supports slot event.eventType) reply (.notifying stored)
  | notified {stored : Record} {slot : Nat} {reason : String} {verdict : Verdict}
      (h : slot ∈ c.chain) :
      Moves (.notifying stored) (.escalate slot event stored reason) verdict (.notifying stored)
  | clock {s s' : Stage} {now : Instant} (h : s.tick? = some s') : Moves s .now now s'
  | fault {s : Stage} {request : Request} {reply : request.Reply} {e : Error}
      (h : request.Fails reply e) (hs : s.hasEnded = false) :
      Moves s request reply (.ended (.error e))

inductive Ends : Stage → Except Error Outcome → Prop
  | ended {outcome : Except Error Outcome} : Ends (.ended outcome) outcome
  | unwritable {e : Error} (h : c.codec.encode event.payload = .error e) : Ends .founding (.error e)
  | barredJoin {r : Record} {t : Transition} {now : Instant} {e : Error}
      (h : r.transition t now = .error e) : Ends (.joining r) (.error e)
  | barred {r : Record} {attempt : Attempt} {t : Transition} {now : Instant} {e : Error}
      (h : r.transition t now = .error e) : Ends (.holding r attempt) (.error e)
  | notified {stored : Record} : Ends (.notifying stored) (.ok .failed)

/-- Where a delivery may crash: in a panic of user code that is not contained, and where a retry
cannot be counted or has no time. -/
inductive Crashes : Stage → String → Prop
  | questioning {r : Record} {text : String} : Crashes (.holding r .pending) text
  | counting {r : Record} {verdict : Verdict} {o : Overflow}
      (hallows : c.rule.allows r.retryTimes r.maxRetryTimes = true)
      (h : next32 r.retryTimes = .error o) : Crashes (.holding r (.answered verdict)) o.message
  | planning {r : Record} {verdict : Verdict} {now : Instant} {n : Nat} {fault : TimeFault}
      (h : c.rule.time now n = .error fault) : Crashes (.holding r (.weighed verdict)) fault.message
  | consulting {stored : Record} {text : String} : Crashes (.notifying stored) text

section Moves

variable {c event} {request : Request} {reply : request.Reply} {s' : Stage}

/-- **What concluding an attempt writes.**  Either one more retry is counted, of which the outcome
tells, or the row is finished. -/
theorem Settles.writes {r next : Record} {attempt : Attempt} {t : Transition} {outcome : Outcome}
    {now : Instant} (h : Settles c event r attempt t outcome)
    (hnext : r.transition t now = .ok next) :
    (next.retryTimes = r.retryTimes + 1 ∧ next.status = .retrying ∧
        c.rule.allows r.retryTimes r.maxRetryTimes = true ∧
        ∃ t', outcome = .rescheduled next.retryTimes t') ∨
      (next.retryTimes = r.retryTimes ∧ next.status.isTerminal = true ∧
        ∀ n t', outcome ≠ .rescheduled n t') := by
  rw [(Record.transition_cases hnext).2]
  cases h with
  | rescheduled h hallows hcount htime => exact .inl ⟨rfl, rfl, hallows, _, rfl⟩
  | unhandled => exact .inr ⟨rfl, rfl, fun _ _ h => by cases h⟩
  | succeeded h => exact .inr ⟨rfl, rfl, fun _ _ h => by cases h⟩
  | exhausted h hallows => exact .inr ⟨rfl, rfl, fun _ _ h => by cases h⟩
  | abandoned => exact .inr ⟨rfl, rfl, fun _ _ h => by cases h⟩

theorem Moves.of_reopening {r : Record} (h : Moves c event (.reopening r) request reply s') :
    request = .now ∨ (∃ now, request = .tombstone r now) ∨ ∃ e, request.Fails reply e := by
  cases h with
  | freed => exact .inr (.inl ⟨_, rfl⟩)
  | kept => exact .inr (.inl ⟨_, rfl⟩)
  | clock htick => exact .inl rfl
  | fault h hs => exact .inr (.inr ⟨_, h⟩)

theorem Moves.to_reopening {s : Stage} {r : Record}
    (h : Moves c event s request reply (.reopening r)) :
    s = .reopening r ∨ s = .seeking false ∧ r.status = .failed ∧
      (⟨request, reply⟩ : (q : Request) × q.Reply) = ⟨.find (c.key event.id), .ok (some r)⟩ := by
  cases h with
  | reopened hfailed => exact .inr ⟨rfl, hfailed, rfl⟩
  | clock htick =>
    rcases Stage.tick_cases htick with ⟨r', verdict, -, h⟩ | h
    · cases h
    · exact .inl h.symm

theorem not_moves_seeking {s : Stage} {again : Bool} :
    ¬ Moves c event s request reply (.seeking again) := by
  intro h
  cases h with
  | clock htick =>
    rcases Stage.tick_cases htick with ⟨r, verdict, -, h⟩ | rfl
    · cases h
    · cases htick

theorem Moves.to_rescheduled {s : Stage} {n : Nat} {t : Instant}
    (h : Moves c event s request reply (.ended (.ok (.rescheduled n t)))) :
    ∃ next : Record, next.retryTimes = n ∧
      (⟨request, reply⟩ : (q : Request) × q.Reply) = ⟨.update next, .ok true⟩ := by
  cases h with
  | concluded hsettles hfailed hnext =>
    rcases hsettles.writes hnext with ⟨-, -, -, t', hreport⟩ | ⟨-, -, hother⟩
    · cases hreport
      exact ⟨_, rfl, rfl⟩
    · exact absurd rfl (hother n t)
  | clock htick =>
    rcases Stage.tick_cases htick with ⟨r, verdict, -, hs⟩ | rfl
    · cases hs
    · cases htick

theorem not_moves_ended {outcome : Except Error Outcome} :
    ¬ Moves c event (.ended outcome) request reply s' := by
  intro h
  cases h with
  | clock htick => cases htick
  | fault h hs => cases hs

end Moves

def course : Course Stage where
  moves := Moves c event
  crashes := Crashes c

/-! ### Getting hold of a row -/

def Claimed : Stage → Except Error (Option Record) → Prop
  | s, .ok (some claimed) => s = .holding claimed .pending
  | s, .ok none => s = .ended (.ok (.skipped .created))
  | s, .error e => Ends c event s (.error e)

def Held : Stage → Except Error Hold → Prop
  | s, .ok (.owned r) => s = .holding r .pending
  | s, .ok (.busy status) => s = .ended (.ok (.skipped status))
  | s, .error e => Ends c event s (.error e)

theorem ends_fault {s : Stage} {request : Request} {reply : request.Reply} {e : Error}
    (h : request.Fails reply e) (hs : s.hasEnded = false) :
    ∃ s', Moves c event s request reply s' ∧ Ends c event s' (.error e) :=
  ⟨.ended (.error e), .fault h hs, .ended⟩

theorem follows_claim (r : Record) :
    (c.claim r).Follows (course c event) (Claimed c event) (.joining r) := by
  refine .ask fun lease => ⟨.joining r, .clock rfl, ?_⟩
  refine Work.follows_write (fun now => .clock rfl) (fun now e h => .barredJoin h) ?_
  intro now next hnext reply
  match reply with
  | .ok true => exact ⟨_, .claimed hnext, rfl⟩
  | .ok false => exact ⟨_, .unclaimed hnext, rfl⟩
  | .error e => exact ends_fault c event rfl rfl

theorem follows_join {r : Record} {s : Stage} (hcreated : r.status = .created → s = .joining r)
    (hother : r.status ≠ .created → s = .ended (.ok (.skipped r.status))) :
    (c.join r).Follows (course c event) (Held c event) s := by
  unfold join
  cases hstatus : r.status with
  | created =>
    rw [hcreated hstatus]
    refine (follows_claim c event r).onOk ?_ fun s' e hend => hend
    intro s' claimed? hs
    cases claimed? with
    | none => exact hs
    | some claimed => exact hs
  | retrying => exact (hother (by rw [hstatus]; decide)).trans (by rw [hstatus])
  | success => exact (hother (by rw [hstatus]; decide)).trans (by rw [hstatus])
  | failed => exact (hother (by rw [hstatus]; decide)).trans (by rw [hstatus])

theorem follows_found : (c.found event).Follows (course c event) (Held c event) .founding := by
  refine .ask fun now => ⟨.founding, .clock rfl, ?_⟩
  cases hpayload : c.codec.encode event.payload with
  | error e => exact .unwritable hpayload
  | ok payload =>
    refine .ask fun reply => ?_
    match reply with
    | .ok (.created r) => exact ⟨_, .created hpayload, rfl⟩
    | .ok (.existing winner) =>
      by_cases hstatus : winner.status = .created
      · exact ⟨_, .second hpayload hstatus, follows_join c event (fun _ => rfl)
          fun h => absurd hstatus h⟩
      · exact ⟨_, .beaten hpayload hstatus, follows_join c event (fun h => absurd h hstatus)
          fun _ => rfl⟩
    | .error e => exact ends_fault c event rfl rfl

theorem follows_reopen (r : Record) :
    (c.reopen event r).Follows (course c event) (Held c event) (.reopening r) := by
  refine .ask fun now => ⟨.reopening r, .clock rfl, .ask fun reply => ?_⟩
  match reply with
  | .ok true => exact ⟨_, .freed, follows_found c event⟩
  | .ok false => exact ⟨_, .kept, rfl⟩
  | .error e => exact ends_fault c event rfl rfl

theorem follows_acquire :
    (c.acquire event).Follows (course c event) (Held c event) (.seeking false) := by
  refine .ask fun reply => ?_
  match reply with
  | .ok none => exact ⟨_, .unknown, follows_found c event⟩
  | .ok (some r) =>
    by_cases hfailed : r.status = .failed
    · simp only [if_pos hfailed]
      exact ⟨_, .reopened hfailed, follows_reopen c event r⟩
    · simp only [if_neg hfailed]
      by_cases hcreated : r.status = .created
      · exact ⟨_, .met hcreated, follows_join c event (fun _ => rfl) fun h => absurd hcreated h⟩
      · exact ⟨_, .passed hcreated (fun h => absurd h hfailed) fun _ => rfl,
          follows_join c event (fun h => absurd h hcreated) fun _ => rfl⟩
  | .error e => exact ends_fault c event rfl rfl

/-! ### The attempt -/

section Attempt

variable {c event} {r : Record} {attempt attempt' : Attempt}

theorem follows_conclude {t : Transition} {outcome : Outcome}
    (htick : (Stage.holding r attempt).tick? = some (.holding r attempt'))
    (h : Settles c event r attempt' t outcome) (hfailed : outcome ≠ .failed) :
    (conclude r t outcome).Follows (course c event) (Ends c event) (.holding r attempt) := by
  refine Work.Follows.onOk (m := fun s result => match result with
    | .ok (some _) => s = .ended (.ok outcome)
    | .ok none => s = .ended (.ok .conflict)
    | .error e => Ends c event s (.error e)) ?_ ?_ fun s' e hend => hend
  · refine Work.follows_write (fun now => .clock htick) (fun now e h => .barred h) ?_
    intro now next hnext reply
    match reply with
    | .ok true => exact ⟨_, .concluded h hfailed hnext, rfl⟩
    | .ok false => exact ⟨_, .refused h hnext, rfl⟩
    | .error e => exact ends_fault c event rfl rfl
  · intro s' stored? hs
    cases stored? with
    | none => exact hs ▸ .ended
    | some stored => exact hs ▸ .ended

theorem follows_escalate (stored : Record) (reason : String) :
    (Escalation.escalate c.chain event stored reason).Follows (course c event)
      (fun s _ => s = .notifying stored) (.notifying stored) := by
  refine (Work.follows_firstThat fun slot hslot => ?_).bind fun s' found ⟨hs, hmem⟩ => ?_
  · refine .ask fun reply => ⟨_, .consulted hslot, rfl, fun text _ => .consulting⟩
  · subst hs
    cases found with
    | none => rfl
    | some slot => exact .ask fun verdict => ⟨_, .notified (hmem slot rfl), rfl⟩

theorem follows_giveUp {message : String}
    (htick : (Stage.holding r attempt).tick? = some (.holding r attempt'))
    (h : Settles c event r attempt' (.failed message) .failed) (reason : String) :
    (c.giveUp event r message reason).Follows (course c event) (Ends c event)
      (.holding r attempt) := by
  refine Work.Follows.onOk (m := fun s result => match result with
    | .ok (some stored) => s = .notifying stored
    | .ok none => s = .ended (.ok .conflict)
    | .error e => Ends c event s (.error e)) ?_ ?_ fun s' e hend => hend
  · refine Work.follows_write (fun now => .clock htick) (fun now e h => .barred h) ?_
    intro now next hnext reply
    match reply with
    | .ok true => exact ⟨_, .gaveUp h hnext, rfl⟩
    | .ok false => exact ⟨_, .refused h hnext, rfl⟩
    | .error e => exact ends_fault c event rfl rfl
  · intro s' stored? hs
    cases stored? with
    | none => exact hs ▸ .ended
    | some stored =>
      obtain rfl := hs
      exact (follows_escalate stored reason).bind fun s'' _ hs => hs ▸ .notified

theorem next32_eq_ok {n m : Nat} (h : next32 n = .ok m) : n < greatestNat32 ∧ m = n + 1 := by
  unfold next32 at h
  split at h
  · rename_i hlt
    exact ⟨hlt, (Except.ok.inj h).symm⟩
  · cases h

theorem follows_onFailure {verdict : Verdict} {reason : String}
    (h : verdict.reason? = some reason) :
    (c.onFailure event r reason).Follows (course c event) (Ends c event)
      (.holding r (.answered verdict)) := by
  unfold onFailure
  cases hallows : c.rule.allows r.retryTimes r.maxRetryTimes with
  | false => exact follows_giveUp rfl (.exhausted h hallows) reason
  | true =>
    rw [if_pos rfl]
    cases hnext : next32 r.retryTimes with
    | error o => exact .counting hallows hnext
    | ok n =>
      obtain ⟨hcount, rfl⟩ := next32_eq_ok hnext
      refine .ask fun now => ⟨.holding r (.weighed verdict), .clock rfl, ?_⟩
      cases htime : c.rule.time now (r.retryTimes + 1) with
      | error fault => exact .planning htime
      | ok t =>
        exact follows_conclude rfl (.rescheduled h hallows hcount htime) (by simp)

theorem follows_attempt (r : Record) :
    (c.attempt event r).Follows (course c event) (Ends c event) (.holding r .pending) := by
  refine (Work.follows_firstThat fun slot hslot => ?_).bind fun s' found ⟨hs, hmem⟩ => ?_
  · refine .ask fun reply => ⟨_, .questioned hslot, rfl, fun text _ => .questioning⟩
  · subst hs
    cases found with
    | none => exact follows_conclude rfl .unhandled (by decide)
    | some slot =>
      refine .ask fun verdict => ⟨_, .handled (hmem slot rfl), ?_⟩
      cases verdict with
      | ok => exact follows_conclude rfl (.succeeded rfl) (by decide)
      | failed reason => exact follows_onFailure rfl
      | panicked text => exact follows_onFailure rfl

end Attempt

/-! ### Deliveries -/

/-- **First deliveries keep to the course.** -/
theorem follows_deliver :
    (c.deliver event).Follows (course c event) (Ends c event) (.seeking false) := by
  refine (follows_acquire c event).onOk ?_ fun s' e hend => hend
  intro s' hold hheld
  cases hold with
  | owned r =>
    obtain rfl := hheld
    exact follows_attempt r
  | busy status => exact hheld ▸ .ended

theorem follows_redeliver :
    (c.redeliver event).Follows (course c event) (Ends c event) (.seeking true) := by
  refine .ask fun reply => ?_
  match reply with
  | .ok none => exact ⟨_, .missing, .ended⟩
  | .error e => exact ends_fault c event rfl rfl
  | .ok (some r) =>
    cases hstatus : r.status with
    | retrying =>
      refine ⟨_, .resumed hstatus, ?_⟩
      simp only [hstatus]
      exact follows_attempt r
    | created =>
      refine ⟨_, .met hstatus, ?_⟩
      simp only [hstatus]
      refine (follows_claim c event r).onOk ?_ fun s' e hend => hend
      intro s' claimed? hs
      cases claimed? with
      | none => exact hs ▸ .ended
      | some claimed =>
        obtain rfl := hs
        exact follows_attempt claimed
    | success =>
      refine ⟨_, .passed (by rw [hstatus]; decide) (fun _ => rfl) (fun h => ?_), ?_⟩
      · rw [hstatus] at h
        cases h
      · simp only [hstatus]
        exact .ended
    | failed =>
      refine ⟨_, .passed (by rw [hstatus]; decide) (fun _ => rfl) (fun h => ?_), ?_⟩
      · rw [hstatus] at h
        cases h
      · simp only [hstatus]
        exact .ended

theorem follows_abandon (r : Record) (reason : String) :
    (c.abandon r reason).Follows (course c (remains r)) (Ends c (remains r))
      (.holding r (.abandoned reason)) :=
  follows_giveUp rfl .abandoned reason

end Consumer

end EventRelay
