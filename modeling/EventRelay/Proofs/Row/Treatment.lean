import EventRelay.Proofs.Retry.Delays
import EventRelay.Proofs.Row.Tending

/-!
# How a scan treats a row

The replay of a row that waits for its retry, when nobody else writes the row.  It ends in one of
four ways (`Consumer.Leaves`): the attempt is settled and the row stored with what was settled, a call
of the ledger has failed, user code has panicked where nobody contains it, or no time could be planned
for another attempt.  There is no way in which a replay comes to an outcome and leaves its row as it
was, and none that ends in a conflict: this holds of rows from which no event can be made as it does
of the others (`Replayer.tends_replay`).
-/

namespace EventRelay

open Work (Progress)

namespace Consumer

/-- **How a replay leaves its row**, with the row as it was stored. -/
inductive Leaves (c : Consumer) (manner : Manner) (r : Record) :
    Option Record → Progress (Except Error Outcome) → Prop
  | settled {event : Event} {attempt : Attempt} {t : Transition} {outcome : Outcome} {now : Instant}
      {copy : Record} (h : c.Settles event r attempt t outcome)
      (hcopy : r.transition t now = .ok copy) :
      Leaves c manner r (some copy.revised) (.done (.ok outcome))
  | fault {e : Error} (h : manner.Faulty) : Leaves c manner r none (.done (.error e))
  | panicked {written? : Option Record} {text : String} (h : manner.Panicky) :
      Leaves c manner r written? (.crashed text)
  | uncounted {o : Overflow} (hallows : c.rule.allows r.retryTimes r.maxRetryTimes = true)
      (h : next32 r.retryTimes = .error o) : Leaves c manner r none (.crashed o.message)
  | unplanned {now : Instant} {fault : TimeFault}
      (hallows : c.rule.allows r.retryTimes r.maxRetryTimes = true)
      (h : c.rule.time now (r.retryTimes + 1) = .error fault) :
      Leaves c manner r none (.crashed fault.message)

/-! ### What was settled -/

section Settled

variable {c : Consumer} {event : Event} {r copy : Record} {attempt : Attempt} {t : Transition}
  {outcome : Outcome} {now : Instant}

/-- **A settled attempt moves its row on**: it is at its end, or waits with one retry more. -/
theorem Settles.moved (h : c.Settles event r attempt t outcome)
    (hcopy : r.transition t now = .ok copy) :
    copy.status.isTerminal = true ∨
      copy.status = .retrying ∧ copy.retryTimes = r.retryTimes + 1 := by
  obtain ⟨-, rfl⟩ := Record.transition_cases hcopy
  cases h with
  | unhandled | succeeded | exhausted | abandoned => exact .inl rfl
  | rescheduled => exact .inr ⟨rfl, rfl⟩

end Settled

/-! ### How replays end -/

section Ends

variable {c : Consumer} {manner : Manner} {r : Record} {written? : Option Record}

theorem Leaves.of_ok {outcome : Outcome}
    (h : c.Leaves manner r written? (.done (.ok outcome))) :
    ∃ event attempt t now copy, c.Settles event r attempt t outcome ∧
      r.transition t now = .ok copy ∧ written? = some copy.revised := by
  cases h with
  | settled h hcopy => exact ⟨_, _, _, _, _, h, hcopy, rfl⟩

theorem Leaves.faulty {e : Error} (h : c.Leaves manner r written? (.done (.error e))) :
    manner.Faulty := by
  cases h with
  | fault hfaulty => exact hfaulty

/-- **A replay crashes only where user code panics**, if retries are planned by exponential backoff
that does not turn back. -/
theorem Leaves.panicky {b : Backoff} {text : String} (hrule : c.rule = .backoff b)
    (hmultiplier : ¬ b.multiplier < 0.0) (hlimit : r.maxRetryTimes ≤ greatestNat32)
    (h : c.Leaves manner r written? (.crashed text)) : manner.Panicky := by
  cases h with
  | panicked hpanicky => exact hpanicky
  | uncounted hallows hnext =>
    rw [hrule] at hallows
    have hleft : r.retryTimes < r.maxRetryTimes := of_decide_eq_true hallows
    unfold next32 at hnext
    rw [if_pos (Nat.lt_of_lt_of_le hleft hlimit)] at hnext
    cases hnext
  | @unplanned now fault hallows htime =>
    rw [hrule] at htime
    obtain ⟨t, ht⟩ := b.time_ok hmultiplier now (r.retryTimes + 1)
    cases htime.symm.trans ht

end Ends

/-! ### The implementation -/

section Implementation

variable {c : Consumer} {manner : Manner} {event : Event} {r : Record} {attempt : Attempt}
  {t : Transition} {outcome : Outcome}

theorem tends_conclude (event : Event) (h : c.Settles event r attempt t outcome)
    (hretrying : r.status = .retrying) :
    (conclude r t outcome).Tends manner r (c.Leaves manner r) none := by
  refine (Work.Tends.write (Record.transition_of_retrying hretrying t)).onOk
    (fun written' stored? hwrite => ?_) (fun written' e hwrite => ?_) fun written' text hwrite => ?_
  · cases hwrite with
    | stored hcopy => exact .settled h hcopy
  · cases hwrite with
    | fault hfaulty => exact .fault hfaulty
  · cases hwrite

theorem tends_escalate {written? : Option Record} (chain : List Nat) (stored : Record)
    (reason : String) : (Escalation.escalate chain event stored reason).Tends manner r
      (manner.Spares written?) written? := by
  refine (Work.Tends.firstThat (fun slot => .supports slot event.eventType) chain).bind
    (fun written' found h => ?_) fun written' text h => ?_
  · cases h
    cases found with
    | none => exact .done false
    | some slot => exact .aside rfl fun _ _ => .done true
  · cases h with
    | panicked hpanicky => exact .panicked hpanicky

theorem tends_giveUp (event : Event) {message : String} (reason : String)
    (h : c.Settles event r attempt (.failed message) .failed) (hretrying : r.status = .retrying) :
    (c.giveUp event r message reason).Tends manner r (c.Leaves manner r) none := by
  refine (Work.Tends.write (Record.transition_of_retrying hretrying _)).onOk
    (fun written' stored? hwrite => ?_) (fun written' e hwrite => ?_) fun written' text hwrite => ?_
  · cases hwrite with
    | @stored now copy hcopy =>
      refine (tends_escalate c.chain copy.revised reason).bind (fun _ _ hspares => ?_)
        fun _ text hspares => ?_
      · cases hspares
        exact .settled h hcopy
      · cases hspares with
        | panicked hpanicky => exact .panicked hpanicky
  · cases hwrite with
    | fault hfaulty => exact .fault hfaulty
  · cases hwrite

theorem tends_onFailure (event : Event) (verdict : Verdict) {reason : String}
    (hreason : verdict.reason? = some reason) (hretrying : r.status = .retrying) :
    (c.onFailure event r reason).Tends manner r (c.Leaves manner r) none := by
  unfold onFailure
  cases hallows : c.rule.allows r.retryTimes r.maxRetryTimes with
  | false => exact tends_giveUp event reason (.exhausted hreason hallows) hretrying
  | true =>
    rw [if_pos rfl]
    cases hnext : next32 r.retryTimes with
    | error o => exact .uncounted hallows hnext
    | ok n =>
      obtain ⟨hcount, rfl⟩ := next32_eq_ok hnext
      refine .aside rfl fun now _ => ?_
      cases htime : c.rule.time now (r.retryTimes + 1) with
      | error fault => exact .unplanned hallows htime
      | ok t =>
        exact tends_conclude event (.rescheduled hreason hallows hcount htime) hretrying

theorem tends_attempt (hretrying : r.status = .retrying) :
    (c.attempt event r).Tends manner r (c.Leaves manner r) none := by
  refine (Work.Tends.firstThat (fun slot => .accepts slot event) _).bind
    (fun written' found h => ?_) fun written' text h => ?_
  · cases h
    cases found with
    | none => exact tends_conclude event .unhandled hretrying
    | some slot =>
      refine .aside rfl fun verdict _ => ?_
      cases verdict with
      | ok =>
        exact tends_conclude event (.succeeded (show Verdict.ok.reason? = none from rfl)) hretrying
      | failed reason => exact tends_onFailure event (.failed reason) rfl hretrying
      | panicked text => exact tends_onFailure event (.panicked text) rfl hretrying
  · cases h with
    | panicked hpanicky => exact .panicked hpanicky

theorem tends_redeliver (hretrying : r.status = .retrying) (hkey : r.key = c.key event.id) :
    (c.redeliver event).Tends manner r (c.Leaves manner r) none := by
  unfold redeliver
  rw [← hkey]
  refine ⟨.find, fun reply written' hgiven => ?_⟩
  cases hgiven with
  | aside hcall => cases hcall
  | fault hfails hmanner =>
    cases hfails
    exact .fault ⟨.find r.key, _, _, rfl, hmanner⟩
  | found =>
    simp only [hretrying]
    exact tends_attempt hretrying

end Implementation

end Consumer

/-- **A replay treats the row of its own group**, whether an event can be made from it or not. -/
theorem Replayer.tends_replay {p : Replayer} {manner : Manner} {r : Record}
    (hretrying : r.status = .retrying) (hkey : r.key = p.consumer.key r.eventId) :
    (p.replay r).Tends manner r (p.consumer.Leaves manner r) none := by
  unfold replay
  cases hrebuild : p.rebuild r with
  | ok event => exact Consumer.tends_redeliver hretrying ((rebuild_eq_ok hrebuild).1 ▸ hkey)
  | error e =>
    exact Consumer.tends_giveUp (Consumer.remains r) e.message .abandoned hretrying

end EventRelay
