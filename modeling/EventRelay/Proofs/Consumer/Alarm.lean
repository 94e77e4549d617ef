import EventRelay.Proofs.Consumer.Course
import EventRelay.Proofs.Work.History

/-!
# When escalation handlers are called

A delivery calls an escalation handler when it has given its row up and the ledger has taken that.
What its history says then is `Consumer.Warranted`: the accepted write of the failed row comes
first, then the questions to the chain in its order, which all but the last one declined, and
nothing in between.  Deliveries of both kinds and the abandoning of a row keep to this
(`alarmed_deliver`, `alarmed_redeliver`, `alarmed_abandon`), and unless they end as failed they have
called no escalation handler.
-/

namespace EventRelay.Consumer

/-- Why a row was given up: its retries are used up, or no event can be made from it. -/
inductive GivenUp (c : Consumer) (next : Record) (reason : String) : Prop
  | exhausted (hallows : c.rule.allows next.retryTimes next.maxRetryTimes = false)
      (hmessage : next.message = some (Consumer.exhausted ++ Message.truncate reason))
  | aborted (hmessage : next.message = some ("replay aborted: " ++ Message.truncate reason))

/-- An escalation handler does not support a type. -/
def refusal (eventType : String) (slot : Nat) : Asked :=
  ⟨.supports slot eventType, .ok false⟩

/-- The questions to a chain until the first handler that supports a type. -/
def consultation (eventType : String) (declined : List Nat) (slot : Nat) : List Asked :=
  declined.map (refusal eventType) ++ [⟨.supports slot eventType, .ok true⟩]

/-- **What warrants the call of an escalation handler.** -/
inductive Warranted (c : Consumer) : List Asked → Request → Prop
  | stored {earlier : List Asked} {next : Record} {event : Event} {declined rest : List Nat}
      {slot : Nat} {reason : String} (hstatus : next.status = .failed)
      (hcause : c.GivenUp next reason) (hchain : c.chain = declined ++ slot :: rest) :
      Warranted c
        (earlier ++ ⟨.update next, .ok true⟩ :: consultation event.eventType declined slot)
        (.escalate slot event next.revised reason)

/-- What a delivery that has ended tells of its history. -/
def Reported (history : List Asked) (outcome : Except Error Outcome) : Prop :=
  Silent history ∨ outcome = .ok .failed

/-! ### Getting hold of a row -/

theorem quiet_claim (c : Consumer) (r : Record) : (c.claim r).Quiet :=
  .ask rfl fun _ => Work.quiet_write r _

theorem quiet_join (c : Consumer) (r : Record) : (c.join r).Quiet := by
  unfold join
  cases r.status with
  | created =>
    refine (quiet_claim c r).onOk fun claimed? => ?_
    cases claimed? <;> trivial
  | retrying | success | failed => trivial

theorem quiet_found (c : Consumer) (event : Event) : (c.found event).Quiet := by
  refine .ask rfl fun now => ?_
  cases c.codec.encode event.payload with
  | error e => trivial
  | ok payload =>
    refine .ask rfl fun reply => ?_
    match reply with
    | .ok (.created r) => trivial
    | .ok (.existing winner) => exact quiet_join c winner
    | .error e => trivial

theorem quiet_reopen (c : Consumer) (event : Event) (r : Record) : (c.reopen event r).Quiet := by
  refine .ask rfl fun now => .ask rfl fun reply => ?_
  match reply with
  | .ok true => exact quiet_found c event
  | .ok false => trivial
  | .error e => trivial

theorem quiet_acquire (c : Consumer) (event : Event) : (c.acquire event).Quiet := by
  refine .ask rfl fun reply => ?_
  match reply with
  | .ok none => exact quiet_found c event
  | .ok (some r) =>
    by_cases hfailed : r.status = .failed
    · simp only [if_pos hfailed]
      exact quiet_reopen c event r
    · simp only [if_neg hfailed]
      exact quiet_join c r
  | .error e => trivial

theorem quiet_conclude (r : Record) (t : Transition) (outcome : Outcome) :
    (conclude r t outcome).Quiet := by
  refine (Work.quiet_write r t).onOk fun stored? => ?_
  cases stored? <;> trivial

/-! ### The attempt -/

section Attempt

variable {c : Consumer} {event : Event} {history : List Asked}

theorem alarmed_of_quiet {w : Work (Except Error Outcome)} (hw : w.Quiet) (h : Silent history) :
    w.Follows (Work.alarmed c.Warranted) Reported history :=
  (hw.follows h).mono fun _ _ hsilent => .inl hsilent

theorem alarmed_consult {before : List Asked} (hbefore : Silent before) (eventType : String)
    (declined rest : List Nat) (hchain : c.chain = declined ++ rest) :
    (Work.firstThat (fun slot => .request (.supports slot eventType)) rest).Follows
      (Work.alarmed c.Warranted)
      (fun history found => Silent history ∧ ∀ slot, found = some slot → ∃ declined rest,
        c.chain = declined ++ slot :: rest ∧
          history = before ++ consultation eventType declined slot)
      (before ++ declined.map (refusal eventType)) := by
  induction rest generalizing declined with
  | nil =>
    refine ⟨silent_append.mpr ⟨hbefore, ?_⟩, fun slot h => by cases h⟩
    exact List.forall_mem_map.mpr fun slot _ => rfl
  | cons slot rest ih =>
    have hsilent : Silent (before ++ declined.map (refusal eventType)) :=
      silent_append.mpr ⟨hbefore, List.forall_mem_map.mpr fun slot _ => rfl⟩
    refine .ask fun reply => ⟨_, Work.alarmed_quiet hsilent rfl reply, ?_⟩
    match reply with
    | .ok true =>
      refine ⟨hsilent.concat (.supports slot eventType) rfl _, fun other hother => ?_⟩
      obtain rfl := Option.some.inj hother
      exact ⟨declined, rest, hchain, List.append_assoc ..⟩
    | .ok false =>
      have hnext := ih (declined ++ [slot]) (by rw [hchain, List.append_assoc]; rfl)
      rw [List.map_append, ← List.append_assoc] at hnext
      exact hnext
    | .error text => exact hsilent.concat (.supports slot eventType) rfl _

/-- **Escalation handlers are called once a row is stored as given up.** -/
theorem alarmed_giveUp (h : Silent history) {r : Record} {message reason : String}
    (hcause : ∀ next now, r.transition (.failed message) now = .ok next → c.GivenUp next reason) :
    (c.giveUp event r message reason).Follows (Work.alarmed c.Warranted) Reported history := by
  refine Work.Follows.onOk (m := fun history result => Silent history ∧
    ∀ stored, result = .ok (some stored) → ∃ earlier next, next.status = .failed ∧
      c.GivenUp next reason ∧ stored = next.revised ∧
        history = earlier ++ [⟨.update next, .ok true⟩]) ?_ ?_
    fun history e hend => .inl hend.1
  · refine Work.follows_write (fun now => Work.alarmed_quiet h rfl now)
      (fun now e he => ⟨h.concat .now rfl now, fun stored hstored => by cases hstored⟩) ?_
    intro now next hnext reply
    have hsilent := h.concat .now rfl now
    refine ⟨_, Work.alarmed_quiet hsilent rfl reply, hsilent.concat (.update next) rfl reply,
      fun stored hstored => ?_⟩
    match reply with
    | .ok true =>
      cases hstored
      exact ⟨_, next, Record.status_transition hnext, hcause next now hnext, rfl, rfl⟩
    | .ok false => cases hstored
    | .error e => cases hstored
  · rintro history stored? ⟨hsilent, hstored⟩
    cases stored? with
    | none => exact .inl hsilent
    | some stored =>
      obtain ⟨earlier, next, hstatus, hcause, rfl, rfl⟩ := hstored stored rfl
      refine Work.Follows.bind (m := fun _ _ => True) ?_ fun _ _ _ => .inr rfl
      have hconsult := alarmed_consult hsilent event.eventType [] c.chain rfl
      rw [List.map_nil, List.append_nil] at hconsult
      refine hconsult.bind fun history found ⟨hsilent, hfound⟩ => ?_
      cases found with
      | none => trivial
      | some slot =>
        obtain ⟨declined, rest, hchain, rfl⟩ := hfound slot rfl
        refine .ask fun verdict => ⟨_, ⟨hsilent, fun _ => ?_, rfl⟩, trivial⟩
        rw [List.append_assoc]
        exact .stored hstatus hcause hchain

theorem alarmed_onFailure (h : Silent history) (r : Record) (reason : String) :
    (c.onFailure event r reason).Follows (Work.alarmed c.Warranted) Reported history := by
  unfold onFailure
  cases hallows : c.rule.allows r.retryTimes r.maxRetryTimes with
  | false =>
    refine alarmed_giveUp h fun next now hnext => ?_
    rw [(Record.transition_cases hnext).2]
    exact .exhausted hallows rfl
  | true =>
    rw [if_pos rfl]
    refine alarmed_of_quiet ?_ h
    cases next32 r.retryTimes with
    | error o => trivial
    | ok n =>
      refine .ask rfl fun now => ?_
      cases c.rule.time now n with
      | error fault => trivial
      | ok t => exact quiet_conclude r _ _

theorem alarmed_attempt (h : Silent history) (r : Record) :
    (c.attempt event r).Follows (Work.alarmed c.Warranted) Reported history := by
  have hquestion (slot : Nat) : (Work.request (.accepts slot event)).Quiet :=
    .ask rfl fun _ => trivial
  refine ((Work.quiet_firstThat hquestion).follows h).bind fun history found hsilent => ?_
  cases found with
  | none => exact alarmed_of_quiet (quiet_conclude r _ _) hsilent
  | some slot =>
    refine .ask fun verdict => ⟨_, Work.alarmed_quiet hsilent rfl verdict, ?_⟩
    have hsilent' := hsilent.concat (.handle slot event) rfl verdict
    cases verdict with
    | ok => exact alarmed_of_quiet (quiet_conclude r _ _) hsilent'
    | failed reason => exact alarmed_onFailure hsilent' r reason
    | panicked text => exact alarmed_onFailure hsilent' r _

end Attempt

/-! ### Deliveries -/

section Delivery

variable {history : List Asked} (h : Silent history)
include h

/-- **First deliveries call escalation handlers where it is warranted.** -/
theorem alarmed_deliver (c : Consumer) (event : Event) :
    (c.deliver event).Follows (Work.alarmed c.Warranted) Reported history := by
  refine ((quiet_acquire c event).follows h).onOk (fun history hold hsilent => ?_)
    fun history e hsilent => .inl hsilent
  cases hold with
  | owned r => exact alarmed_attempt hsilent r
  | busy status => exact .inl hsilent

theorem alarmed_redeliver (c : Consumer) (event : Event) :
    (c.redeliver event).Follows (Work.alarmed c.Warranted) Reported history := by
  refine .ask fun reply => ⟨_, Work.alarmed_quiet h rfl reply, ?_⟩
  have hsilent := h.concat (.find (c.key event.id)) rfl reply
  match reply with
  | .ok none => exact .inl hsilent
  | .error e => exact .inl hsilent
  | .ok (some r) =>
    cases hstatus : r.status with
    | retrying =>
      simp only [hstatus]
      exact alarmed_attempt hsilent r
    | created =>
      simp only [hstatus]
      refine ((quiet_claim c r).follows hsilent).onOk (fun history claimed? hsilent => ?_)
        fun history e hsilent => .inl hsilent
      cases claimed? with
      | none => exact .inl hsilent
      | some claimed => exact alarmed_attempt hsilent claimed
    | success | failed =>
      simp only [hstatus]
      exact .inl hsilent

theorem alarmed_abandon (c : Consumer) (r : Record) (reason : String) :
    (c.abandon r reason).Follows (Work.alarmed c.Warranted) Reported history := by
  refine alarmed_giveUp h fun next now hnext => ?_
  rw [(Record.transition_cases hnext).2]
  exact .aborted rfl

end Delivery

end EventRelay.Consumer
