import EventRelay.Proofs.Alone.Basic
import EventRelay.Proofs.Consumer.Course
import EventRelay.Proofs.Retry.Delays

/-!
# The delivery of an event by a worker alone

The machine that a delivery is an implementation of.  First it comes to a row or is over
(`Consumer.Enters`): the row that it finds decides, and whether it is a first delivery.  A row that it
has come to is tried (`Consumer.Tries`): a handler is picked and called, and its verdict and the
retries that are left decide what becomes of the row.  Both are tables, with one line for each case,
of what is asked, of all columns that are written and of how the delivery ends.

`Consumer.gives_delivery` says that deliveries run through this machine, with whatever clock and
handlers, when nobody else is there, the ledger does not fail and the versions of the row can be
counted up.  What holds of all its lines holds of every delivery: one handler is called at most, it
comes to neither a conflict nor an error, and no other row changes.
-/

namespace EventRelay

open Work (Progress)

/-! ### What is asked -/

def acceptance (event : Event) (slot : Nat) (answer : Except String Bool) : Asked :=
  ⟨.accepts slot event, answer⟩

def support (eventType : String) (slot : Nat) (answer : Except String Bool) : Asked :=
  ⟨.supports slot eventType, answer⟩

def writing (next : Record) (now : Instant) : List Asked :=
  [⟨.now, now⟩, ⟨.update next, .ok true⟩]

/-- A row is created, and the ledger gives it its number. -/
def creating (row : Record) (now : Instant) : List Asked :=
  [⟨.now, now⟩, ⟨.create { row with id := 0 }, .ok (.created row)⟩]

def Store.extended (s : Store) (row : Record) : Store :=
  ⟨s.rows ++ [row], s.lastId + 1⟩

/-- The ledger after the final write of an attempt, if there was one. -/
def Store.settled (s : Store) : Option Record → Store
  | some final => s.replace final
  | none => s

/-- The numbers of a row that can be delivered: its version can be counted up twice, and the retries
it is allowed can be counted. -/
structure Record.HasRoom (r : Record) : Prop where
  least : leastInt64 ≤ r.version
  greatest : r.version + 2 ≤ greatestInt64
  retries : r.maxRetryTimes ≤ greatestNat32

namespace Record.HasRoom

variable {r : Record}

theorem revisable (h : r.HasRoom) : r.Revisable :=
  ⟨Int.le_trans h.least (by omega), Int.le_trans (by omega) h.greatest⟩

theorem revisable_again (h : r.HasRoom) {next : Record} (hversion : next.version = r.version + 1) :
    next.Revisable := by
  unfold Record.Revisable
  rw [hversion]
  exact ⟨Int.le_trans h.least (by omega), by have := h.greatest; omega⟩

end Record.HasRoom

theorem Store.find?_extended {s : Store} {row : Record} (hfree : s.find? row.key = none) :
    (s.extended row).find? row.key = some row := by
  unfold extended
  rw [find?_append, hfree, if_pos rfl]
  rfl

theorem Store.find?_extended_of_ne {s : Store} {row : Record} {key : Key} (hkey : row.key ≠ key) :
    (s.extended row).find? key = s.find? key := by
  unfold extended
  rw [find?_append, if_neg hkey, Option.or_none]

theorem Verdict.reason?_eq_none_iff {verdict : Verdict} :
    verdict.reason? = none ↔ verdict = .ok := by
  cases verdict <;> simp [reason?]

theorem Verdict.ne_ok_of_reason {verdict : Verdict} {reason : String}
    (h : verdict.reason? = some reason) : verdict ≠ .ok := by
  rintro rfl
  cases h

/-! ### The machine -/

/-- **How a chain of escalation handlers is run.**  The first one that supports the type is told. -/
inductive Escalation.Tells (chain : List Nat) (event : Event) (stored : Record) (reason : String) :
    List Asked → Progress Bool → Prop
  | nobody {asked : List Asked} (h : Picks (support event.eventType) chain asked (.ok none)) :
      Tells chain event stored reason asked (.done false)
  | told {asked : List Asked} {slot : Nat} {verdict : Verdict}
      (h : Picks (support event.eventType) chain asked (.ok (some slot))) :
      Tells chain event stored reason
        (asked ++ [⟨.escalate slot event stored reason, verdict⟩]) (.done true)
  | panicked {asked : List Asked} {text : String}
      (h : Picks (support event.eventType) chain asked (.error text)) :
      Tells chain event stored reason asked (.crashed text)

namespace Consumer

variable (c : Consumer) (event : Event)

def delivery (again : Bool) : Work (Except Error Outcome) :=
  if again then c.redeliver event else c.deliver event

def finding (row? : Option Record) : Asked :=
  ⟨.find (c.key event.id), .ok row?⟩

/-- The row for an event that nobody has tried, as the ledger creates it.  It has no retries yet, and
may have as many as the event allows, or else the configuration. -/
def created (payload : Bytes) (now : Instant) (s : Store) : Record where
  id := s.lastId + 1
  eventId := event.id
  action := .consume
  ownerGroup := c.config.ownerGroup
  ownerName := c.config.ownerName
  eventType := event.eventType
  status := .retrying
  payload := some payload
  message := none
  retryTimes := 0
  maxRetryTimes := event.maxRetryOverride.getD c.config.defaultMaxRetries
  nextRetryTime := some (c.leaseUntil now)
  version := 0
  deleteMarker := 0
  createTime := now
  updateTime := now

/-- The row of a worker that takes a created one over. -/
def claimed (row : Record) (lease now : Instant) : Record :=
  { row with status := .retrying, nextRetryTime := some (c.leaseUntil lease), updateTime := now }

/-- **How a delivery comes to a row**, or to its end without one. -/
inductive Enters (s : Store) : (again : Bool) → List Asked → Store → Outcome ⊕ Record → Prop
  | missing (h : s.find? (c.key event.id) = none) :
      Enters s true [c.finding event none] s (.inl .missing)
  | skipped {again : Bool} {row : Record} {status : Status}
      (h : s.find? (c.key event.id) = some row) (hstatus : row.status = status)
      (hpast : status = .success ∨ status = .failed ∧ again = true ∨
        status = .retrying ∧ again = false) :
      Enters s again [c.finding event (some row)] s (.inl (.skipped status))
  | founded {payload : Bytes} (now : Instant) (h : s.find? (c.key event.id) = none)
      (hpayload : c.codec.encode event.payload = .ok payload) :
      Enters s false
        (c.finding event none :: creating (c.created event payload now s) now)
        (s.extended (c.created event payload now s)) (.inr (c.created event payload now s))
  | reopened {row : Record} {payload : Bytes} (gone now : Instant)
      (h : s.find? (c.key event.id) = some row) (hfailed : row.status = .failed)
      (hpayload : c.codec.encode event.payload = .ok payload) :
      Enters s false
        (c.finding event (some row) :: ⟨.now, gone⟩ :: ⟨.tombstone row gone, .ok true⟩ ::
          creating (c.created event payload now s) now)
        ((s.refile row (row.deleted gone).revised).extended (c.created event payload now s))
        (.inr (c.created event payload now s))
  | claimed {again : Bool} {row : Record} (lease now : Instant)
      (h : s.find? (c.key event.id) = some row) (hcreated : row.status = .created) :
      Enters s again
        (c.finding event (some row) :: ⟨.now, lease⟩ :: writing (c.claimed row lease now) now)
        (s.replace (c.claimed row lease now).revised) (.inr (c.claimed row lease now).revised)
  | resumed {row : Record} (h : s.find? (c.key event.id) = some row)
      (hretrying : row.status = .retrying) :
      Enters s true [c.finding event (some row)] s (.inr row)

/-- **How a row is tried.**  What is written last is the row as it is stored then. -/
inductive Tries (b : Backoff) (row : Record) :
    List Asked → Option Record → Progress (Except Error Outcome) → Prop
  | panicked {asked : List Asked} {text : String}
      (h : Picks (acceptance event) (c.routes.candidates event.eventType) asked (.error text)) :
      Tries b row asked none (.crashed text)
  | unhandled {asked : List Asked} {now : Instant} {next : Record}
      (h : Picks (acceptance event) (c.routes.candidates event.eventType) asked (.ok none))
      (hnext : next = { row with
        status := .failed, nextRetryTime := none, updateTime := now,
        message := some ("no handler matched event type " ++ event.eventType) }) :
      Tries b row (asked ++ writing next now) (some next.revised) (.done (.ok .unhandled))
  | succeeded {asked : List Asked} {slot : Nat} {verdict : Verdict} {now : Instant} {next : Record}
      (h : Picks (acceptance event) (c.routes.candidates event.eventType) asked (.ok (some slot)))
      (hverdict : verdict.reason? = none)
      (hnext : next = { row with
        status := .success, message := none, nextRetryTime := none, updateTime := now }) :
      Tries b row (asked ++ ⟨.handle slot event, verdict⟩ :: writing next now) (some next.revised)
        (.done (.ok .succeeded))
  | rescheduled {asked : List Asked} {slot : Nat} {verdict : Verdict} {reason : String}
      {planned t now : Instant} {next : Record}
      (h : Picks (acceptance event) (c.routes.candidates event.eventType) asked (.ok (some slot)))
      (hreason : verdict.reason? = some reason) (hleft : row.retryTimes < row.maxRetryTimes)
      (htime : b.time planned (row.retryTimes + 1) = .ok t)
      (hnext : next = { row with
        status := .retrying, retryTimes := row.retryTimes + 1, nextRetryTime := some t,
        message := some (Message.truncate reason), updateTime := now }) :
      Tries b row (asked ++ ⟨.handle slot event, verdict⟩ :: ⟨.now, planned⟩ :: writing next now)
        (some next.revised) (.done (.ok (.rescheduled (row.retryTimes + 1) t)))
  | unplanned {asked : List Asked} {slot : Nat} {verdict : Verdict} {reason : String}
      {planned : Instant} {fault : TimeFault}
      (h : Picks (acceptance event) (c.routes.candidates event.eventType) asked (.ok (some slot)))
      (hreason : verdict.reason? = some reason) (hleft : row.retryTimes < row.maxRetryTimes)
      (htime : b.time planned (row.retryTimes + 1) = .error fault) :
      Tries b row (asked ++ [⟨.handle slot event, verdict⟩, ⟨.now, planned⟩]) none
        (.crashed fault.message)
  | exhausted {asked consulted : List Asked} {slot : Nat} {verdict : Verdict} {reason : String}
      {now : Instant} {next : Record} {told : Progress Bool}
      (h : Picks (acceptance event) (c.routes.candidates event.eventType) asked (.ok (some slot)))
      (hreason : verdict.reason? = some reason) (hnone : row.maxRetryTimes ≤ row.retryTimes)
      (hnext : next = { row with
        status := .failed, nextRetryTime := none, updateTime := now,
        message := some ("max retries exceeded: " ++ Message.truncate reason) })
      (htold : Escalation.Tells c.chain event next.revised reason consulted told) :
      Tries b row (asked ++ ⟨.handle slot event, verdict⟩ :: (writing next now ++ consulted))
        (some next.revised) (told.map fun _ => .ok .failed)

/-- Where getting hold of a row leads. -/
def Hold.entry : Hold → Outcome ⊕ Record
  | .owned row => .inr row
  | .busy status => .inl (.skipped status)

/-- **How an event is delivered.** -/
inductive Delivers (b : Backoff) (s : Store) (again : Bool) :
    List Asked → Store → Progress (Except Error Outcome) → Prop
  | ended {asked : List Asked} {s' : Store} {outcome : Outcome}
      (h : c.Enters event s again asked s' (.inl outcome)) :
      Delivers b s again asked s' (.done (.ok outcome))
  | tried {asked asked' : List Asked} {s' : Store} {row : Record} {final : Option Record}
      {progress : Progress (Except Error Outcome)}
      (h : c.Enters event s again asked s' (.inr row))
      (htries : c.Tries event b row asked' final progress) :
      Delivers b s again (asked ++ asked') (s'.settled final) progress

end Consumer

/-! ### The implementation -/

section Implementation

variable {s : Store} (cast : Cast) (history : List Asked)

/-- **A guarded write of a row that nobody else changes is accepted.** -/
theorem Record.gives_write {r : Record} {t : Transition} (hfind : s.find? r.key = some r)
    (hstep : r.status.canBecome t.status = true) (hopen : r.status.isTerminal = false)
    (hrevisable : r.Revisable) :
    ∃ now next, next = { r.apply t with status := t.status, updateTime := now } ∧
      (r.write t).Gives cast ⟨s, history⟩ (writing next now) (s.replace next.revised)
        (.done (.ok (some next.revised))) := by
  let now : Instant := cast history .now
  have hnext : r.transition t now = .ok { r.apply t with status := t.status, updateTime := now } := by
    unfold transition
    rw [if_pos hstep]
  have hversion := version_transition hnext
  have hupdate := Store.update_of_revisable (s := s) (key_transition hnext ▸ hfind) hversion.symm
    hopen (revisable_of_version hversion hrevisable)
  refine ⟨now, _, rfl, .clock ?_⟩
  rw [show r.transition t (cast history .now) = _ from hnext]
  exact .update hupdate .done

theorem Escalation.gives_escalate (chain : List Nat) (event : Event) (stored : Record)
    (reason : String) :
    ∃ asked told, Escalation.Tells chain event stored reason asked told ∧
      (Escalation.escalate chain event stored reason).Gives cast ⟨s, history⟩ asked s told := by
  have hasks : ∀ slot history, ∃ answer,
      (Work.request (.supports slot event.eventType)).Gives cast ⟨s, history⟩
        [support event.eventType slot answer] s (.done answer) :=
    fun slot history => ⟨_, .cue rfl rfl .done⟩
  obtain ⟨asked, ⟨found, hpicks, hgives⟩ | ⟨text, hpicks, hgives⟩⟩ :=
    Work.gives_firstThat hasks chain history
  · cases found with
    | none => exact ⟨_, _, .nobody hpicks, hgives.bind_done rfl⟩
    | some slot => exact ⟨_, _, .told hpicks, hgives.bind (.cue rfl rfl .done)⟩
  · exact ⟨_, _, .panicked hpicks, hgives.bind_crashed⟩

namespace Consumer

variable {c : Consumer} {event : Event} {b : Backoff} {row : Record}

theorem canBecome_of_retrying (hretrying : row.status = .retrying) (t : Transition) :
    row.status.canBecome t.status = true := by
  rw [hretrying]
  cases t <;> rfl

theorem gives_conclude (t : Transition) (outcome : Outcome) (hfind : s.find? row.key = some row)
    (hretrying : row.status = .retrying) (hrevisable : row.Revisable) :
    ∃ now next, next = { row.apply t with status := t.status, updateTime := now } ∧
      (conclude row t outcome).Gives cast ⟨s, history⟩ (writing next now) (s.replace next.revised)
        (.done (.ok outcome)) := by
  obtain ⟨now, next, hnext, hgives⟩ := Record.gives_write cast history hfind
    (canBecome_of_retrying hretrying t) (by rw [hretrying]; rfl) hrevisable
  exact ⟨now, next, hnext, hgives.bind_done rfl⟩

theorem gives_giveUp (message reason : String) (hfind : s.find? row.key = some row)
    (hretrying : row.status = .retrying) (hrevisable : row.Revisable) :
    ∃ now next consulted told,
      next = { row with
        status := .failed, nextRetryTime := none, updateTime := now, message := some message } ∧
      Escalation.Tells c.chain event next.revised reason consulted told ∧
      (c.giveUp event row message reason).Gives cast ⟨s, history⟩ (writing next now ++ consulted)
        (s.replace next.revised) (told.map fun _ => .ok .failed) := by
  obtain ⟨now, next, rfl, hwrite⟩ := Record.gives_write cast history hfind
    (canBecome_of_retrying hretrying (.failed message)) (by rw [hretrying]; rfl) hrevisable
  obtain ⟨consulted, told, htells, hescalate⟩ :=
    Escalation.gives_escalate cast (history ++ writing _ now) c.chain event _ reason
  exact ⟨now, _, consulted, told, rfl, htells, hwrite.onOk (hescalate.map _)⟩

theorem gives_onFailure {asked : List Asked} {slot : Nat} {verdict : Verdict} {reason : String}
    (hrule : c.rule = .backoff b) (hfind : s.find? row.key = some row)
    (hretrying : row.status = .retrying) (hrevisable : row.Revisable)
    (hmax : row.maxRetryTimes ≤ greatestNat32)
    (hpicks : Picks (acceptance event) (c.routes.candidates event.eventType) asked (.ok (some slot)))
    (hreason : verdict.reason? = some reason) :
    ∃ asked' final progress,
      c.Tries event b row (asked ++ ⟨.handle slot event, verdict⟩ :: asked') final progress ∧
      (c.onFailure event row reason).Gives cast ⟨s, history⟩ asked' (s.settled final) progress := by
  unfold onFailure
  rw [hrule]
  by_cases hleft : row.retryTimes < row.maxRetryTimes
  · have hnext : next32 row.retryTimes = .ok (row.retryTimes + 1) := by
      unfold next32
      rw [if_pos (Nat.lt_of_lt_of_le hleft hmax)]
    rw [if_pos (show RetryRule.allows (.backoff b) _ _ = true from decide_eq_true hleft), hnext]
    let planned : Instant := cast history .now
    cases htime : b.time planned (row.retryTimes + 1) with
    | ok t =>
      obtain ⟨now, next, hnext, hgives⟩ := gives_conclude cast (history ++ [⟨.now, planned⟩])
        (.retryScheduled (row.retryTimes + 1) t (Message.truncate reason))
        (.rescheduled (row.retryTimes + 1) t) hfind hretrying hrevisable
      refine ⟨_, _, _, .rescheduled hpicks hreason hleft htime hnext, .clock ?_⟩
      rw [show RetryRule.time (.backoff b) (cast history .now) _ = _ from htime]
      exact hgives
    | error fault =>
      refine ⟨_, _, _, .unplanned hpicks hreason hleft htime, .clock ?_⟩
      rw [show RetryRule.time (.backoff b) (cast history .now) _ = _ from htime]
      exact .crash
  · rw [if_neg (show ¬ RetryRule.allows (.backoff b) _ _ = true by
      simpa [RetryRule.allows] using hleft)]
    obtain ⟨now, next, consulted, told, hnext, htells, hgives⟩ :=
      gives_giveUp cast history (exhausted ++ Message.truncate reason) reason hfind hretrying
        hrevisable
    exact ⟨_, _, _, .exhausted hpicks hreason (Nat.le_of_not_lt hleft) hnext htells, hgives⟩

theorem gives_attempt (hrule : c.rule = .backoff b) (hfind : s.find? row.key = some row)
    (hretrying : row.status = .retrying) (hrevisable : row.Revisable)
    (hmax : row.maxRetryTimes ≤ greatestNat32) :
    ∃ asked final progress, c.Tries event b row asked final progress ∧
      (c.attempt event row).Gives cast ⟨s, history⟩ asked (s.settled final) progress := by
  have hasks : ∀ slot history, ∃ answer,
      (Work.request (.accepts slot event)).Gives cast ⟨s, history⟩
        [acceptance event slot answer] s (.done answer) :=
    fun slot history => ⟨_, .cue rfl rfl .done⟩
  obtain ⟨asked, ⟨found, hpicks, hgives⟩ | ⟨text, hpicks, hgives⟩⟩ :=
    Work.gives_firstThat hasks (c.routes.candidates event.eventType) history
  · cases found with
    | none =>
      obtain ⟨now, next, hnext, hconclude⟩ := gives_conclude cast (history ++ asked)
        (.failed ("no handler matched event type " ++ event.eventType)) .unhandled hfind hretrying
        hrevisable
      exact ⟨_, _, _, .unhandled hpicks hnext, hgives.bind hconclude⟩
    | some slot =>
      obtain ⟨verdict, hverdict⟩ :
        ∃ verdict : Verdict, cast (history ++ asked) (.handle slot event) = verdict := ⟨_, rfl⟩
      cases hreason : verdict.reason? with
      | none =>
        obtain rfl := Verdict.reason?_eq_none_iff.mp hreason
        obtain ⟨now, next, hnext, hconclude⟩ := gives_conclude cast
          (history ++ asked ++ [⟨.handle slot event, Verdict.ok⟩]) .succeeded .succeeded hfind
          hretrying hrevisable
        exact ⟨_, _, _, .succeeded hpicks rfl hnext, hgives.bind (.cue rfl hverdict hconclude)⟩
      | some reason =>
        obtain ⟨asked', final, progress, htries, hfailure⟩ := gives_onFailure cast
          (history ++ asked ++ [⟨.handle slot event, verdict⟩]) hrule hfind hretrying hrevisable hmax
          hpicks hreason
        refine ⟨_, final, progress, htries, hgives.bind (.cue rfl hverdict ?_)⟩
        cases verdict with
        | ok => cases hreason
        | failed text | panicked text =>
          cases hreason
          exact hfailure
  · exact ⟨_, _, _, .panicked hpicks, hgives.bind_crashed⟩

/-! #### Coming to a row -/

theorem gives_claim (hfind : s.find? row.key = some row) (hcreated : row.status = .created)
    (hrevisable : row.Revisable) :
    ∃ lease now, (c.claim row).Gives cast ⟨s, history⟩
      (⟨.now, lease⟩ :: writing (c.claimed row lease now) now)
      (s.replace (c.claimed row lease now).revised)
      (.done (.ok (some (c.claimed row lease now).revised))) := by
  let lease : Instant := cast history .now
  obtain ⟨now, next, rfl, hgives⟩ := Record.gives_write (t := .claimed (c.leaseUntil lease)) cast
    (history ++ [⟨.now, lease⟩]) hfind (by rw [hcreated]; rfl) (by rw [hcreated]; rfl) hrevisable
  exact ⟨lease, now, .clock hgives⟩

theorem gives_found {payload : Bytes} (hfree : s.find? (c.key event.id) = none)
    (hpayload : c.codec.encode event.payload = .ok payload) :
    ∃ now, (c.found event).Gives cast ⟨s, history⟩
      (creating (c.created event payload now s) now)
      (s.extended (c.created event payload now s))
      (.done (.ok (.owned (c.created event payload now s)))) := by
  refine ⟨cast history .now, ?_⟩
  unfold found
  simp only [hpayload]
  refine .clock (.create ?_ .done)
  rcases s.create_cases (c.freshRecord event payload (cast history .now)) with
    ⟨winner, hwinner, -⟩ | ⟨-, hcreate⟩
  · exact absurd (hwinner.symm.trans hfree) (by simp)
  · exact hcreate

/-- **First deliveries come to a row as the machine does.** -/
theorem gives_acquire {payload : Bytes} (hpayload : c.codec.encode event.payload = .ok payload)
    (hroom : ∀ row, s.find? (c.key event.id) = some row → row.HasRoom) :
    ∃ asked s' hold, c.Enters event s false asked s' hold.entry ∧
      (c.acquire event).Gives cast ⟨s, history⟩ asked s' (.done (.ok hold)) := by
  cases hfind : s.find? (c.key event.id) with
  | none =>
    obtain ⟨now, hfound⟩ := gives_found cast (history ++ [c.finding event none]) hfind hpayload
    exact ⟨_, _, .owned _, .founded now hfind hpayload, .find hfind hfound⟩
  | some row =>
    have hkey := Store.key_of_find? hfind
    cases hstatus : row.status with
    | created =>
      obtain ⟨lease, now, hclaim⟩ := gives_claim (c := c) cast
        (history ++ [c.finding event (some row)]) (hkey ▸ hfind) hstatus (hroom row hfind).revisable
      refine ⟨_, _, .owned _, .claimed lease now hfind hstatus, .find hfind ?_⟩
      simp only [hstatus, join]
      exact hclaim.bind_done rfl
    | retrying =>
      refine ⟨_, _, .busy .retrying, .skipped hfind hstatus (.inr (.inr ⟨rfl, rfl⟩)), ?_⟩
      refine .find hfind ?_
      simp only [hstatus, join]
      exact .done
    | success =>
      refine ⟨_, _, .busy .success, .skipped hfind hstatus (.inl rfl), .find hfind ?_⟩
      simp only [hstatus, join]
      exact .done
    | failed =>
      let gone : Instant := cast (history ++ [c.finding event (some row)]) .now
      have hdeleted : s.tombstone row gone = (.ok true, s.refile row (row.deleted gone).revised) :=
        Store.tombstone_of_revisable (hkey ▸ hfind) rfl (hroom row hfind).revisable
      have hfree : (s.refile row (row.deleted gone).revised).find? (c.key event.id) = none := by
        rw [Store.find?_refile, if_neg (row.key_deleted_ne gone rfl), if_pos hkey]
      obtain ⟨now, hfound⟩ := gives_found cast (history ++ [c.finding event (some row)] ++
        [⟨.now, gone⟩] ++ [⟨.tombstone row gone, .ok true⟩]) hfree hpayload
      refine ⟨_, _, .owned _, .reopened gone now hfind hstatus hpayload, .find hfind ?_⟩
      simp only [hstatus, if_true, reopen]
      exact .clock (.tombstone hdeleted hfound)

theorem Enters.held {again : Bool} {asked : List Asked} {s' : Store} {row : Record}
    (h : c.Enters event s again asked s' (.inr row))
    (hroom : ∀ row, s.find? (c.key event.id) = some row →
      row.status.isTerminal = false ∨ again = false → row.HasRoom)
    (hlimit : event.maxRetries c.config.defaultMaxRetries ≤ greatestNat32) :
    s'.find? row.key = some row ∧ row.key = c.key event.id ∧ row.status = .retrying ∧
      row.Revisable ∧ row.maxRetryTimes ≤ greatestNat32 := by
  have hfresh : ∀ payload now, (c.created event payload now s).Revisable := fun payload now =>
    show leastInt64 ≤ (0 : Int) + 1 ∧ (0 : Int) + 1 ≤ greatestInt64 by decide
  cases h with
  | founded now hfree hpayload =>
    exact ⟨Store.find?_extended hfree, rfl, rfl, hfresh _ now, hlimit⟩
  | @reopened old payload gone now hfind hfailed hpayload =>
    refine ⟨Store.find?_extended ?_, rfl, rfl, hfresh _ now, hlimit⟩
    show (s.refile old (old.deleted gone).revised).find? (c.key event.id) = none
    rw [Store.find?_refile, if_neg (old.key_deleted_ne gone rfl), if_pos (Store.key_of_find? hfind)]
  | @claimed again old lease now hfind hcreated =>
    have hkey := Store.key_of_find? hfind
    have hhas := hroom old hfind (.inl (by rw [hcreated]; rfl))
    exact ⟨Store.find?_replace_of_eq (hkey ▸ hfind) rfl, hkey, rfl, hhas.revisable_again rfl,
      hhas.retries⟩
  | resumed hfind hretrying =>
    have hkey := Store.key_of_find? hfind
    have hhas := hroom row hfind (.inl (by rw [hretrying]; rfl))
    exact ⟨hkey ▸ hfind, hkey, hretrying, hhas.revisable, hhas.retries⟩

/-! #### Deliveries -/

theorem gives_deliver {payload : Bytes} (hrule : c.rule = .backoff b)
    (hpayload : c.codec.encode event.payload = .ok payload)
    (hroom : ∀ row, s.find? (c.key event.id) = some row → row.HasRoom)
    (hlimit : event.maxRetries c.config.defaultMaxRetries ≤ greatestNat32) :
    ∃ asked s' progress, c.Delivers event b s false asked s' progress ∧
      (c.deliver event).Gives cast ⟨s, history⟩ asked s' progress := by
  obtain ⟨asked, s', hold, henters, hacquire⟩ := gives_acquire cast history hpayload hroom
  cases hold with
  | busy status => exact ⟨_, _, _, .ended henters, hacquire.bind_done rfl⟩
  | owned row =>
    obtain ⟨hfind, -, hretrying, hrevisable, hmax⟩ :=
      henters.held (fun row hfind _ => hroom row hfind) hlimit
    obtain ⟨asked', final, progress, htries, hattempt⟩ :=
      gives_attempt cast (history ++ asked) hrule hfind hretrying hrevisable hmax
    exact ⟨_, _, _, .tried henters htries, hacquire.onOk hattempt⟩

theorem gives_redeliver (hrule : c.rule = .backoff b)
    (hroom : ∀ row, s.find? (c.key event.id) = some row → row.status.isTerminal = false →
      row.HasRoom) (hlimit : event.maxRetries c.config.defaultMaxRetries ≤ greatestNat32) :
    ∃ asked s' progress, c.Delivers event b s true asked s' progress ∧
      (c.redeliver event).Gives cast ⟨s, history⟩ asked s' progress := by
  cases hfind : s.find? (c.key event.id) with
  | none => exact ⟨_, _, _, .ended (.missing hfind), .find hfind .done⟩
  | some row =>
    have hopen : ∀ old, s.find? (c.key event.id) = some old →
        old.status.isTerminal = false ∨ true = false → old.HasRoom := fun old hold h =>
      hroom old hold (h.resolve_right (by decide))
    cases hstatus : row.status with
    | success =>
      refine ⟨_, _, _, .ended (.skipped hfind hstatus (.inl rfl)), .find hfind ?_⟩
      simp only [hstatus]
      exact .done
    | failed =>
      refine ⟨_, _, _, .ended (.skipped hfind hstatus (.inr (.inl ⟨rfl, rfl⟩))), .find hfind ?_⟩
      simp only [hstatus]
      exact .done
    | retrying =>
      have henters : c.Enters event s true _ _ _ := .resumed hfind hstatus
      obtain ⟨hstored, -, -, hrevisable, hmax⟩ := henters.held hopen hlimit
      obtain ⟨asked, final, progress, htries, hattempt⟩ := gives_attempt cast
        (history ++ [c.finding event (some row)]) hrule hstored hstatus hrevisable hmax
      refine ⟨_, _, _, .tried henters htries, .find hfind ?_⟩
      simp only [hstatus]
      exact hattempt
    | created =>
      have hkey := Store.key_of_find? hfind
      have hhas := hroom row hfind (by rw [hstatus]; rfl)
      obtain ⟨lease, now, hclaim⟩ := gives_claim (c := c) cast
        (history ++ [c.finding event (some row)]) (hkey ▸ hfind) hstatus hhas.revisable
      have henters : c.Enters event s true _ _ _ := .claimed lease now hfind hstatus
      obtain ⟨hstored, -, hretrying, hrevisable, hmax⟩ := henters.held hopen hlimit
      have hattempts : ∃ asked final progress,
          c.Tries event b (c.claimed row lease now).revised asked final progress ∧ _ :=
        gives_attempt cast (history ++ [c.finding event (some row)] ++
          (⟨.now, lease⟩ :: writing (c.claimed row lease now) now)) hrule hstored hretrying
          hrevisable hmax
      obtain ⟨asked, final, progress, htries, hattempt⟩ := hattempts
      refine ⟨_, _, _, .tried henters htries, .find hfind ?_⟩
      simp only [hstatus]
      exact hclaim.onOk hattempt

/-- **Deliveries run through the machine**, the first one and later ones. -/
theorem gives_delivery (again : Bool) {payload : Bytes} (hrule : c.rule = .backoff b)
    (hpayload : c.codec.encode event.payload = .ok payload)
    (hroom : ∀ row, s.find? (c.key event.id) = some row → row.HasRoom)
    (hlimit : event.maxRetries c.config.defaultMaxRetries ≤ greatestNat32) :
    ∃ asked s' progress, c.Delivers event b s again asked s' progress ∧
      (c.delivery event again).Gives cast ⟨s, history⟩ asked s' progress := by
  cases again with
  | false => exact gives_deliver cast history hrule hpayload hroom hlimit
  | true => exact gives_redeliver cast history hrule (fun row hfind _ => hroom row hfind) hlimit

end Consumer

end Implementation

end EventRelay
