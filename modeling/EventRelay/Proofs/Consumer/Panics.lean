import EventRelay.Proofs.Retry.Delays
import EventRelay.Proofs.Row.Conditions
import EventRelay.Proofs.Work.Panics

/-!
# Panics that come out of deliveries and scans

Whether user code can bring a delivery or a scan down.  A handler that panics while it handles an
event cannot, nor an escalation handler that is told of a row: the panic of the first is treated as
a failure, and that of the second as nothing.  But a panic with which user code answers whether it
takes an event, or supports a type, comes out of the delivery, and of the scan with all its rows.  By
then the row is already held, or has failed (`Replayer.panics_escape_iff`).

There is one lemma for each function of the consumer, in their order.  What is needed of a row is that
its retries can be counted, and rows keep this when they are claimed (`Record.Within`).
-/

namespace EventRelay

open Work (Progress)

/-! ### Rows and rules -/

/-- The retries of a row, and how many it may have, are within limits. -/
def Record.Within (limits : Nat → Nat → Prop) (r : Record) : Prop :=
  limits r.retryTimes r.maxRetryTimes

def Request.rows : (request : Request) → request.Reply → List Record
  | .find _, reply =>
    match reply with
    | .ok (some r) => [r]
    | .ok none | .error _ => []
  | .create _, reply =>
    match reply with
    | .ok creation => [creation.record]
    | .error _ => []
  | .due _ _, reply =>
    match reply with
    | .ok rows => rows
    | .error _ => []
  | .now, _ | .update _, _ | .tombstone _ _, _ | .send _, _ => []
  | .accepts _ _, _ | .handle _ _, _ | .supports _ _, _ | .escalate _ _ _ _, _ => []

def Heard.rows : Heard → List Record
  | ⟨request, .done reply⟩ => request.rows reply
  | ⟨_, .crashed _⟩ | ⟨_, .stalled⟩ => []

def Request.Yields (limits : Nat → Nat → Prop) : Manner := fun request reply =>
  ∀ r ∈ request.rows reply, r.Within limits

theorem Heard.fits_of_rows {limits : Nat → Nat → Prop} {x : Heard}
    (h : ∀ r ∈ x.rows, r.Within limits) : x.Fits (Request.Yields limits) := by
  obtain ⟨request, came⟩ := x
  intro reply hcame
  cases came with
  | done reply' =>
    obtain rfl : reply' = reply := Progress.done.inj hcame
    exact h
  | crashed | stalled => cases hcame

/-- The numbers of retries as the ledger has them: they have 32 bits. -/
def Limits32 (_retryTimes maxRetryTimes : Nat) : Prop :=
  maxRetryTimes ≤ greatestNat32

/-- A rule falters at a row if it allows another retry and the retry cannot be counted, or has no
time. -/
def RetryRule.Falters (rule : RetryRule) (limits : Nat → Nat → Prop) (text : String) : Prop :=
  ∃ n limit, limits n limit ∧ rule.allows n limit = true ∧
    ((∃ o, next32 n = .error o ∧ text = o.message) ∨
      ∃ k now fault, next32 n = .ok k ∧ rule.time now k = .error fault ∧ text = fault.message)

/-- A rule that plans whatever it allows. -/
def RetryRule.Plans (rule : RetryRule) : Prop :=
  ∀ text, ¬ rule.Falters Limits32 text

/-- **Exponential backoff plans whatever it allows**, if its multiplier is not negative. -/
theorem Backoff.plans {b : Backoff} (h : ¬ b.multiplier < 0.0) : (RetryRule.backoff b).Plans := by
  rintro text ⟨n, limit, hlimit, hallows, hfault⟩
  have hless : n < limit := of_decide_eq_true hallows
  have hnext : next32 n = .ok (n + 1) := if_pos (Nat.lt_of_lt_of_le hless hlimit)
  rcases hfault with ⟨o, hcount, -⟩ | ⟨k, now, fault, -, htime, -⟩
  · rw [hnext] at hcount
    cases hcount
  · obtain ⟨t, ht⟩ := b.time_ok h now k
    rw [show (RetryRule.backoff b).time now k = b.time now k from rfl, ht] at htime
    cases htime

theorem RetryRule.plans_of_ofConfig {c : RetryConfig} {rule : RetryRule}
    (h : RetryRule.ofConfig c none = .ok rule) : rule.Plans := by
  cases rule with
  | backoff b => exact b.plans (RetryRule.multiplier_of_ofConfig h)
  | schedule s =>
    unfold RetryRule.ofConfig at h
    split at h
    · cases hvalid : c.validate <;> rw [hvalid] at h <;> cases h
    · cases h

/-! ### Deliveries -/

section Deliveries

variable {limits : Nat → Nat → Prop} {falters : String → Prop}

theorem Escalation.contains_escalate (chain : List Nat) (event : Event) (r : Record)
    (reason : String) :
    (escalate chain event r reason).Contains (Request.Yields limits) falters fun _ => True := by
  refine (Work.Contains.firstThat (fun slot next => .supports slot event.eventType) chain).bind
    fun found _ => ?_
  cases found with
  | none => exact trivial
  | some slot => exact fun reply _ => ⟨trivial, fun reply' _ => rfl⟩

namespace Consumer

variable (c : Consumer) (event : Event) {r : Record}

/-- Work of a consumer that contains panics and falters only as its rule does. -/
abbrev Contains {α : Type} (limits : Nat → Nat → Prop) (ends : α → Prop) (w : Work α) : Prop :=
  w.Contains (Request.Yields limits) (c.rule.Falters limits) ends

theorem contains_conclude (r : Record) (t : Transition) (outcome : Outcome) :
    (conclude r t outcome).Contains (Request.Yields limits) falters fun _ => True := by
  refine (Work.Contains.write r t).onOk (fun stored? _ => ?_) fun _ _ => trivial
  cases stored? <;> exact trivial

theorem contains_giveUp (r : Record) (message reason : String) :
    c.Contains limits (fun _ => True) (c.giveUp event r message reason) := by
  refine (Work.Contains.write r _).onOk (fun stored? _ => ?_) fun _ _ => trivial
  cases stored? with
  | none => exact trivial
  | some stored =>
    exact (Escalation.contains_escalate c.chain event stored reason).bind fun _ _ => trivial

theorem contains_onFailure (hr : r.Within limits) (reason : String) :
    c.Contains limits (fun _ => True) (c.onFailure event r reason) := by
  unfold onFailure
  split
  · rename_i hallows
    cases hcount : next32 r.retryTimes with
    | error o => exact ⟨_, _, hr, hallows, .inl ⟨o, hcount, rfl⟩⟩
    | ok n =>
      refine .aside rfl fun now _ => ?_
      cases htime : c.rule.time now n with
      | error fault => exact ⟨_, _, hr, hallows, .inr ⟨n, now, fault, hcount, htime, rfl⟩⟩
      | ok t => exact contains_conclude r _ _
  · exact c.contains_giveUp event r _ _

/-- **An attempt** treats a handler that panics as one that fails for this reason. -/
theorem contains_attempt (hr : r.Within limits) :
    c.Contains limits (fun _ => True) (c.attempt event r) := by
  refine (Work.Contains.firstThat (fun slot next => .accepts slot event) _).bind fun found _ => ?_
  cases found with
  | none => exact contains_conclude r _ _
  | some slot =>
    refine fun verdict _ => ⟨?_, fun verdict' halike => ?_⟩
    · cases verdict with
      | ok => exact contains_conclude r _ _
      | failed reason | panicked text => exact c.contains_onFailure event hr _
    · cases halike
      rfl

def Hold.Within (limits : Nat → Nat → Prop) : Except Error Hold → Prop
  | .ok (.owned r) => r.Within limits
  | .ok (.busy _) | .error _ => True

theorem contains_claim (hr : r.Within limits) :
    c.Contains limits (fun result => ∀ next, result = .ok (some next) → next.Within limits)
      (c.claim r) := by
  refine .aside rfl fun now _ => (Work.Contains.write r _).mono fun result h next hnext => ?_
  obtain ⟨now', copy, hcopy, rfl⟩ := h next hnext
  obtain ⟨-, rfl⟩ := Record.transition_cases hcopy
  exact hr

theorem contains_join (hr : r.Within limits) :
    c.Contains limits (Hold.Within limits) (c.join r) := by
  unfold join
  cases r.status with
  | created =>
    refine (c.contains_claim hr).onOk (fun claimed? hclaimed => ?_) fun _ _ => trivial
    cases claimed? with
    | none => exact trivial
    | some claimed => exact hclaimed claimed rfl
  | retrying | success | failed => exact trivial

theorem contains_found : c.Contains limits (Hold.Within limits) (c.found event) := by
  refine .aside rfl fun now _ => ?_
  cases c.codec.encode event.payload with
  | error e => exact trivial
  | ok payload =>
    refine .aside rfl fun reply hreply => ?_
    match reply with
    | .ok (.created r) => exact hreply _ (List.mem_singleton_self _)
    | .ok (.existing winner) => exact c.contains_join (hreply _ (List.mem_singleton_self _))
    | .error e => exact trivial

theorem contains_acquire : c.Contains limits (Hold.Within limits) (c.acquire event) := by
  refine .aside rfl fun reply hreply => ?_
  match reply with
  | .ok none => exact c.contains_found event
  | .ok (some r) =>
    by_cases hfailed : r.status = .failed
    · simp only [if_pos hfailed]
      refine .aside rfl fun now _ => .aside rfl fun reply _ => ?_
      match reply with
      | .ok true => exact c.contains_found event
      | .ok false | .error e => exact trivial
    · simp only [if_neg hfailed]
      exact c.contains_join (hreply r (List.mem_singleton_self r))
  | .error e => exact trivial

theorem contains_deliver : c.Contains limits (fun _ => True) (c.deliver event) := by
  refine (c.contains_acquire event).onOk (fun hold hhold => ?_) fun _ _ => trivial
  cases hold with
  | owned r => exact c.contains_attempt event hhold
  | busy status => exact trivial

theorem contains_redeliver : c.Contains limits (fun _ => True) (c.redeliver event) := by
  refine .aside rfl fun reply hreply => ?_
  match reply with
  | .ok none | .error e => exact trivial
  | .ok (some r) =>
    have hr := hreply r (List.mem_singleton_self r)
    cases hstatus : r.status with
    | retrying =>
      simp only [hstatus]
      exact c.contains_attempt event hr
    | created =>
      simp only [hstatus]
      refine (c.contains_claim hr).onOk (fun claimed? hclaimed => ?_) fun _ _ => trivial
      cases claimed? with
      | none => exact trivial
      | some claimed => exact c.contains_attempt event (hclaimed claimed rfl)
    | success | failed =>
      simp only [hstatus]
      exact trivial

end Consumer

theorem Replayer.contains_select (p : Replayer) (batch : Nat) :
    p.consumer.Contains limits (fun _ => True) (p.select batch) :=
  .aside rfl fun _ _ => .aside rfl fun _ _ => trivial

theorem Replayer.contains_replay (p : Replayer) (r : Record) :
    p.consumer.Contains limits (fun _ => True) (p.replay r) := by
  unfold replay
  cases p.rebuild r with
  | ok event => exact p.consumer.contains_redeliver event
  | error e => exact p.consumer.contains_giveUp _ r _ _

end Deliveries

/-! ### Scans -/

section Scans

variable {σ : Type} (env : Work.Replies σ) (p : Replayer)

theorem Replayer.runRows_explained (hplans : p.consumer.rule.Plans) (places : Nat) (stalled : Bool)
    (report : ScanReport) (rows : List Record) (s : σ) (heard : List Heard)
    (hplaces : places = 0 → stalled = true) :
    ∃ more, p.runRows env.overheard places stalled report rows (s, heard) =
        ((p.runRows env places stalled report rows s).1,
          (p.runRows env places stalled report rows s).2, heard ++ more) ∧
      ((∀ x ∈ more, x.Fits (Request.Yields Limits32)) → Heard.Waits heard stalled →
        Heard.Explains (heard ++ more) (p.runRows env places stalled report rows s).1) := by
  have hreplay (r : Record) (s : σ) (heard : List Heard) :
      ∃ first, (p.replay r).run env.overheard (s, heard) =
          (((p.replay r).run env s).1, ((p.replay r).run env s).2, heard ++ first) ∧
        ((∀ x ∈ first, x.Fits (Request.Yields Limits32)) →
          Heard.Explains first ((p.replay r).run env s).1) := by
    obtain ⟨first, hfirst⟩ := Work.run_overheard env (p.replay r) s heard
    exact ⟨first, hfirst, fun hfits =>
      (p.contains_replay r).explains hplans (congrArg (·.2.2) hfirst) hfits⟩
  fun_induction Replayer.runRows env p places stalled report rows s generalizing heard with
  | case1 stalled report rows s =>
    obtain rfl := hplaces rfl
    refine ⟨[], by rw [runRows, List.append_nil], fun _ hwaits => ?_⟩
    rw [List.append_nil]
    exact hwaits.explains report
  | case2 places stalled report s =>
    refine ⟨[], by rw [runRows, List.append_nil], fun _ hwaits => ?_⟩
    rw [List.append_nil]
    exact hwaits.explains report
  | case3 places stalled report r rest s outcome s₁ hrun ih =>
    obtain ⟨first, hfirst, hexplains⟩ := hreplay r s heard
    rw [hrun] at hfirst hexplains
    obtain ⟨more, hmore, hrest⟩ := ih (heard ++ first) fun h => absurd h (Nat.succ_ne_zero _)
    refine ⟨first ++ more, ?_, fun hfits hwaits => ?_⟩
    · rw [runRows, hfirst, ← List.append_assoc]
      exact hmore
    · obtain ⟨hfits, hfits'⟩ := List.forall_mem_append.mp hfits
      rw [← List.append_assoc]
      exact hrest hfits' (hwaits.returned (hexplains hfits))
  | case4 places stalled report r rest s text s₁ hrun =>
    obtain ⟨first, hfirst, hexplains⟩ := hreplay r s heard
    rw [hrun] at hfirst hexplains
    refine ⟨first, by rw [runRows, hfirst], fun hfits hwaits => ?_⟩
    exact hwaits.crashes (hexplains hfits)
  | case5 places stalled report r rest s s₁ hrun ih =>
    obtain ⟨first, hfirst, hexplains⟩ := hreplay r s heard
    rw [hrun] at hfirst hexplains
    obtain ⟨more, hmore, hrest⟩ := ih (heard ++ first) fun _ => rfl
    refine ⟨first ++ more, ?_, fun hfits hwaits => ?_⟩
    · rw [runRows, hfirst, ← List.append_assoc]
      exact hmore
    · obtain ⟨hfits, hfits'⟩ := List.forall_mem_append.mp hfits
      rw [← List.append_assoc]
      exact hrest hfits' (hwaits.stalls (hexplains hfits))

theorem Replayer.run_explained (hplans : p.consumer.rule.Plans) (batch : Nat) (s : σ) :
    ∃ heard, p.run env.overheard batch (s, []) =
        ((p.run env batch s).1, (p.run env batch s).2, heard) ∧
      ((∀ x ∈ heard, x.Fits (Request.Yields Limits32)) →
        Heard.Explains heard (p.run env batch s).1) := by
  obtain ⟨first, hfirst⟩ := Work.run_overheard env (p.select batch) s []
  have hexplains (hfits : ∀ x ∈ first, x.Fits (Request.Yields Limits32)) :=
    (p.contains_select batch).explains hplans (congrArg (·.2.2) hfirst) hfits
  unfold run
  rw [hfirst, List.nil_append]
  match (p.select batch).run env s, hexplains with
  | (.done (.error _), _), hexplains | (.crashed _, _), hexplains | (.stalled, _), hexplains =>
    exact ⟨first, rfl, fun hfits => (hexplains hfits).map (Except.map fun _ => {})⟩
  | (.done (.ok rows), s'), hexplains =>
    obtain ⟨more, hmore, hrest⟩ := p.runRows_explained env hplans p.places false
      { selected := rows.length } rows s' first fun hnone => absurd hnone (by unfold places; omega)
    dsimp only
    rw [hmore]
    refine ⟨first ++ more, ?_, fun hfits => ?_⟩
    · match p.runRows env p.places false { selected := rows.length } rows s' with
      | (.done report, final) | (.crashed text, final) | (.stalled, final) => rfl
    · obtain ⟨hfits, hfits'⟩ := List.forall_mem_append.mp hfits
      have hrows := (hrest hfits' (Heard.Waits.nil.returned (hexplains hfits))).map
        fun report => (.ok report : Except Error ScanReport)
      match p.runRows env p.places false { selected := rows.length } rows s', hrows with
      | (.done report, final), hrows | (.crashed text, final), hrows | (.stalled, final), hrows =>
        exact hrows

section Alike

variable {env p} {env' : Work.Replies σ}

theorem Consumer.Contains.run_alike {c : Consumer} {α : Type} {w : Work α} {ends : α → Prop}
    (h : c.Contains (fun _ _ => True) ends w) (halike : env.Alike env') (s : σ) :
    w.run env' s = w.run env s :=
  Work.Contains.run_alike h (fun _ _ _ _ => trivial) halike s

theorem Replayer.runRows_alike (halike : env.Alike env') (places : Nat) (stalled : Bool)
    (report : ScanReport) (rows : List Record) (s : σ) :
    p.runRows env' places stalled report rows s = p.runRows env places stalled report rows s := by
  have hreplay (r : Record) (s : σ) : (p.replay r).run env' s = (p.replay r).run env s :=
    (p.contains_replay r).run_alike halike s
  fun_induction Replayer.runRows env p places stalled report rows s with
  | case1 | case2 => rw [runRows]
  | case3 places stalled report r rest s outcome s₁ hrun ih =>
    rw [runRows, hreplay, hrun]
    exact ih
  | case4 places stalled report r rest s text s₁ hrun => rw [runRows, hreplay, hrun]
  | case5 places stalled report r rest s s₁ hrun ih =>
    rw [runRows, hreplay, hrun]
    exact ih

theorem Replayer.run_alike (halike : env.Alike env') (batch : Nat) (s : σ) :
    p.run env' batch s = p.run env batch s := by
  unfold run
  rw [(p.contains_select batch).run_alike halike s]
  simp only [p.runRows_alike halike]

end Alike

end Scans

/-! ### How far panics get -/

/-- Something that is carried out in surroundings of any kind. -/
abbrev Procedure (α : Type) : Type 1 :=
  (σ : Type) → Work.Replies σ → σ → Progress α × σ

/-- **How far the panics of user code get** when something is carried out. -/
structure Procedure.Confines {α : Type} (f : Procedure α) : Prop where
  /-- It crashes with a panic that was heard and that nobody contains, and otherwise it comes to a
  result, if everything was answered. -/
  explained : ∀ (σ : Type) (env : Work.Replies σ) (s : σ), ∃ heard,
    f _ env.overheard (s, []) = ((f σ env s).1, (f σ env s).2, heard) ∧
      ((∀ x ∈ heard, ∀ r ∈ x.rows, r.maxRetryTimes ≤ greatestNat32) →
        Heard.Explains heard (f σ env s).1)
  /-- A handler that panics is like one that fails for this reason, at any of its calls, and it does
  not matter what an escalation handler replies. -/
  unaffected : ∀ (σ : Type) (env env' : Work.Replies σ), env.Alike env' → f σ env' = f σ env

theorem Consumer.Contains.confines {c : Consumer} (hplans : c.rule.Plans) {α : Type} {w : Work α}
    (h : ∀ limits, c.Contains limits (fun _ => True) w) :
    Procedure.Confines fun _ env => w.run env where
  explained σ env s := by
    obtain ⟨heard, hheard⟩ := w.run_overheard env s []
    exact ⟨heard, hheard, fun hrows => (h _).explains hplans (congrArg (·.2.2) hheard)
      fun x hx => Heard.fits_of_rows (hrows x hx)⟩
  unaffected σ env env' halike := funext (Consumer.Contains.run_alike (h _) halike)

/-- **Which panics come out.**  Deliveries, first and later ones, and scans crash exactly if one of the
questions that they ask of user code, whether a handler takes an event or an escalation handler
supports a type, is answered by a panic, or if the surroundings crash, as a ledger does that runs out
of numbers; and then they crash with this panic.  Otherwise they come to a result, be it an error,
exactly if everything is answered.  A panic in handling an event is like a failure for the reason
"handler panicked: " with its text: the result is the same, and so is all that is left.  And nothing
depends on what an escalation handler does that is told of a row. -/
theorem Replayer.panics_escape_iff (p : Replayer) (hplans : p.consumer.rule.Plans) :
    (∀ event, Procedure.Confines fun _ env => (p.consumer.deliver event).run env) ∧
      (∀ event, Procedure.Confines fun _ env => (p.consumer.redeliver event).run env) ∧
      ∀ batch, Procedure.Confines fun _ env => p.run env batch := by
  refine ⟨fun event => ?_, fun event => ?_, fun batch => ?_⟩
  · exact Consumer.Contains.confines hplans fun limits => p.consumer.contains_deliver event
  · exact Consumer.Contains.confines hplans fun limits => p.consumer.contains_redeliver event
  · refine ⟨fun σ env s => ?_, fun σ env env' halike => funext (p.run_alike halike batch)⟩
    obtain ⟨heard, hheard, hexplains⟩ := p.run_explained env hplans batch s
    exact ⟨heard, hheard, fun hrows => hexplains fun x hx => Heard.fits_of_rows (hrows x hx)⟩

namespace Crew

def bungler : Replayer :=
  ⟨{}, { clerk 0 with rule := .backoff ⟨.zero, 2.0, .zero⟩, chain := [7] }, .json⟩

def handling (verdict told : Verdict) : Conditions where
  answers
    | .handle _ _ => verdict
    | .escalate _ _ _ _ => told
    | request => request.answer
  faults _ := none

theorem alike_handling (text : String) (told told' : Verdict) :
    (handling (.panicked text) told).reply.Alike
      (handling (.failed ("handler panicked: " ++ text)) told').reply := by
  intro request s
  cases request with
  | handle slot event => exact .inr ⟨_, _, _, rfl, rfl, .handle text⟩
  | escalate slot event record reason => exact .inr ⟨_, _, _, rfl, rfl, .escalate told told'⟩
  | now | find | create | update | tombstone | due | send | accepts | supports => exact .inl rfl

/-- Everybody panics who is not asked a question, and the delivery is what it is without. -/
theorem panics_escape_clumsy :
    ∃ heard final, (bungler.consumer.deliver parcel).run
        (handling (.panicked "boom") (.panicked "again")).reply.overheard (.empty, []) =
          (.done (.ok .failed), final, heard) ∧
      (∀ x ∈ heard, x.Calm) ∧
      (bungler.consumer.deliver parcel).run
        (handling (.failed "handler panicked: boom") .ok).reply .empty =
          (.done (.ok .failed), final) := by
  obtain ⟨hdeliver, -, -⟩ := Replayer.panics_escape_iff bungler (Backoff.plans (by decide))
  obtain ⟨heard, hheard, hexplains⟩ := (hdeliver parcel).explained Store
    (handling (.panicked "boom") (.panicked "again")).reply .empty
  refine ⟨heard, _, hheard, (hexplains ?_).returned.mp ⟨_, rfl⟩, ?_⟩
  · obtain rfl := (congrArg (·.2.2) hheard).symm
    decide +kernel
  · have halike := alike_handling "boom" (.panicked "again") .ok
    exact (congrFun ((hdeliver parcel).unaffected Store _ _ halike) .empty).trans rfl

def touchy (accepts supports : Except String Bool) : Conditions where
  answers
    | .accepts _ _ => accepts
    | .supports _ _ => supports
    | .handle _ _ => Verdict.failed "x"
    | request => request.answer
  faults _ := none

/-- A ledger whose row cannot be written once more. -/
def worn : Store := ⟨[{ dueRow with maxRetryTimes := 0, version := greatestInt64 }], 1⟩

/-- **What brings a delivery down**: user code that panics when it is asked, by which time the row is
held, or has failed and nobody is told; and a ledger that runs out of numbers. -/
theorem panic_ends_delivery :
    (∃ s, (bungler.consumer.deliver parcel).run
        (touchy (.error "boom") (.ok true)).reply .empty = (.crashed "boom", s) ∧
      (s.find? (bungler.consumer.key "e")).map Record.status = some .retrying) ∧
    (∃ s, (bungler.consumer.deliver parcel).run
        (touchy (.ok true) (.error "boom")).reply .empty = (.crashed "boom", s) ∧
      (s.find? (bungler.consumer.key "e")).map Record.status = some .failed) ∧
    (bungler.consumer.redeliver parcel).run (handling (.panicked "boom") .ok).reply worn =
      (.crashed "attempt to add with overflow", worn) :=
  ⟨⟨_, rfl, rfl⟩, ⟨_, rfl, rfl⟩, rfl⟩

end Crew

end EventRelay
