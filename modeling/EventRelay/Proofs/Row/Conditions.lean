import EventRelay.Proofs.Row.Company

/-!
# Fixed conditions

The clock stands still, user code answers by what it is asked, and the same calls of the ledger fail
whenever they are made, without effect.  Then work that tends a row is given the same replies whoever
else is at work, and comes to one end only (`Conditions.tends_exact`).
-/

namespace EventRelay

open Work (Progress)

/-! ### Fixed conditions -/

/-- **Fixed conditions**: what everything but the ledger answers, and which calls of the ledger
fail. -/
structure Conditions where
  answers : (request : Request) → request.Reply
  faults : Request → Option Error

/-- The reply that tells of a failed call. -/
def Request.refusal? : (request : Request) → Error → Option request.Reply
  | .find _, e => some (.error e)
  | .create _, e => some (.error e)
  | .update _, e => some (.error e)
  | .tombstone _ _, e => some (.error e)
  | .due _ _, e => some (.error e)
  | .now, _ | .send _, _ | .accepts _ _, _ | .handle _ _, _ => none
  | .supports _ _, _ | .escalate _ _ _ _, _ => none

theorem Request.refusal?_eq_some_iff {request : Request} {reply : request.Reply} {e : Error} :
    request.refusal? e = some reply ↔ request.Fails reply e := by
  cases request with
  | find | create | update | tombstone | due =>
    exact ⟨fun h => (Option.some.inj h).symm, fun h => congrArg some h.symm⟩
  | now | send | accepts | handle | supports | escalate =>
    exact ⟨nofun, False.elim⟩

theorem Request.Fails.isCall {request : Request} {reply : request.Reply} {e : Error}
    (h : request.Fails reply e) : request.isCall = true := by
  cases request <;> first | exact h.elim | rfl

theorem Request.Fails.error_eq {request : Request} {reply : request.Reply} {e e' : Error}
    (h : request.Fails reply e) (h' : request.Fails reply e') : e = e' := by
  cases request <;> first | exact h.elim | exact Except.error.inj (h.symm.trans h')

theorem Request.Fails.reply_eq {request : Request} {reply reply' : request.Reply} {e : Error}
    (h : request.Fails reply e) (h' : request.Fails reply' e) : reply = reply' :=
  Option.some.inj
    ((Request.refusal?_eq_some_iff.mpr h).symm.trans (Request.refusal?_eq_some_iff.mpr h'))

theorem Store.served_change {result : Except Overflow Bool × Store} {s' : Store}
    {served : Except Overflow (Except Error Bool)}
    (h : some (result.1.map Except.ok, result.2) = some (served, s')) :
    (∃ done, served = .ok (.ok done) ∧ result = (.ok done, s')) ∨
      ∃ o, served = .error o ∧ result = (.error o, s') := by
  obtain ⟨changed, s₁⟩ := result
  cases changed with
  | ok done =>
    cases h
    exact .inl ⟨done, rfl, rfl⟩
  | error o =>
    cases h
    exact .inr ⟨o, rfl, rfl⟩

/-- **What is served is an answer of the ledger**, which is no failure, or an overflow. -/
theorem Store.serve_cases {s s' : Store} {request : Request}
    {served : Except Overflow request.Reply} (h : s.serve request = some (served, s')) :
    (∃ reply, served = .ok reply ∧ s.Answers request reply s' ∧ ∀ e, ¬ request.Fails reply e) ∨
      ∃ o, served = .error o ∧ s.Overflows request o s' := by
  cases request with
  | find key | create r | due now limit =>
    cases h
    exact .inl ⟨_, rfl, ⟨rfl, rfl⟩, fun e hfails => by cases hfails⟩
  | update r | tombstone r now =>
    rcases served_change h with ⟨done, rfl, hdone⟩ | ⟨o, rfl, hover⟩
    · exact .inl ⟨_, rfl, ⟨done, hdone, rfl⟩, fun e hfails => by cases hfails⟩
    · exact .inr ⟨o, rfl, hover⟩
  | now | send event | accepts slot event | handle slot event | supports slot eventType
  | escalate slot event record reason => cases h

namespace Conditions

variable (w : Conditions)

/-- What is answered under the conditions: a call of the ledger fails with its fault, if it has one,
and everything else has its answer. -/
structure Admits (request : Request) (reply : request.Reply) : Prop where
  fault : request.isCall = true → ∀ e, request.Fails reply e ↔ w.faults request = some e
  answer : request.isCall = false → reply = w.answers request

def reply : Work.Replies Store := fun request s =>
  match (w.faults request).bind request.refusal? with
  | some reply => (.done reply, s)
  | none =>
    match s.serve request with
    | some (.ok reply, s') => (.done reply, s')
    | some (.error overflow, s') => (.crashed overflow.message, s')
    | none => (.done (w.answers request), s)

structure Calm : Prop where
  accepts : ∀ slot event text, w.answers (.accepts slot event) ≠ .error text
  supports : ∀ slot eventType text, w.answers (.supports slot eventType) ≠ .error text

/-- All requests of a log have been answered under the conditions. -/
def Governs (log : List Entry) : Prop :=
  ∀ i request reply, Entry.asked i request reply ∈ log → w.Admits request reply

variable {w}

theorem Calm.not_panicky (h : w.Calm) : ¬ Manner.Panicky w.Admits := by
  rintro ⟨request, reply, hpanics, hadmits⟩
  cases hpanics with
  | accepts => exact h.accepts _ _ _ (hadmits.answer rfl).symm
  | supports => exact h.supports _ _ _ (hadmits.answer rfl).symm

theorem not_faulty (h : ∀ request, w.faults request = none) : ¬ Manner.Faulty w.Admits := by
  rintro ⟨request, reply, e, hfails, hadmits⟩
  cases (h request).symm.trans ((hadmits.fault hfails.isCall e).mp hfails)

theorem serves (w : Conditions) : w.reply.Serves id w.Admits := by
  intro request s hover
  unfold reply
  cases hfault : (w.faults request).bind request.refusal? with
  | some answer =>
    obtain ⟨e, hfaults, hrefusal⟩ := Option.bind_eq_some_iff.mp hfault
    have hfails := Request.refusal?_eq_some_iff.mp hrefusal
    refine ⟨answer, s, rfl, .inr ⟨⟨e, hfails⟩, rfl⟩, fun _ e' => ?_, fun hcall => ?_⟩
    · rw [hfaults, Option.some.injEq]
      exact ⟨fun hfails' => hfails.error_eq hfails', fun he => he ▸ hfails⟩
    · cases hcall.symm.trans hfails.isCall
  | none =>
    have hno : request.isCall = true → w.faults request = none := by
      intro hcall
      cases hfaults : w.faults request with
      | none => rfl
      | some e =>
        rw [hfaults] at hfault
        cases request with
        | find | create | update | tombstone | due => cases hfault
        | now | send | accepts | handle | supports | escalate => cases hcall
    cases hserve : s.serve request with
    | none =>
      have hcall := Store.serve_eq_none_iff.mp hserve
      refine ⟨w.answers request, s, rfl, .inl ?_, fun h => ?_, fun _ => rfl⟩
      · cases request <;> first | rfl | cases hcall
      · cases hcall.symm.trans h
    | some served =>
      obtain ⟨result, s'⟩ := served
      rcases Store.serve_cases hserve with ⟨answer, rfl, hanswers, hfails⟩ | ⟨o, rfl, hoverflows⟩
      · refine ⟨answer, s', rfl, .inl hanswers, fun hcall e => ?_, fun hcall => ?_⟩
        · rw [hno hcall]
          exact ⟨fun h => absurd h (hfails e), fun h => by cases h⟩
        · rw [Store.serve_eq_none_iff.mpr hcall] at hserve
          cases hserve
      · exact absurd hoverflows (hover o s')

/-- **A worker that tends a row is given what it is given**, and nothing else. -/
theorem given_unique {r : Record} {written? written₁ written₂ : Option Record} {request : Request}
    {reply₁ reply₂ : request.Reply}
    (h₁ : request.Given w.Admits r written? reply₁ written₁)
    (h₂ : request.Given w.Admits r written? reply₂ written₂) :
    reply₁ = reply₂ ∧ written₁ = written₂ := by
  cases h₁ with
  | aside hcall hadmits =>
    cases h₂ with
    | aside _ hadmits' => exact ⟨(hadmits.answer hcall).trans (hadmits'.answer hcall).symm, rfl⟩
    | fault hfails => cases hcall.symm.trans hfails.isCall
    | found | stored => cases hcall
  | fault hfails hadmits =>
    have hfault := (hadmits.fault hfails.isCall _).mp hfails
    cases h₂ with
    | aside hcall => cases hcall.symm.trans hfails.isCall
    | fault hfails' hadmits' =>
      exact ⟨hfails.reply_eq ((hadmits'.fault hfails.isCall _).mpr hfault), rfl⟩
    | found hadmits' | stored hadmits' => cases (hadmits'.fault rfl _).mpr hfault
  | found hadmits =>
    cases h₂ with
    | aside hcall => cases hcall
    | fault hfails' hadmits' => cases (hadmits.fault rfl _).mpr ((hadmits'.fault rfl _).mp hfails')
    | found => exact ⟨rfl, rfl⟩
  | stored hadmits =>
    cases h₂ with
    | aside hcall => cases hcall
    | fault hfails' hadmits' => cases (hadmits.fault rfl _).mpr ((hadmits'.fault rfl _).mp hfails')
    | stored => exact ⟨rfl, rfl⟩

/-- **Under fixed conditions there is one end.** -/
theorem tends_exact {α : Type} {work : Work α} {r : Record} {written? : Option Record}
    {ends : Option Record → Progress α → Prop} (h : work.Tends w.Admits r ends written?) :
    ∃ written' progress, work.Tends w.Admits r
      (fun written₁ progress₁ => written₁ = written' ∧ progress₁ = progress ∧
        ends written₁ progress₁) written? := by
  induction work generalizing written? with
  | done a => exact ⟨written?, .done a, rfl, rfl, h⟩
  | crash text => exact ⟨written?, .crashed text, rfl, rfl, h⟩
  | ask request next ih =>
    by_cases hgiven : ∃ reply written₁, request.Given w.Admits r written? reply written₁
    · obtain ⟨reply, written₁, hgiven⟩ := hgiven
      obtain ⟨written', progress, hexact⟩ := ih reply (h.2 reply written₁ hgiven)
      refine ⟨written', progress, h.1, fun reply₂ written₂ hgiven₂ => ?_⟩
      obtain ⟨rfl, rfl⟩ := given_unique hgiven hgiven₂
      exact hexact
    · -- the request is never answered
      exact ⟨none, .stalled, h.1, fun reply written₁ h₁ => absurd ⟨reply, written₁, h₁⟩ hgiven⟩

end Conditions

/-! ### A ledger of one group -/

namespace Crew

def carrier : Replayer where
  config := {}
  consumer := { clerk 3 with rule := .backoff ⟨.zero, 2.0, .zero⟩, chain := [7] }
  codec := ⟨fun _ => .ok [], fun _ _ => .ok .null⟩

def hollowRow : Record :=
  { dueRow with id := 2, eventId := "f", payload := none }

def idleRow : Record :=
  { dueRow with id := 3, eventId := "h", nextRetryTime := none }

def trio : Store := ⟨[dueRow, hollowRow, idleRow], 3⟩

theorem history_trio : ∃ calls, Store.History calls trio :=
  ⟨_, ((Store.History.empty.call (.create dueRow)).call (.create hollowRow)).call
    (.create idleRow)⟩

theorem due_trio : trio.due default 2 = [dueRow, hollowRow] :=
  Store.due_of_pairwise 2 (by decide)

/-- Handlers never succeed, and calls of the ledger fail as is said. -/
def unlucky (faults : Request → Option Error) : Conditions where
  answers
    | .now => (default : Instant)
    | .accepts _ _ | .supports _ _ => .ok true
    | .handle _ _ => Verdict.failed "x"
    | .escalate _ _ _ _ => Verdict.ok
    | request => request.answer
  faults := faults

theorem calm_unlucky (faults : Request → Option Error) : (unlucky faults).Calm where
  accepts _ _ _ h := by cases h
  supports _ _ _ h := by cases h

end Crew

end EventRelay
