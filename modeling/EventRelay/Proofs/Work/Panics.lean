import EventRelay.Proofs.Work.Follows

/-!
# Panics of user code

What becomes of a panic of user code, as somebody sees it who listens to all that a worker is
answered (`Work.Replies.overheard`).  A question may be answered by a panic, and the surroundings may
crash, and neither is contained (`Heard.Escapes`).  Work that contains all other panics
(`w.Contains manner falters ends`) crashes where it hears one of these, and nowhere else
(`Contains.explains`), and it makes no difference between a handler that panics and one that fails
for this reason, nor between any two replies of an escalation handler (`Contains.run_alike`).

There is one rule for each way of composing work.
-/

namespace EventRelay

open Work (Progress)

/-! ### Listening -/

/-- What a worker has asked for, and what came of it. -/
structure Heard where
  request : Request
  came : Progress request.Reply

/-- Surroundings with a listener, who changes nothing. -/
def Work.Replies.overheard {σ : Type} (env : Work.Replies σ) : Work.Replies (σ × List Heard) :=
  fun request x =>
    ((env request x.1).1, (env request x.1).2, x.2 ++ [⟨request, (env request x.1).1⟩])

def Request.panic? : (request : Request) → request.Reply → Option String
  | .accepts _ _, reply | .supports _ _, reply =>
    match reply with
    | .ok _ => none
    | .error text => some text
  | .now, _ | .find _, _ | .create _, _ | .update _, _ | .tombstone _ _, _ | .due _ _, _ => none
  | .send _, _ | .handle _ _, _ | .escalate _ _ _ _, _ => none

namespace Heard

/-- **A panic that nobody contains**: it answers the question whether a handler takes an event or an
escalation handler supports a type, or the surroundings crash, as a ledger does that runs out of
numbers. -/
inductive Escapes : Heard → String → Prop
  | accepts {slot : Nat} {event : Event} {text : String} :
      Escapes ⟨.accepts slot event, .done (.error text)⟩ text
  | supports {slot : Nat} {eventType : String} {text : String} :
      Escapes ⟨.supports slot eventType, .done (.error text)⟩ text
  | crashed {request : Request} {text : String} : Escapes ⟨request, .crashed text⟩ text

def Calm (x : Heard) : Prop :=
  x.came ≠ .stalled ∧ ∀ text, ¬ x.Escapes text

def Fits (manner : Manner) (x : Heard) : Prop :=
  ∀ reply, x.came = .done reply → manner x.request reply

theorem escapes_done_iff {request : Request} {reply : request.Reply} {text : String} :
    (⟨request, .done reply⟩ : Heard).Escapes text ↔ request.panic? reply = some text := by
  constructor
  · intro h
    cases h <;> rfl
  · intro h
    cases request with
    | accepts slot event =>
      cases reply with
      | ok yes => cases h
      | error e =>
        cases h
        exact .accepts
    | supports slot eventType =>
      cases reply with
      | ok yes => cases h
      | error e =>
        cases h
        exact .supports
    | now | find | create | update | tombstone | due | send | handle | escalate => cases h

theorem calm_done_iff {request : Request} {reply : request.Reply} :
    (⟨request, .done reply⟩ : Heard).Calm ↔ request.panic? reply = none := by
  constructor
  · intro h
    cases hpanic : request.panic? reply with
    | none => rfl
    | some text => exact absurd (escapes_done_iff.mpr hpanic) (h.2 text)
  · intro h
    refine ⟨nofun, fun text hescapes => ?_⟩
    rw [escapes_done_iff, h] at hescapes
    cases hescapes

/-- **What was heard explains the end**: it is a crash with a text exactly if a panic with this text
has escaped, and a result exactly if all was answered and nothing has escaped. -/
structure Explains {α : Type} (heard : List Heard) (progress : Progress α) : Prop where
  crashed : ∀ text, progress = .crashed text ↔ ∃ x ∈ heard, x.Escapes text
  returned : (∃ a, progress = .done a) ↔ ∀ x ∈ heard, x.Calm

namespace Explains

variable {α : Type} {request : Request} {text : String} {x : Heard} {heard : List Heard}
  {progress : Progress α}

theorem done (a : α) : Explains [] (.done a : Progress α) where
  crashed _ := ⟨(nomatch ·), fun ⟨_, hx, _⟩ => absurd hx List.not_mem_nil⟩
  returned := ⟨fun _ _ hx => absurd hx List.not_mem_nil, fun _ => ⟨a, rfl⟩⟩

theorem escaped (h : x.Escapes text) : Explains [x] (.crashed text : Progress α) where
  crashed other := by
    refine ⟨fun hsame => ⟨x, List.mem_singleton_self x, ?_⟩, fun ⟨y, hy, hother⟩ => ?_⟩
    · cases hsame
      exact h
    · obtain rfl := List.mem_singleton.mp hy
      cases h <;> cases hother <;> rfl
  returned := ⟨nofun, fun hcalm => absurd h ((hcalm x (List.mem_singleton_self x)).2 text)⟩

theorem stalled : Explains [⟨request, .stalled⟩] (.stalled : Progress α) where
  crashed text := by
    refine ⟨nofun, fun ⟨y, hy, h⟩ => ?_⟩
    obtain rfl := List.mem_singleton.mp hy
    cases h
  returned := ⟨nofun, fun hcalm => absurd rfl (hcalm _ (List.mem_singleton_self _)).1⟩

theorem cons (hx : x.Calm) (h : Explains heard progress) : Explains (x :: heard) progress where
  crashed text := by
    rw [h.crashed]
    simp only [List.mem_cons, exists_eq_or_imp, hx.2 text, false_or]
  returned := by
    rw [h.returned]
    simp only [List.mem_cons, forall_eq_or_imp, hx, true_and]

theorem map {β : Type} (f : α → β) (h : Explains heard progress) :
    Explains heard (progress.map f) where
  crashed text := by
    rw [← h.crashed]
    cases progress <;> simp [Progress.map]
  returned := by
    rw [← h.returned]
    cases progress <;> simp [Progress.map]

end Explains

/-- **What was heard of several pieces of work** that are carried out one after the other, when none
has crashed: `stalled` says whether one of them waits for an answer. -/
structure Waits (heard : List Heard) (stalled : Bool) : Prop where
  quiet : ∀ x ∈ heard, ∀ text, ¬ x.Escapes text
  calm : stalled = false ↔ ∀ x ∈ heard, x.Calm

namespace Waits

variable {α β : Type} {text : String} {heard later : List Heard} {stalled : Bool}

theorem nil : Waits [] false :=
  ⟨fun _ hx => absurd hx List.not_mem_nil, fun _ _ hx => absurd hx List.not_mem_nil, fun _ => rfl⟩

theorem returned (h : Waits heard stalled) {a : α} (hlater : Explains later (.done a)) :
    Waits (heard ++ later) stalled := by
  have hcalm := hlater.returned.mp ⟨a, rfl⟩
  refine ⟨fun x hx => ?_, ?_⟩
  · rcases List.mem_append.mp hx with hx | hx
    · exact h.quiet x hx
    · exact (hcalm x hx).2
  · rw [h.calm, List.forall_mem_append]
    exact ⟨fun hbefore => ⟨hbefore, hcalm⟩, And.left⟩

theorem stalls (h : Waits heard stalled) (hlater : Explains later (.stalled : Progress α)) :
    Waits (heard ++ later) true := by
  refine ⟨fun x hx text hescapes => ?_, nofun, fun hcalm => ?_⟩
  · rcases List.mem_append.mp hx with hx | hx
    · exact h.quiet x hx text hescapes
    · exact nomatch (hlater.crashed text).mpr ⟨x, hx, hescapes⟩
  · obtain ⟨a, ha⟩ := hlater.returned.mpr fun x hx => hcalm x (List.mem_append_right _ hx)
    cases ha

theorem crashes (h : Waits heard stalled) (hlater : Explains later (.crashed text : Progress α)) :
    Explains (heard ++ later) (.crashed text : Progress β) where
  crashed other := by
    have hheard := hlater.crashed other
    rw [Progress.crashed.injEq] at hheard ⊢
    rw [hheard]
    simp only [List.mem_append, or_and_right, exists_or]
    exact ⟨.inr, fun hany => hany.resolve_left fun ⟨x, hx, hescapes⟩ => h.quiet x hx other hescapes⟩
  returned := by
    refine ⟨nofun, fun hcalm => ?_⟩
    obtain ⟨a, ha⟩ := hlater.returned.mpr fun x hx => hcalm x (List.mem_append_right _ hx)
    cases ha

theorem explains (h : Waits heard stalled) (a : α) :
    Explains heard (if stalled then .stalled else .done a) where
  crashed text := by
    refine ⟨fun hcrash => ?_, fun ⟨x, hx, hescapes⟩ => absurd hescapes (h.quiet x hx text)⟩
    split at hcrash <;> cases hcrash
  returned := by
    rw [← h.calm]
    cases stalled <;> simp

end Waits

end Heard

/-! ### Answers that should make no difference -/

/-- A handler that panics is like one that fails for this reason, and all replies of an escalation
handler are alike. -/
inductive Request.Alike : (request : Request) → request.Reply → request.Reply → Prop
  | handle {slot : Nat} {event : Event} (text : String) :
      Alike (.handle slot event) (Verdict.panicked text)
        (Verdict.failed ("handler panicked: " ++ text))
  | escalate {slot : Nat} {event : Event} {record : Record} {reason : String}
      (verdict verdict' : Verdict) : Alike (.escalate slot event record reason) verdict verdict'

/-- Surroundings that differ in such replies at most, at any of the requests. -/
def Work.Replies.Alike {σ : Type} (env env' : Work.Replies σ) : Prop :=
  ∀ request s, env' request s = env request s ∨
    ∃ reply reply' s', env request s = (.done reply, s') ∧ env' request s = (.done reply', s') ∧
      request.Alike reply reply'

def Request.isUserCode : Request → Bool
  | .accepts _ _ | .handle _ _ | .supports _ _ | .escalate _ _ _ _ => true
  | .now | .find _ | .create _ | .update _ | .tombstone _ _ | .due _ _ | .send _ => false

/-! ### Work that contains panics -/

namespace Work

variable {σ α β ε : Type}

/-- **Work that contains panics**, whatever the answers are within `manner`.  It crashes with the
panic by which a question was answered, if there was one, and otherwise only as it may falter by
itself; and replies that are alike make no difference. -/
def Contains (manner : Manner) (falters : String → Prop) (ends : α → Prop) : Work α → Prop
  | .done a => ends a
  | .crash text => falters text
  | .ask request next => ∀ reply, manner request reply →
      (match request.panic? reply with
        | some text => next reply = .crash text
        | none => (next reply).Contains manner falters ends) ∧
      ∀ reply', request.Alike reply reply' → next reply' = next reply

namespace Contains

variable {manner : Manner} {falters : String → Prop} {ends ends' : α → Prop}

theorem aside {request : Request} {next : request.Reply → Work α}
    (haside : request.isUserCode = false)
    (hnext : ∀ reply, manner request reply → (next reply).Contains manner falters ends) :
    (Work.ask request next).Contains manner falters ends := by
  intro reply hmanner
  have hpanic : request.panic? reply = none := by
    cases request <;> first | rfl | cases haside
  rw [hpanic]
  refine ⟨hnext reply hmanner, fun reply' halike => ?_⟩
  cases halike <;> cases haside

theorem mono {w : Work α} (h : w.Contains manner falters ends) (hends : ∀ a, ends a → ends' a) :
    w.Contains manner falters ends' := by
  induction w with
  | done a => exact hends a h
  | crash text => exact h
  | ask request next ih =>
    intro reply hmanner
    obtain ⟨hnext, halike⟩ := h reply hmanner
    refine ⟨?_, halike⟩
    cases hpanic : request.panic? reply with
    | some text =>
      rw [hpanic] at hnext
      exact hnext
    | none =>
      rw [hpanic] at hnext
      exact ih reply hnext

theorem bind {m : β → Prop} {w : Work β} {f : β → Work α} (hw : w.Contains manner falters m)
    (hf : ∀ b, m b → (f b).Contains manner falters ends) :
    (w.bind f).Contains manner falters ends := by
  induction w with
  | done b => exact hf b hw
  | crash text => exact hw
  | ask request next ih =>
    intro reply hmanner
    obtain ⟨hnext, halike⟩ := hw reply hmanner
    refine ⟨?_, fun reply' h => congrArg (Work.bind · f) (halike reply' h)⟩
    cases hpanic : request.panic? reply with
    | some text =>
      rw [hpanic] at hnext
      exact congrArg (Work.bind · f) hnext
    | none =>
      rw [hpanic] at hnext
      exact ih reply hnext

theorem onOk {m : Except ε β → Prop} {ends : Except ε α → Prop} {w : Work (Except ε β)}
    {f : β → Work (Except ε α)} (hw : w.Contains manner falters m)
    (hok : ∀ b, m (.ok b) → (f b).Contains manner falters ends)
    (herror : ∀ e, m (.error e) → ends (.error e)) :
    (w.onOk f).Contains manner falters ends := by
  refine hw.bind fun result hm => ?_
  cases result with
  | ok b => exact hok b hm
  | error e => exact herror e hm

theorem accepts {next : Except String Bool → Work α} (slot : Nat) (event : Event)
    (hanswer : ∀ yes, (next (.ok yes)).Contains manner falters ends)
    (hpanic : ∀ text, next (.error text) = .crash text) :
    (Work.ask (.accepts slot event) next).Contains manner falters ends := by
  intro reply _
  refine ⟨?_, fun reply' halike => nomatch halike⟩
  cases reply with
  | ok yes => exact hanswer yes
  | error text => exact hpanic text

theorem supports {next : Except String Bool → Work α} (slot : Nat) (eventType : String)
    (hanswer : ∀ yes, (next (.ok yes)).Contains manner falters ends)
    (hpanic : ∀ text, next (.error text) = .crash text) :
    (Work.ask (.supports slot eventType) next).Contains manner falters ends := by
  intro reply _
  refine ⟨?_, fun reply' halike => nomatch halike⟩
  cases reply with
  | ok yes => exact hanswer yes
  | error text => exact hpanic text

/-- **Asking slots** passes the panics of the single questions on. -/
theorem firstThat {question : (slot : Nat) → Work (Except String Bool)}
    (hquestion : ∀ slot (next : Except String Bool → Work (Option Nat)),
      (∀ yes, (next (.ok yes)).Contains manner falters fun _ => True) →
      (∀ text, next (.error text) = .crash text) →
      ((question slot).bind next).Contains manner falters fun _ => True) (slots : List Nat) :
    (Work.firstThat question slots).Contains manner falters fun _ => True := by
  induction slots with
  | nil => exact trivial
  | cons slot rest ih =>
    refine hquestion slot _ (fun yes => ?_) fun text => rfl
    cases yes with
    | true => exact trivial
    | false => exact ih

theorem write (r : Record) (t : Transition) :
    (r.write t).Contains manner falters fun result => ∀ next, result = .ok (some next) →
      ∃ now copy, r.transition t now = .ok copy ∧ next = copy.revised := by
  refine aside rfl fun now _ => ?_
  cases hcopy : r.transition t now with
  | error e =>
    intro next hnext
    cases hnext
  | ok copy =>
    refine aside rfl fun reply _ => ?_
    match reply with
    | .ok true =>
      intro next hnext
      cases hnext
      exact ⟨now, copy, hcopy, rfl⟩
    | .ok false | .error e =>
      intro next hnext
      cases hnext

end Contains

/-! ### Carrying out -/

/-- **A listener changes nothing.** -/
theorem run_overheard (env : Replies σ) (w : Work α) (s : σ) (heard : List Heard) :
    ∃ more, w.run env.overheard (s, heard) = ((w.run env s).1, (w.run env s).2, heard ++ more) := by
  induction w generalizing s heard with
  | done a | crash text => exact ⟨[], by rw [List.append_nil]; rfl⟩
  | ask request next ih =>
    simp only [run, Replies.overheard]
    match env request s with
    | (.done reply, s') =>
      obtain ⟨more, hmore⟩ := ih reply s' (heard ++ [⟨request, .done reply⟩])
      rw [List.append_assoc] at hmore
      exact ⟨_, hmore⟩
    | (.crashed text, s') => exact ⟨_, rfl⟩
    | (.stalled, s') => exact ⟨_, rfl⟩

namespace Contains

variable {manner : Manner} {falters : String → Prop} {ends : α → Prop} {w : Work α}

/-- **What a listener hears explains how the work ends**, if the answers are within `manner` and the
work does not falter by itself. -/
theorem explains (h : w.Contains manner falters ends) (hfalters : ∀ text, ¬ falters text)
    {env : Replies σ} {s : σ} {heard more : List Heard}
    (hmore : (w.run env.overheard (s, heard)).2.2 = heard ++ more)
    (hfits : ∀ x ∈ more, x.Fits manner) :
    Heard.Explains more (w.run env s).1 := by
  induction w generalizing s heard more with
  | done a =>
    obtain rfl := List.append_cancel_left ((List.append_nil heard).trans hmore)
    exact .done a
  | crash text => exact absurd h (hfalters text)
  | ask request next ih =>
    simp only [run, Replies.overheard] at hmore ⊢
    match hcame : env request s with
    | (.crashed text, s') =>
      simp only [hcame] at hmore ⊢
      obtain rfl := List.append_cancel_left hmore
      exact .escaped .crashed
    | (.stalled, s') =>
      simp only [hcame] at hmore ⊢
      obtain rfl := List.append_cancel_left hmore
      exact .stalled
    | (.done reply, s') =>
      simp only [hcame] at hmore ⊢
      obtain ⟨later, hlater⟩ := run_overheard env (next reply) s' (heard ++ [⟨request, .done reply⟩])
      obtain rfl : ⟨request, .done reply⟩ :: later = more := by
        rw [hlater, List.append_assoc] at hmore
        exact List.append_cancel_left hmore
      obtain ⟨hfit, hfits⟩ := List.forall_mem_cons.mp hfits
      obtain ⟨hnext, -⟩ := h reply (hfit reply rfl)
      cases hpanic : request.panic? reply with
      | some text =>
        rw [hpanic] at hnext
        rw [hnext] at hlater ⊢
        obtain rfl : later = [] := List.self_eq_append_right.mp (congrArg (·.2.2) hlater)
        exact .escaped (Heard.escapes_done_iff.mpr hpanic)
      | none =>
        rw [hpanic] at hnext
        have hexplains := ih reply hnext (congrArg (·.2.2) hlater) hfits
        exact hexplains.cons (Heard.calm_done_iff.mpr hpanic)

/-- **Replies that are alike make no difference**, if nothing need be known of the answers. -/
theorem run_alike (h : w.Contains manner falters ends)
    (hmanner : ∀ request reply, manner request reply) {env env' : Replies σ}
    (halike : env.Alike env') (s : σ) : w.run env' s = w.run env s := by
  induction w generalizing s with
  | done a | crash text => rfl
  | ask request next ih =>
    have hnext (reply : request.Reply) (s' : σ) :
        (next reply).run env' s' = (next reply).run env s' := by
      obtain ⟨hnext, -⟩ := h reply (hmanner request reply)
      cases hpanic : request.panic? reply with
      | some text =>
        rw [hpanic] at hnext
        rw [hnext]
        rfl
      | none =>
        rw [hpanic] at hnext
        exact ih reply hnext s'
    simp only [run]
    rcases halike request s with hsame | ⟨reply, reply', s', hreply, hreply', hboth⟩
    · rw [hsame]
      match env request s with
      | (.done reply, s') => exact hnext reply s'
      | (.crashed text, s') | (.stalled, s') => rfl
    · simp only [hreply, hreply']
      rw [(h reply (hmanner request reply)).2 reply' hboth]
      exact hnext reply s'

end Contains

end Work

end EventRelay
