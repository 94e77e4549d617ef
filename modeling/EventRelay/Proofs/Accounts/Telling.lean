import EventRelay.Proofs.Accounts.Balances
import EventRelay.Proofs.Alone.Basic
import EventRelay.Proofs.Scope.Nesting

/-!
# Carrying calls out

What becomes of a call where the clock answers and every event with a fresh identifier is delivered
(`Keeper.Delivering`).  Inside an open scope nothing is published: a change hands its events to the
unit of work and goes on with the balances it has made (`Change.Tells`).  At the end of the outermost
scope the events are published if all has worked, and are gone otherwise, whatever has become of the
balances.

`Keeper.run_call` says that every call returns, with the result, the balances and the events that
`Call.effect` lists, and `Keeper.run_calls` that sequences of calls do.
-/

namespace EventRelay.Accounts

/-- A change of which nothing but its success is reported. -/
def Change.plain {α : Type} (change : Change α) : Change Unit := fun book =>
  (change book).bind fun (result, book) => .done (result.map fun _ => (), book)

def Keeper.call (k : Keeper) : Call → Change Unit
  | .opening account initial => (k.openAccount account initial).plain
  | .withdrawal account amount => (k.withdraw account amount).plain
  | .deposit account amount => (k.deposit account amount).plain
  | .transfer t => (k.transfer t).plain

/-- Calls one after the other, each of which may fail. -/
def Keeper.calls (k : Keeper) :
    List Call → Book → Work (List (Except AccountError Unit) × Book)
  | [], book => .done ([], book)
  | c :: rest, book =>
    (k.call c book).bind fun (result, book) =>
      (k.calls rest book).bind fun (results, book) => .done (result :: results, book)

theorem Keeper.calls_append (k : Keeper) (before rest : List Call) (book : Book) :
    k.calls (before ++ rest) book =
      (k.calls before book).bind fun first =>
        (k.calls rest first.2).bind fun second => .done (first.1 ++ second.1, second.2) := by
  induction before generalizing book with
  | nil => exact (Work.bind_done_right _).symm
  | cons c before ih => simp only [List.cons_append, calls, ih, Work.bind_assoc, Work.bind_done]

/-- Surroundings in which calls are carried out. -/
structure Outlet (σ : Type) where
  reply : Work.Replies σ
  /-- The events that were delivered so far. -/
  published : σ → List Event
  /-- Whether the identifiers from the n-th on are free. -/
  ready : Nat → σ → Prop

/-- **The publisher always delivers.**  The clock answers, and every event with a free identifier is
delivered.  An identifier may be left out. -/
structure Keeper.Delivering {σ : Type} (k : Keeper) (env : Outlet σ) : Prop where
  clock : ∀ {n s}, env.ready n s → ∃ (now : Instant) (s' : σ),
    env.reply .now s = (.done now, s') ∧ env.ready n s' ∧ env.published s' = env.published s
  skip : ∀ {n s}, env.ready n s → env.ready (n + 1) s
  deliver : ∀ {n s} {event : Event}, env.ready n s → event.id = k.identify n → ∃ s',
    (k.producer.publish event).run env.reply s = (.done .delivered, s') ∧ env.ready (n + 1) s' ∧
      env.published s' = env.published s ++ [event]

def tells (event : Event) : String × Json :=
  (event.eventType, event.payload)

inductive Keeper.Issued (k : Keeper) : Nat → List Event → List (String × Json) → Prop
  | nil {n : Nat} : Issued k n [] []
  | cons {n : Nat} {event : Event} {events : List Event} {told : List (String × Json)}
      (hid : event.id = k.identify n) (h : Issued k (n + 1) events told) :
      Issued k n (event :: events) (tells event :: told)

variable {σ α β : Type} {k : Keeper} {env : Outlet σ}

namespace Keeper

theorem Issued.append {n : Nat} {events more : List Event} {told told' : List (String × Json)}
    (h : k.Issued n events told) (h' : k.Issued (n + told.length) more told') :
    k.Issued n (events ++ more) (told ++ told') := by
  induction h with
  | nil => exact h'
  | @cons n event events told hid h ih =>
    refine .cons hid (ih ?_)
    rwa [List.length_cons, Nat.add_comm told.length, ← Nat.add_assoc] at h'

theorem Issued.map_tells {n : Nat} {events : List Event} {told : List (String × Json)}
    (h : k.Issued n events told) : events.map tells = told := by
  induction h with
  | nil => rfl
  | cons hid h ih => rw [List.map_cons, ih]

theorem Delivering.skips (h : k.Delivering env) {n : Nat} {s : σ} (hs : env.ready n s)
    (count : Nat) : env.ready (n + count) s := by
  induction count with
  | zero => exact hs
  | succ count ih => exact h.skip ih

theorem Delivering.run_publishAll (h : k.Delivering env) {n : Nat} {events : List Event}
    {told : List (String × Json)} (hissued : k.Issued n events told) {s : σ}
    (hs : env.ready n s) : ∃ outcomes s',
      (k.producer.publishAll events).run env.reply s = (.done outcomes, s') ∧
        env.ready (n + told.length) s' ∧ env.published s' = env.published s ++ events := by
  induction hissued generalizing s with
  | nil => exact ⟨[], s, rfl, hs, (List.append_nil _).symm⟩
  | @cons n event events told hid hissued ih =>
    obtain ⟨s₁, hrun, hs₁, hpublished⟩ := h.deliver hs hid
    obtain ⟨outcomes, s₂, hrest, hs₂, hmore⟩ := ih hs₁
    refine ⟨.delivered :: outcomes, s₂, ?_, ?_, ?_⟩
    · simp only [Producer.publishAll, Work.run_bind, hrun, hrest, Work.run]
    · rwa [List.length_cons, Nat.add_comm told.length, ← Nat.add_assoc]
    · rw [hmore, hpublished, List.append_assoc, List.singleton_append]

end Keeper

/-! ### Inside an open scope -/

/-- **What a change does inside an open scope.**  It turns balances into others, and hands events to
the unit of work, which can only be rolled back if something is not sound.  Nothing is published, so
that the identifiers of these events stay free. -/
def Change.Tells (k : Keeper) (env : Outlet σ) (change : Change α) (before : List (String × Int))
    (result : Except AccountError α) (after : List (String × Int)) (told : List (String × Json))
    (sound : Bool) : Prop :=
  ∀ (u : WorkUnit) (n free : Nat) (s : σ), u.completed = false → env.ready free s →
    ∃ events s', (change ⟨before, ⟨some u⟩, n⟩).run env.reply s =
        (.done (result, ⟨after, ⟨some (u.holding events sound)⟩, n + told.length⟩), s') ∧
      k.Issued n events told ∧ env.ready free s' ∧ env.published s' = env.published s

namespace Change.Tells

variable {change : Change α} {before between after : List (String × Int)}
  {told told' : List (String × Json)} {sound sound' : Bool} {result : Except AccountError α}

theorem of_eq {other : Change α} (h : other.Tells k env between result after told sound)
    (heq : ∀ task n, change ⟨before, task, n⟩ = other ⟨between, task, n⟩) :
    change.Tells k env before result after told sound := by
  intro u n free s hopen hs
  rw [heq]
  exact h u n free s hopen hs

theorem done (result : Except AccountError α) :
    Change.Tells k env (fun book => .done (result, book)) before result before [] true := by
  intro u n free s hopen hs
  exact ⟨[], s, by rw [WorkUnit.holding_nil]; rfl, .nil, hs, rfl⟩

theorem record (h : k.Delivering env) (eventType : String) (payload : Json) :
    Change.Tells k env (k.record eventType payload) before (.ok ()) before
      [(eventType, payload)] true := by
  intro u n free s hopen hs
  obtain ⟨now, s', hnow, hs', hpublished⟩ := h.clock hs
  refine ⟨[⟨k.identify n, eventType, payload, now, none⟩], s', ?_, .cons rfl .nil, hs', hpublished⟩
  simp only [Keeper.record, Work.run, hnow, Task.record, WorkUnit.record_of_open hopen,
    Work.bind_done]
  rfl

theorem andThen {next : α → Change β} {a : α} {result : Except AccountError β}
    (hfirst : change.Tells k env before (.ok a) between told sound)
    (hnext : (next a).Tells k env between result after told' sound') :
    (change.andThen next).Tells k env before result after (told ++ told') (sound && sound') := by
  intro u n free s hopen hs
  obtain ⟨events, s₁, hrun, hissued, hs₁, hpublished⟩ := hfirst u n free s hopen hs
  obtain ⟨more, s₂, hrest, hissued', hs₂, hpublished'⟩ :=
    hnext (u.holding events sound) (n + told.length) free s₁ hopen hs₁
  refine ⟨events ++ more, s₂, ?_, hissued.append hissued', hs₂, hpublished'.trans hpublished⟩
  rw [WorkUnit.holding_holding] at hrest
  simp only [Change.andThen, Work.run_bind, hrun, hrest, List.length_append, Nat.add_assoc]

theorem andThen_done {a : α} (f : α → Except AccountError β)
    (h : change.Tells k env before (.ok a) after told sound) :
    (change.andThen fun a book => .done (f a, book)).Tells k env before (f a) after told sound := by
  intro u n free s hopen hs
  obtain ⟨events, s₁, hrun, hrest⟩ := h u n free s hopen hs
  refine ⟨events, s₁, ?_, hrest⟩
  simp only [Change.andThen, Work.run_bind, hrun, Work.run]

theorem andThen_error {next : α → Change β} {e : AccountError}
    (h : change.Tells k env before (.error e) after told sound) :
    (change.andThen next).Tells k env before (.error e) after told sound := by
  intro u n free s hopen hs
  obtain ⟨events, s₁, hrun, hissued, hs₁, hpublished⟩ := h u n free s hopen hs
  refine ⟨events, s₁, ?_, hissued, hs₁, hpublished⟩
  simp only [Change.andThen, Work.run_bind, hrun, Work.run]

theorem transactional (h : change.Tells k env before result after told sound) :
    (k.transactional change).Tells k env before result after told (sound && result.isOk) := by
  intro u n free s hopen hs
  obtain ⟨events, s₁, hrun, hissued, hs₁, hpublished⟩ := h u n free s hopen hs
  refine ⟨events, s₁, ?_, hissued, hs₁, hpublished⟩
  have hleave := Activity.leave_inside k.producer u ⟨some u⟩ rfl events sound
    (if result.isOk then .succeeded else .failed)
  simp only [Keeper.transactional, Task.enter, Option.getD_some, Work.run_bind, hrun, hleave]
  cases result with
  | ok a => rfl
  | error e => rfl

end Change.Tells

/-! ### At the outermost end -/

/-- A change that is a scope around what is told of here. -/
def Change.Wraps (k : Keeper) (env : Outlet σ) (change : Change α) (before : List (String × Int))
    (result : Except AccountError α) (after : List (String × Int)) (told : List (String × Json))
    (sound : Bool) : Prop :=
  ∃ body : Change α, change = k.transactional body ∧
    body.Tells k env before result after told sound

namespace Change.Wraps

variable {change : Change α} {before after : List (String × Int)} {told : List (String × Json)}
  {sound : Bool} {result : Except AccountError α}

theorem inside (h : change.Wraps k env before result after told sound) :
    change.Tells k env before result after told (sound && result.isOk) := by
  obtain ⟨body, rfl, htells⟩ := h
  exact htells.transactional

/-- **All is published at the outermost end, or nothing.**  The balances are what has become of them
in any case. -/
theorem run_outermost (h : change.Wraps k env before result after told sound)
    (hk : k.Delivering env) {n : Nat} {s : σ} (hs : env.ready n s) :
    ∃ events s', (change ⟨before, {}, n⟩).run env.reply s =
        (.done (result, ⟨after, {}, n + told.length⟩), s') ∧
      events.map tells = (if sound && result.isOk then told else []) ∧
      env.ready (n + told.length) s' ∧ env.published s' = env.published s ++ events := by
  obtain ⟨body, rfl, htells⟩ := h
  obtain ⟨events, s₁, hrun, hissued, hs₁, hpublished⟩ := htells {} n n s rfl hs
  have hissued : k.Issued n (if sound && result.isOk then events else [])
      (if sound && result.isOk then told else []) := by
    split
    · exact hissued
    · exact .nil
  have hleave : Task.leave k.producer {} ⟨some (({} : WorkUnit).holding events sound)⟩
      (if result.isOk then .succeeded else .failed) =
        (k.producer.publishAll (if sound && result.isOk then events else [])).bind
          fun _ => .done {} := by
    rw [Activity.leave_outermost]
    cases result <;> rfl
  obtain ⟨outcomes, s₂, hpublish, hs₂, hmore⟩ := hk.run_publishAll hissued hs₁
  refine ⟨_, s₂, ?_, hissued.map_tells, ?_, by rw [hmore, hpublished]⟩
  · simp only [Keeper.transactional, Task.enter, Option.getD_none, Work.run_bind, hrun, hleave,
      hpublish, Work.run]
  · split at hs₂
    · exact hs₂
    · exact hk.skips hs₂ told.length

end Change.Wraps

/-! ### Calls -/

/-- **A change that carries an effect out.**  What it tells of is published if it works and nothing
inside has failed. -/
def Change.Carries (k : Keeper) (env : Outlet σ) (change : Change α)
    (balances : List (String × Int)) (effect : Effect) : Prop :=
  ∃ result told sound, change.Wraps k env balances result effect.balances told sound ∧
    result.map (fun _ => ()) = effect.result ∧
      (if sound && result.isOk then told else []) = effect.told

theorem Change.Carries.run_plain {change : Change α} {balances : List (String × Int)}
    {effect : Effect} (h : change.Carries k env balances effect) (hk : k.Delivering env) {n : Nat}
    {s : σ} (hs : env.ready n s) :
    ∃ events n' s', (change.plain ⟨balances, {}, n⟩).run env.reply s =
        (.done (effect.result, ⟨effect.balances, {}, n'⟩), s') ∧
      events.map tells = effect.told ∧ env.ready n' s' ∧
      env.published s' = env.published s ++ events := by
  obtain ⟨result, told, sound, hwraps, hresult, htold⟩ := h
  obtain ⟨events, s', hrun, htells, hrest⟩ := hwraps.run_outermost hk hs
  refine ⟨events, _, s', ?_, htells.trans htold, hrest⟩
  simp only [Change.plain, Work.run_bind, hrun, Work.run, hresult]

section Calls

variable {balances next : List (String × Int)} {account : String} {amount : Int} {e : AccountError}

namespace Keeper

theorem open_carries (hk : k.Delivering env) (account : String) (initial : Int)
    (balances : List (String × Int)) : (k.openAccount account initial).Carries k env balances
      ((Call.opening account initial).effect balances) :=
  ⟨_, _, true, ⟨_, rfl, (Change.Tells.record hk _ _).of_eq fun _ _ => rfl⟩, rfl, rfl⟩

theorem withdraw_wraps (hk : k.Delivering env) (h : taken account amount balances = .ok next)
    (hfits : TakenFits account amount balances) :
    ∃ left, (k.withdraw account amount).Wraps k env balances (.ok left) next
      [withdrawn account amount] true := by
  obtain ⟨balance, hlookup, hle, rfl⟩ := taken_eq_ok h
  have hleft : within64 .subtract (balance - amount) = .ok (balance - amount) :=
    if_pos (hfits.2 balance hlookup hle)
  refine ⟨balance - amount, _, rfl, Change.Tells.of_eq ((Change.Tells.record hk _ _).andThen_done
    fun _ => .ok (balance - amount)) fun task n => ?_⟩
  simp only [hlookup, if_neg (show ¬ balance < amount by omega), hleft]
  rfl

theorem withdraw_refused (h : taken account amount balances = .error e) :
    (k.withdraw account amount).Wraps k env balances (.error e) balances [] true := by
  refine ⟨_, rfl, Change.Tells.of_eq (.done (.error e)) fun task n => ?_⟩
  cases hlookup : balances.lookup account with
  | none =>
    rw [taken_of_lookup_none hlookup] at h
    cases h
    rfl
  | some balance =>
    obtain ⟨hless, rfl⟩ := less_of_taken_eq_error h hlookup
    exact if_pos hless

theorem withdraw_carries (hk : k.Delivering env) (hfits : TakenFits account amount balances) :
    (k.withdraw account amount).Carries k env balances
      ((Call.withdrawal account amount).effect balances) := by
  cases htaken : taken account amount balances with
  | error e =>
    simp only [Call.effect, htaken]
    exact ⟨_, _, true, withdraw_refused htaken, rfl, rfl⟩
  | ok next =>
    obtain ⟨left, hwraps⟩ := withdraw_wraps hk htaken hfits
    simp only [Call.effect, htaken]
    exact ⟨_, _, true, hwraps, rfl, rfl⟩

theorem deposit_wraps (hk : k.Delivering env) (h : added account amount balances = .ok next)
    (hfits : AddedFits account amount balances) :
    ∃ sum, (k.deposit account amount).Wraps k env balances (.ok sum) next
      [deposited account amount] true := by
  obtain ⟨balance, hlookup, rfl⟩ := added_eq_ok h
  have hsum : within64 .add (balance + amount) = .ok (balance + amount) :=
    if_pos (hfits.2 balance hlookup)
  refine ⟨balance + amount, _, rfl, Change.Tells.of_eq ((Change.Tells.record hk _ _).andThen_done
    fun _ => .ok (balance + amount)) fun task n => ?_⟩
  simp only [hlookup, hsum]
  rfl

theorem deposit_refused (h : added account amount balances = .error e) :
    (k.deposit account amount).Wraps k env balances (.error e) balances [] true := by
  refine ⟨_, rfl, Change.Tells.of_eq (.done (.error e)) fun task n => ?_⟩
  have hlookup := added_eq_error h
  rw [added_of_lookup_none hlookup] at h
  cases h
  simp only [hlookup]

theorem deposit_carries (hk : k.Delivering env) (hfits : AddedFits account amount balances) :
    (k.deposit account amount).Carries k env balances
      ((Call.deposit account amount).effect balances) := by
  cases hadded : added account amount balances with
  | error e =>
    simp only [Call.effect, hadded]
    exact ⟨_, _, true, deposit_refused hadded, rfl, rfl⟩
  | ok next =>
    obtain ⟨sum, hwraps⟩ := deposit_wraps hk hadded hfits
    simp only [Call.effect, hadded]
    exact ⟨_, _, true, hwraps, rfl, rfl⟩

/-- **What transfers do**, with one case for each way in which the parts can go. -/
theorem transfer_carries (hk : k.Delivering env) {t : Transfer}
    (hfits : (Call.transfer t).Fits balances) :
    (k.transfer t).Carries k env balances ((Call.transfer t).effect balances) := by
  obtain ⟨hwithdrawal, hdeposit⟩ := hfits
  cases htaken : taken t.source t.amount balances with
  | error e =>
    simp only [Call.effect, htaken]
    exact ⟨_, _, false, ⟨_, rfl, (withdraw_refused htaken).inside.andThen_error⟩, rfl, rfl⟩
  | ok between =>
    obtain ⟨left, hfirst⟩ := withdraw_wraps hk htaken hwithdrawal
    cases hadded : added t.target t.amount between with
    | error e =>
      simp only [Call.effect, htaken, hadded]
      exact ⟨_, _, false,
        ⟨_, rfl, hfirst.inside.andThen (deposit_refused hadded).inside.andThen_error⟩, rfl, rfl⟩
    | ok next =>
      obtain ⟨sum, hsecond⟩ := deposit_wraps hk hadded (hdeposit between htaken)
      simp only [Call.effect, htaken, hadded]
      exact ⟨_, _, true,
        ⟨_, rfl, hfirst.inside.andThen (hsecond.inside.andThen_done fun _ => .ok ())⟩, rfl, rfl⟩

/-- **Every call returns**, as `Call.effect` has it, and what it tells of is published. -/
theorem run_call (hk : k.Delivering env) {c : Call} (hfits : c.Fits balances) {n : Nat} {s : σ}
    (hs : env.ready n s) :
    ∃ events n' s', (k.call c ⟨balances, {}, n⟩).run env.reply s =
        (.done ((c.effect balances).result, ⟨(c.effect balances).balances, {}, n'⟩), s') ∧
      events.map tells = (c.effect balances).told ∧ env.ready n' s' ∧
      env.published s' = env.published s ++ events := by
  cases c with
  | opening account initial => exact (open_carries hk account initial balances).run_plain hk hs
  | withdrawal account amount => exact (withdraw_carries hk hfits).run_plain hk hs
  | deposit account amount => exact (deposit_carries hk hfits).run_plain hk hs
  | transfer t => exact (transfer_carries hk hfits).run_plain hk hs

end Keeper

end Calls

/-! ### Sequences of calls -/

namespace Keeper

theorem run_calls_concat {calls : List Call} {c : Call} {book book₁ : Book} {s s₁ : σ}
    {results : List (Except AccountError Unit)}
    (h : (k.calls calls book).run env.reply s = (.done (results, book₁), s₁))
    {result : Except AccountError Unit} {book₂ : Book} {s₂ : σ}
    (hlast : (k.call c book₁).run env.reply s₁ = (.done (result, book₂), s₂)) :
    (k.calls (calls ++ [c]) book).run env.reply s =
      (.done (results ++ [result], book₂), s₂) := by
  simp only [calls_append, Work.run_bind, h, Keeper.calls, hlast, Work.run]

/-- **Every sequence of calls returns**, with the balances and the events of `course`. -/
theorem run_calls (hk : k.Delivering env) {s : σ} (hs : env.ready 0 s)
    (hnothing : env.published s = []) {calls : List Call}
    (hfits : Throughout (fun before c => c.Fits (balancesAfter before)) calls) :
    ∃ results n s', (k.calls calls {}).run env.reply s =
        (.done (results, ⟨balancesAfter calls, {}, n⟩), s') ∧
      env.ready n s' ∧ (env.published s').map tells = toldBy calls := by
  induction calls using List.reverseRecOn with
  | nil =>
    refine ⟨[], 0, s, rfl, hs, ?_⟩
    rw [hnothing]
    rfl
  | append_singleton calls c ih =>
    obtain ⟨hfits, hcall⟩ := throughout_concat.mp hfits
    obtain ⟨results, n, s₁, hrun, hs₁, htold⟩ := ih hfits
    obtain ⟨events, n', s₂, hlast, htells, hs₂, hpublished⟩ := run_call hk hcall hs₁
    refine ⟨results ++ [(c.effect (balancesAfter calls)).result], n', s₂, ?_, hs₂, ?_⟩
    · rw [balancesAfter_concat]
      exact run_calls_concat hrun hlast
    · rw [hpublished, List.map_append, htold, htells, toldBy_concat]

end Keeper

end EventRelay.Accounts
