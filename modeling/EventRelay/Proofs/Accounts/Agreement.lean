import EventRelay.Proofs.Accounts.Telling
import EventRelay.Proofs.Producer.Sequence

/-!
# Balances and events that agree

Whether the balances of a book can be told from the events about it.  They can, and calls that fail
have changed nothing, as long as no transfer is made to an account that was never opened: such a
transfer has taken its amount from the source by the time it fails, and its events are gone
(`Keeper.agrees_iff`).

A ledger in memory that does not fail, with a transport that takes everything, delivers every event
with a fresh identifier (`Keeper.delivering`).
-/

namespace EventRelay.Accounts

/-! ### A ledger and an obliging transport -/

def deliveredIn (history : List Asked) : List Event :=
  (sends history).filterMap fun (event, reply) => if reply.isOk then some event else none

theorem deliveredIn_append (history more : List Asked) :
    deliveredIn (history ++ more) = deliveredIn history ++ deliveredIn more := by
  simp only [deliveredIn, sends, List.filterMap_append]

namespace Keeper

/-- A ledger in memory, with a clock and a transport, as calls see them: an identifier is free as long
as its event has no row. -/
def outlet (k : Keeper) (cast : Cast) : Outlet Scene where
  reply := cast.reply
  published scene := deliveredIn scene.history
  ready n scene := ∀ m, n ≤ m → scene.store.find? (k.producer.key (k.identify m)) = none

theorem gives_delivered (p : Producer) {cast : Cast}
    (hsend : ∀ history event, cast history (.send event) = (.ok () : Except Error Unit))
    {scene : Scene} {event : Event} (hfree : scene.store.find? (p.key event.id) = none) :
    ∃ asked s', (p.publish event).Gives cast scene asked s' (.done .delivered) ∧
      deliveredIn asked = [event] ∧
      ∀ key, key ≠ p.key event.id → s'.find? key = scene.store.find? key := by
  obtain ⟨s, history⟩ := scene
  obtain ⟨asked, outcome, s', hgives, hpublishes⟩ := Producer.gives_publish cast history p event
    fun row hrow => by rw [hfree] at hrow; cases hrow
  generalize hsends : sends asked = sent at hpublishes
  cases hpublishes with
  | duplicate hfind hsuccess =>
    rw [hfree] at hfind
    cases hfind
  | noted hopen hversion hnotes hown hothers hkeyed =>
    cases hnotes with
    | delivered hstatus hmessage =>
      exact ⟨asked, s', hgives, by rw [deliveredIn, hsends]; rfl, hothers⟩
    | @deferred e hstatus hmessage =>
      -- the transport refuses nothing
      have hmem : (event, (.error e : Except Error Unit)) ∈ sends asked := by
        rw [hsends]
        exact List.mem_singleton_self _
      obtain ⟨x, hx, hasked⟩ := List.mem_filterMap.mp hmem
      obtain ⟨before, hreply⟩ := hgives.loyal.of_mem hx (by
        obtain ⟨request, reply⟩ := x
        cases request <;> first | rfl | cases hasked)
      obtain ⟨request, reply⟩ := x
      cases request <;> cases hasked
      rw [hsend] at hreply
      cases hreply

/-- **A ledger that does not fail and a transport that takes everything deliver every event**, if no
two events are called the same. -/
theorem delivering {k : Keeper} {cast : Cast} (hidentify : ∀ m n, k.identify m = k.identify n → m = n)
    (hsend : ∀ history event, cast history (.send event) = (.ok () : Except Error Unit)) :
    k.Delivering (k.outlet cast) where
  clock := by
    intro n scene hready
    refine ⟨cast scene.history .now, ⟨scene.store, _⟩, rfl, hready, ?_⟩
    show deliveredIn (scene.history ++ _) = _
    rw [deliveredIn_append]
    exact List.append_nil _
  skip := fun hready m hm => hready m (by omega)
  deliver := by
    intro n scene event hready hid
    have hfree : scene.store.find? (k.producer.key event.id) = none := by
      rw [hid]
      exact hready n (Nat.le_refl n)
    obtain ⟨asked, s', hgives, hdelivered, hothers⟩ := gives_delivered k.producer hsend hfree
    refine ⟨⟨s', scene.history ++ asked⟩, hgives, fun m hm => ?_, ?_⟩
    · have hother : k.producer.key (k.identify m) ≠ k.producer.key event.id := by
        intro hsame
        rw [hid] at hsame
        have hmn := hidentify m n (congrArg Key.eventId hsame)
        omega
      show s'.find? _ = none
      rw [hothers _ hother]
      exact hready m (by omega)
    · show deliveredIn (scene.history ++ asked) = _
      rw [deliveredIn_append, hdelivered]
      rfl

/-! ### Agreement -/

variable {σ : Type} {k : Keeper} {env : Outlet σ}

/-- **Balances and events agree at a call.**  It and the calls before it return.  If it fails, the
balances are what they were and nothing was published; if it is a transfer, the total is what it was;
and the balances are what they are reckoned to be from the events published so far. -/
def Agrees (k : Keeper) (env : Outlet σ) (s : σ) (before : List Call) (c : Call) : Prop :=
  ∃ results book s₁ result book' s₂,
    (k.calls before {}).run env.reply s = (.done (results, book), s₁) ∧
    (k.call c book).run env.reply s₁ = (.done (result, book'), s₂) ∧
    (result.isOk = false →
      book'.balances = book.balances ∧ env.published s₂ = env.published s₁) ∧
    (∀ t, c = .transfer t → total book'.balances = total book.balances) ∧
    recounted ((env.published s₂).map tells) = known book'.balances

theorem run_last (hk : k.Delivering env) {s : σ} (hs : env.ready 0 s)
    (hnothing : env.published s = []) {before : List Call} {c : Call}
    (hfits : Throughout (fun before c => c.Fits (balancesAfter before)) (before ++ [c])) :
    ∃ results n s₁ events n' s₂,
      (k.calls before {}).run env.reply s =
        (.done (results, ⟨balancesAfter before, {}, n⟩), s₁) ∧
      (k.call c ⟨balancesAfter before, {}, n⟩).run env.reply s₁ =
        (.done ((c.effect (balancesAfter before)).result,
          ⟨balancesAfter (before ++ [c]), {}, n'⟩), s₂) ∧
      events.map tells = (c.effect (balancesAfter before)).told ∧
      env.published s₂ = env.published s₁ ++ events ∧
      (env.published s₂).map tells = toldBy (before ++ [c]) := by
  obtain ⟨hbefore, hcall⟩ := throughout_concat.mp hfits
  obtain ⟨results, n, s₁, hrun, hs₁, htold⟩ := run_calls hk hs hnothing hbefore
  obtain ⟨events, n', s₂, hlast, htells, hs₂, hpublished⟩ := run_call hk hcall hs₁
  refine ⟨results, n, s₁, events, n', s₂, hrun, ?_, htells, hpublished, ?_⟩
  · rw [balancesAfter_concat]
    exact hlast
  · rw [hpublished, List.map_append, htold, htells, toldBy_concat]

theorem Agrees.not_strays (hk : k.Delivering env) {s : σ} (hs : env.ready 0 s)
    (hnothing : env.published s = []) {before : List Call} {c : Call}
    (hfits : Throughout (fun before c => c.Fits (balancesAfter before)) (before ++ [c]))
    (h : k.Agrees env s before c) : ¬ c.Strays (balancesAfter before) := by
  obtain ⟨results, book, s₁, result, book', s₂, hrun, hlast, -, htotal, -⟩ := h
  obtain ⟨results', n, s₁', events, n', s₂', hrun', hlast', -⟩ := run_last hk hs hnothing hfits
  rw [hrun] at hrun'
  cases hrun'
  rw [hlast] at hlast'
  cases hlast'
  intro hstrays
  cases c with
  | opening account initial | withdrawal account amount | deposit account amount => exact hstrays
  | transfer t =>
    have hsame := htotal t rfl
    rw [balancesAfter_concat] at hsame
    rcases Call.transfer_cases t (balancesAfter before) with ⟨hnot, -⟩ |
      ⟨-, e, between, hless, heffect⟩ | ⟨hnot, -⟩
    · exact hnot hstrays
    · rw [heffect] at hsame
      exact hstrays.1 (by simp only at hsame; omega)
    · exact hnot hstrays

theorem agrees_of_not_strays (hk : k.Delivering env) {s : σ} (hs : env.ready 0 s)
    (hnothing : env.published s = []) {before : List Call} {c : Call}
    (hfits : Throughout (fun before c => c.Fits (balancesAfter before)) (before ++ [c]))
    (h : Throughout (fun before c => ¬ c.Strays (balancesAfter before)) (before ++ [c])) :
    k.Agrees env s before c := by
  obtain ⟨results, n, s₁, events, n', s₂, hrun, hlast, htells, hpublished, htold⟩ :=
    run_last hk hs hnothing hfits
  have hkeeps := (throughout_concat.mp h).2
  refine ⟨results, _, s₁, _, _, s₂, hrun, hlast, fun hfailed => ?_, ?_, ?_⟩
  · obtain ⟨hnone, hsame⟩ := Call.effect_of_error hfailed
    rw [hnone, List.map_eq_nil_iff] at htells
    refine ⟨balancesAfter_concat.trans (hsame.mpr hkeeps), ?_⟩
    rw [hpublished, htells, List.append_nil]
  · rintro t rfl
    rw [balancesAfter_concat]
    exact Call.total_transfer hkeeps
  · rw [htold]
    exact recounted_eq hfits h

/-- **When balances and events agree.**  Let the clock answer and every event with a fresh identifier
be delivered, let any calls be made one after the other, and let no amount and no balance overflow.
Every call returns, and one that fails has published nothing.  At each of the calls the balances and
the events agree exactly if none of them is a transfer of an amount, other than zero, that its source
has, to an account that was never opened. -/
theorem agrees_iff (hk : k.Delivering env) {s : σ} (hs : env.ready 0 s)
    (hnothing : env.published s = []) {calls : List Call}
    (hfits : Throughout (fun before c => c.Fits (balancesAfter before)) calls) :
    Throughout (fun before c => ∃ results book s₁ result book' s₂,
        (k.calls before {}).run env.reply s = (.done (results, book), s₁) ∧
        book.balances = balancesAfter before ∧
        (k.call c book).run env.reply s₁ = (.done (result, book'), s₂) ∧
        (result.isOk = false → env.published s₂ = env.published s₁)) calls ∧
      (Throughout (k.Agrees env s) calls ↔
        Throughout (fun before c => ¬ c.Strays (balancesAfter before)) calls) := by
  have hpart {before since : List Call} {c : Call} (hcalls : calls = before ++ c :: since) :
      calls = (before ++ [c]) ++ since := by
    rw [hcalls, List.append_assoc, List.singleton_append]
  refine ⟨fun before c since hcalls => ?_, fun hagrees before c since hcalls => ?_,
    fun hkeeps before c since hcalls => ?_⟩
  · rw [hpart hcalls] at hfits
    obtain ⟨results, n, s₁, events, n', s₂, hrun, hlast, htells, hpublished, -⟩ :=
      run_last hk hs hnothing (throughout_append.mp hfits).1
    refine ⟨results, _, s₁, _, _, s₂, hrun, rfl, hlast, fun hfailed => ?_⟩
    rw [(Call.effect_of_error hfailed).1, List.map_eq_nil_iff] at htells
    rw [hpublished, htells, List.append_nil]
  · have hcall := hagrees before c since hcalls
    rw [hpart hcalls] at hfits
    exact hcall.not_strays hk hs hnothing (throughout_append.mp hfits).1
  · rw [hpart hcalls] at hfits hkeeps
    exact agrees_of_not_strays hk hs hnothing (throughout_append.mp hfits).1
      (throughout_append.mp hkeeps).1

/-! ### A small bank -/

/-- A teller who tells events apart by their length. -/
def teller : Keeper where
  producer := ⟨{}, .json⟩
  identify n := String.ofList (List.replicate n 'x')

theorem identify_teller (m n : Nat) (h : teller.identify m = teller.identify n) : m = n := by
  have hlength := congrArg String.length h
  simpa only [teller, String.length_ofList, List.length_replicate] using hlength

def obliging : Cast := fun _ request => request.answer

theorem delivering_teller : teller.Delivering (teller.outlet obliging) :=
  delivering identify_teller fun _ _ => rfl

def nothingYet : Scene := ⟨.empty, []⟩

theorem ready_nothingYet : (teller.outlet obliging).ready 0 nothingYet :=
  fun _ _ => rfl

/-- Two accounts are opened, and of two transfers the second is of more than there is. -/
def business : List Call :=
  [.opening "a" 100, .opening "b" 0, .transfer ⟨"a", "b", 30⟩, .transfer ⟨"a", "b", 1000⟩]

theorem agrees_business :
    Throughout (teller.Agrees (teller.outlet obliging) nothingYet) business := by
  have hfits : Throughout (fun before c => c.Fits (balancesAfter before)) business := by
    refine throughout_cons.mpr ⟨⟨by decide, by decide⟩, throughout_cons.mpr
      ⟨⟨by decide, by decide⟩, throughout_cons.mpr ⟨?_, throughout_cons.mpr ⟨?_, throughout_nil⟩⟩⟩⟩
    · refine ⟨⟨⟨by decide, by decide⟩, ?_⟩, ?_⟩
      · rintro _ ⟨⟩ -
        exact ⟨by decide, by decide⟩
      · rintro _ ⟨⟩
        refine ⟨⟨by decide, by decide⟩, ?_⟩
        rintro _ ⟨⟩
        exact ⟨by decide, by decide⟩
    · refine ⟨⟨⟨by decide, by decide⟩, ?_⟩, ?_⟩
      · rintro _ ⟨⟩ hle
        exact absurd hle (by decide)
      · rintro _ ⟨⟩
  have hkeeps : Throughout (fun before c => ¬ c.Strays (balancesAfter before)) business := by
    refine throughout_cons.mpr ⟨id, throughout_cons.mpr ⟨id, throughout_cons.mpr ⟨?_,
      throughout_cons.mpr ⟨?_, throughout_nil⟩⟩⟩⟩
    · rintro ⟨-, -, ⟨⟩⟩
    · rintro ⟨-, -, ⟨⟩⟩
  exact (agrees_iff delivering_teller ready_nothingYet rfl hfits).2.mpr hkeeps

/-- A transfer to nobody: the source has lost the amount, and nobody is told. -/
theorem transfer_to_nobody :
    ∃ results book s₁ book' s₂,
      (teller.calls [.opening "a" 100] {}).run obliging.reply nothingYet =
        (.done (results, book), s₁) ∧
      (teller.call (.transfer ⟨"a", "b", 30⟩) book).run obliging.reply s₁ =
        (.done (.error (.notOpened "b"), book'), s₂) ∧
      book.balances = [("a", 100)] ∧ book'.balances = [("a", 70)] ∧
      total book'.balances ≠ total book.balances ∧
      recounted ((deliveredIn s₂.history).map tells) "a" = some 100 := by
  refine ⟨_, _, _, _, _, rfl, rfl, rfl, rfl, ?_, rfl⟩
  decide

end Keeper

end EventRelay.Accounts
