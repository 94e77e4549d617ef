import EventRelay.Proofs.Log
import EventRelay.Proofs.Ledger.Rows
import EventRelay.Proofs.Work.History

/-!
# A worker alone with the ledger

What work does when nobody else is there and the ledger never fails.  The ledger answers for itself.
The clock, the transport and user code are a `Cast`, which answers by all that has been asked before,
so that what is shown for every cast holds for every clock and every handler that keeps its hands off
the ledger.  A `Cast` makes surroundings to carry work out in (`Cast.reply`), and
`w.Gives cast scene asked s' progress` says how `w` ends there, with what it asks for on the way.

There is one rule for each way of composing work.  Everything that is not asked of the ledger is
answered by the cast (`Work.Gives.loyal`).
-/

namespace EventRelay

/-- How the clock, the transport and user code answer, after what has been asked so far. -/
abbrev Cast := (history : List Asked) → (request : Request) → request.Reply

structure Scene where
  store : Store
  history : List Asked

def Request.isCall : Request → Bool
  | .find _ | .create _ | .update _ | .tombstone _ _ | .due _ _ => true
  | .now | .send _ | .accepts _ _ | .handle _ _ | .supports _ _ | .escalate _ _ _ _ => false

def Store.serve (s : Store) : (r : Request) → Option (Except Overflow r.Reply × Store)
  | .find key => some (.ok (.ok (s.find? key)), s)
  | .create r => some (.ok (.ok (s.create r).1), (s.create r).2)
  | .update r => some ((s.update r).1.map .ok, (s.update r).2)
  | .tombstone r now => some ((s.tombstone r now).1.map .ok, (s.tombstone r now).2)
  | .due now limit => some (.ok (.ok (s.due now limit)), s)
  | .now | .send _ | .accepts _ _ | .handle _ _ | .supports _ _ | .escalate _ _ _ _ => none

theorem Store.serve_eq_none_iff {s : Store} {request : Request} :
    s.serve request = none ↔ request.isCall = false := by
  cases request <;> simp [serve, Request.isCall]

def Cast.reply (cast : Cast) : Work.Replies Scene := fun request scene =>
  match scene.store.serve request with
  | some (.ok reply, s) => (.done reply, ⟨s, scene.history ++ [⟨request, reply⟩]⟩)
  | some (.error overflow, s) => (.crashed overflow.message, ⟨s, scene.history⟩)
  | none =>
    (.done (cast scene.history request),
      ⟨scene.store, scene.history ++ [⟨request, cast scene.history request⟩]⟩)

namespace Work

variable {σ α β ε : Type}

theorem run_bind (reply : Replies σ) (w : Work α) (f : α → Work β) (s : σ) :
    (w.bind f).run reply s =
      match w.run reply s with
      | (.done a, s) => (f a).run reply s
      | (.crashed text, s) => (.crashed text, s)
      | (.stalled, s) => (.stalled, s) := by
  induction w generalizing s with
  | done a => rfl
  | crash text => rfl
  | ask request next ih =>
    simp only [bind_ask, run]
    match reply request s with
    | (.done answer, s) => exact ih answer s
    | (.crashed text, s) => rfl
    | (.stalled, s) => rfl

/-- How work ends that is carried out alone, what the ledger is then, and what was asked for on the
way. -/
def Gives (cast : Cast) (w : Work α) (scene : Scene) (asked : List Asked) (s' : Store)
    (progress : Progress α) : Prop :=
  w.run cast.reply scene = (progress, ⟨s', scene.history ++ asked⟩)

namespace Gives

variable {cast : Cast} {s s' s'' : Store} {history asked asked' : List Asked} {a : α}
  {progress : Progress β} {text : String}

theorem done : (Work.done a).Gives cast ⟨s, history⟩ [] s (.done a) :=
  Prod.ext rfl (congrArg (Scene.mk s) (List.append_nil history).symm)

theorem crash : (Work.crash text : Work α).Gives cast ⟨s, history⟩ [] s (.crashed text) :=
  Prod.ext rfl (congrArg (Scene.mk s) (List.append_nil history).symm)

theorem call {request : Request} {next : request.Reply → Work β} {reply : request.Reply}
    (h : s.serve request = some (.ok reply, s'))
    (hnext : (next reply).Gives cast ⟨s', history ++ [⟨request, reply⟩]⟩ asked s'' progress) :
    (Work.ask request next).Gives cast ⟨s, history⟩ (⟨request, reply⟩ :: asked) s'' progress := by
  unfold Gives at *
  rw [run, Cast.reply, h]
  simp only [hnext, List.append_assoc, List.singleton_append]

theorem cue {request : Request} {next : request.Reply → Work β} {reply : request.Reply}
    (h : request.isCall = false) (hreply : cast history request = reply)
    (hnext : (next reply).Gives cast ⟨s, history ++ [⟨request, reply⟩]⟩ asked s' progress) :
    (Work.ask request next).Gives cast ⟨s, history⟩ (⟨request, reply⟩ :: asked) s' progress := by
  subst hreply
  unfold Gives at *
  rw [run, Cast.reply, Store.serve_eq_none_iff.mpr h]
  simp only [hnext, List.append_assoc, List.singleton_append]

theorem clock {next : Instant → Work β}
    (hnext : (next (cast history .now)).Gives cast
      ⟨s, history ++ [⟨.now, cast history .now⟩]⟩ asked s' progress) :
    (Work.ask .now next).Gives cast ⟨s, history⟩ (⟨.now, cast history .now⟩ :: asked) s' progress :=
  cue rfl rfl hnext

theorem find {key : Key} {row? : Option Record} {next : Except Error (Option Record) → Work β}
    (h : s.find? key = row?)
    (hnext : (next (.ok row?)).Gives cast ⟨s, history ++ [⟨.find key, .ok row?⟩]⟩ asked s'
      progress) :
    (Work.ask (.find key) next).Gives cast ⟨s, history⟩ (⟨.find key, .ok row?⟩ :: asked) s'
      progress := by
  subst h
  exact call rfl hnext

theorem create {r : Record} {creation : Creation} {next : Except Error Creation → Work β}
    (h : s.create r = (creation, s'))
    (hnext : (next (.ok creation)).Gives cast ⟨s', history ++ [⟨.create r, .ok creation⟩]⟩ asked s''
      progress) :
    (Work.ask (.create r) next).Gives cast ⟨s, history⟩ (⟨.create r, .ok creation⟩ :: asked) s''
      progress := by
  refine call ?_ hnext
  rw [Store.serve, h]

theorem update {r : Record} {accepted : Bool} {next : Except Error Bool → Work β}
    (h : s.update r = (.ok accepted, s'))
    (hnext : (next (.ok accepted)).Gives cast ⟨s', history ++ [⟨.update r, .ok accepted⟩]⟩ asked s''
      progress) :
    (Work.ask (.update r) next).Gives cast ⟨s, history⟩ (⟨.update r, .ok accepted⟩ :: asked) s''
      progress := by
  refine call ?_ hnext
  rw [Store.serve, h]
  rfl

theorem tombstone {r : Record} {now : Instant} {accepted : Bool}
    {next : Except Error Bool → Work β} (h : s.tombstone r now = (.ok accepted, s'))
    (hnext : (next (.ok accepted)).Gives cast ⟨s', history ++ [⟨.tombstone r now, .ok accepted⟩]⟩
      asked s'' progress) :
    (Work.ask (.tombstone r now) next).Gives cast ⟨s, history⟩
      (⟨.tombstone r now, .ok accepted⟩ :: asked) s'' progress := by
  refine call ?_ hnext
  rw [Store.serve, h]
  rfl

theorem bind {w : Work α} {f : α → Work β} (hw : w.Gives cast ⟨s, history⟩ asked s' (.done a))
    (hf : (f a).Gives cast ⟨s', history ++ asked⟩ asked' s'' progress) :
    (w.bind f).Gives cast ⟨s, history⟩ (asked ++ asked') s'' progress := by
  unfold Gives at *
  rw [run_bind, hw]
  simp only [hf, List.append_assoc]

theorem bind_done {w : Work α} {f : α → Work β} {b : β}
    (hw : w.Gives cast ⟨s, history⟩ asked s' (.done a)) (hf : f a = .done b) :
    (w.bind f).Gives cast ⟨s, history⟩ asked s' (.done b) := by
  unfold Gives at *
  rw [run_bind, hw]
  simp only [hf, run]

theorem map {w : Work α} {progress : Progress α} (f : α → β)
    (hw : w.Gives cast ⟨s, history⟩ asked s' progress) :
    (w.bind fun a => .done (f a)).Gives cast ⟨s, history⟩ asked s' (progress.map f) := by
  unfold Gives at *
  rw [run_bind, hw]
  cases progress <;> rfl

theorem bind_crashed {w : Work α} {f : α → Work β}
    (hw : w.Gives cast ⟨s, history⟩ asked s' (.crashed text)) :
    (w.bind f).Gives cast ⟨s, history⟩ asked s' (.crashed text) := by
  unfold Gives at *
  rw [run_bind, hw]

theorem onOk {w : Work (Except ε α)} {f : α → Work (Except ε β)} {progress : Progress (Except ε β)}
    (hw : w.Gives cast ⟨s, history⟩ asked s' (.done (.ok a)))
    (hf : (f a).Gives cast ⟨s', history ++ asked⟩ asked' s'' progress) :
    (w.onOk f).Gives cast ⟨s, history⟩ (asked ++ asked') s'' progress :=
  hw.bind hf

end Gives

end Work

/-! ### Loyalty -/

/-- Whether what was not asked of the ledger was answered by the cast. -/
def Cast.Loyal (cast : Cast) (history asked : List Asked) : Prop :=
  Throughout (fun before x => x.1.isCall = false → x.2 = cast (history ++ before) x.1) asked

namespace Cast

variable {cast : Cast} {history asked asked' : List Asked}

theorem loyal_nil : cast.Loyal history [] := throughout_nil

theorem loyal_append : cast.Loyal history (asked ++ asked') ↔
    cast.Loyal history asked ∧ cast.Loyal (history ++ asked) asked' := by
  unfold Loyal
  rw [throughout_append]
  simp only [List.append_assoc]

theorem loyal_cons {x : Asked} : cast.Loyal history (x :: asked) ↔
    (x.1.isCall = false → x.2 = cast history x.1) ∧ cast.Loyal (history ++ [x]) asked := by
  unfold Loyal
  rw [throughout_cons, List.append_nil]
  simp only [List.append_assoc, List.singleton_append]

theorem Loyal.of_mem (h : cast.Loyal history asked) {x : Asked} (hx : x ∈ asked)
    (hcall : x.1.isCall = false) : ∃ before, x.2 = cast (history ++ before) x.1 := by
  obtain ⟨before, since, rfl⟩ := List.append_of_mem hx
  exact ⟨before, h before x since rfl hcall⟩

end Cast

namespace Work.Gives

variable {α : Type} {cast : Cast} {w : Work α} {s s' : Store} {history asked : List Asked}
  {progress : Progress α}

theorem exists_loyal (cast : Cast) (w : Work α) (s : Store) (history : List Asked) :
    ∃ asked s' progress, w.Gives cast ⟨s, history⟩ asked s' progress ∧
      cast.Loyal history asked := by
  induction w generalizing s history with
  | done a => exact ⟨_, _, _, .done, Cast.loyal_nil⟩
  | crash text => exact ⟨_, _, _, .crash, Cast.loyal_nil⟩
  | ask request next ih =>
    cases hcall : request.isCall with
    | false =>
      obtain ⟨asked, s', progress, hgives, hloyal⟩ := ih (cast history request) s
        (history ++ [⟨request, cast history request⟩])
      exact ⟨_, s', progress, .cue hcall rfl hgives, Cast.loyal_cons.mpr ⟨fun _ => rfl, hloyal⟩⟩
    | true =>
      match hserve : s.serve request with
      | none => exact absurd (hcall.symm.trans (Store.serve_eq_none_iff.mp hserve)) (by decide)
      | some (.ok reply, s₁) =>
        obtain ⟨asked, s', progress, hgives, hloyal⟩ := ih reply s₁ (history ++ [⟨request, reply⟩])
        refine ⟨_, s', progress, .call hserve hgives, Cast.loyal_cons.mpr ⟨fun h => ?_, hloyal⟩⟩
        exact absurd (hcall.symm.trans h) (by decide)
      | some (.error overflow, s₁) =>
        refine ⟨[], s₁, .crashed overflow.message, ?_, Cast.loyal_nil⟩
        unfold Gives
        rw [run, Cast.reply, hserve, List.append_nil]

theorem unique {asked' : List Asked} {s'' : Store} {progress' : Progress α}
    (h : w.Gives cast ⟨s, history⟩ asked s' progress)
    (h' : w.Gives cast ⟨s, history⟩ asked' s'' progress') :
    asked = asked' ∧ s' = s'' ∧ progress = progress' := by
  obtain ⟨hprogress, hscene⟩ := Prod.mk.inj (h.symm.trans h')
  obtain ⟨hstore, hhistory⟩ := Scene.mk.inj hscene
  exact ⟨List.append_cancel_left hhistory, hstore, hprogress⟩

/-- **Everything but the ledger answers as it is cast.** -/
theorem loyal (h : w.Gives cast ⟨s, history⟩ asked s' progress) : cast.Loyal history asked := by
  obtain ⟨asked', s'', progress', hgives, hloyal⟩ := exists_loyal cast w s history
  obtain ⟨rfl, -, -⟩ := h.unique hgives
  exact hloyal

end Work.Gives

/-! ### Questions -/

/-- How slots are asked one after the other: until one says yes, or panics. -/
inductive Picks (question : Nat → Except String Bool → Asked) :
    List Nat → List Asked → Except String (Option Nat) → Prop
  | nobody : Picks question [] [] (.ok none)
  | yes {slot : Nat} {rest : List Nat} :
      Picks question (slot :: rest) [question slot (.ok true)] (.ok (some slot))
  | no {slot : Nat} {rest : List Nat} {asked : List Asked} {result : Except String (Option Nat)}
      (h : Picks question rest asked result) :
      Picks question (slot :: rest) (question slot (.ok false) :: asked) result
  | panic {slot : Nat} {rest : List Nat} {text : String} :
      Picks question (slot :: rest) [question slot (.error text)] (.error text)

namespace Picks

variable {question : Nat → Except String Bool → Asked} {slots : List Nat} {asked : List Asked}
  {result : Except String (Option Nat)}

theorem question_of_mem (h : Picks question slots asked result) {x : Asked} (hx : x ∈ asked) :
    ∃ slot answer, x = question slot answer := by
  induction h with
  | nobody => cases hx
  | yes => exact ⟨_, _, List.mem_singleton.mp hx⟩
  | no h ih =>
    rcases List.mem_cons.mp hx with rfl | hx
    · exact ⟨_, _, rfl⟩
    · exact ih hx
  | panic => exact ⟨_, _, List.mem_singleton.mp hx⟩

theorem exists_ok (h : Picks question slots asked result)
    (hcalm : ∀ slot text, question slot (.error text) ∉ asked) : ∃ found, result = .ok found := by
  induction h with
  | nobody | yes => exact ⟨_, rfl⟩
  | no h ih => exact ih fun slot text hmem => hcalm slot text (List.mem_cons_of_mem _ hmem)
  | panic => exact absurd (List.mem_singleton_self _) (hcalm _ _)

/-- Where the answers do not depend on when they are given, it is the first slot that is found. -/
theorem eq_find? {accepts : Nat → Bool} (h : Picks question slots asked result)
    (haccepts : ∀ slot answer, question slot answer ∈ asked → answer = .ok (accepts slot)) :
    result = .ok (slots.find? accepts) := by
  induction h with
  | nobody => rfl
  | yes =>
    have hyes := haccepts _ _ (List.mem_singleton_self _)
    rw [List.find?_cons_of_pos (Except.ok.inj hyes).symm]
  | no h ih =>
    have hno := haccepts _ _ (List.mem_cons_self ..)
    rw [List.find?_cons_of_neg (by rw [← Except.ok.inj hno]; decide)]
    exact ih fun slot answer hmem => haccepts slot answer (List.mem_cons_of_mem _ hmem)
  | panic => exact absurd (haccepts _ _ (List.mem_singleton_self _)) (by simp)

end Picks

theorem Work.gives_firstThat {cast : Cast} {s : Store} {asks : Nat → Work (Except String Bool)}
    {question : Nat → Except String Bool → Asked}
    (hasks : ∀ slot history, ∃ answer, (asks slot).Gives cast ⟨s, history⟩ [question slot answer] s
      (.done answer)) (slots : List Nat) (history : List Asked) :
    ∃ asked, (∃ found, Picks question slots asked (.ok found) ∧
        (Work.firstThat asks slots).Gives cast ⟨s, history⟩ asked s (.done found)) ∨
      ∃ text, Picks question slots asked (.error text) ∧
        (Work.firstThat asks slots).Gives cast ⟨s, history⟩ asked s (.crashed text) := by
  induction slots generalizing history with
  | nil => exact ⟨[], .inl ⟨none, .nobody, .done⟩⟩
  | cons slot rest ih =>
    obtain ⟨answer, hanswer⟩ := hasks slot history
    match answer with
    | .ok true => exact ⟨_, .inl ⟨some slot, .yes, hanswer.bind .done⟩⟩
    | .ok false =>
      obtain ⟨asked, ⟨found, hpicks, hgives⟩ | ⟨text, hpicks, hgives⟩⟩ :=
        ih (history ++ [question slot (.ok false)])
      · exact ⟨_, .inl ⟨found, .no hpicks, hanswer.bind hgives⟩⟩
      · exact ⟨_, .inr ⟨text, .no hpicks, hanswer.bind hgives⟩⟩
    | .error text => exact ⟨_, .inr ⟨text, .panic, hanswer.bind .crash⟩⟩

end EventRelay
