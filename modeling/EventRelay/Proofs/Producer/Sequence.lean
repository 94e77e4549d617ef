import Mathlib.Data.List.Induction
import EventRelay.Proofs.Alone.Delivery
import EventRelay.Proofs.Crew.Publications
import EventRelay.Proofs.Crew.Reopening
import EventRelay.Proofs.Ledger.Keys
import EventRelay.Proofs.Producer.Account

/-!
# Publications one after the other

Any events are published one after the other, as often as one likes, on a ledger that does not fail.
Each publication goes on from the row that the ones before it have left (`Producer.Publishes`), as
nobody else writes it: so an event is sent until that works once, and never again, and its row counts
how often it was sent (`Producer.Stands`).

The version of a row has 64 bits, and no sequence is considered that is longer than it can count.
-/

namespace EventRelay

open Work (Progress)

namespace Producer

/-! ### One publication -/

/-- What the transport says is noted on the row, and is the outcome. -/
inductive Notes (event : Event) (final : Record) :
    List (Event × Except Error Unit) → Outcome → Prop
  | delivered (hstatus : final.status = .success) (hmessage : final.message = none) :
      Notes event final [(event, .ok ())] .delivered
  | deferred {e : Error} (hstatus : final.status = .retrying)
      (hmessage : final.message = some (Message.truncate e.message)) :
      Notes event final [(event, .error e)] (.deferred (Message.truncate e.message))

/-- **What a publication does.**  It finds that the event was sent, or it sends it and leaves a row
that says so. -/
inductive Publishes (p : Producer) (event : Event) (s : Store) :
    List (Event × Except Error Unit) → Outcome → Store → Prop
  | duplicate {row : Record} (hfind : s.find? (p.key event.id) = some row)
      (hsuccess : row.status = .success) : Publishes p event s [] .duplicate s
  | noted {s' : Store} {final : Record} {sent : List (Event × Except Error Unit)} {outcome : Outcome}
      (hopen : ∀ row, s.find? (p.key event.id) = some row → row.status ≠ .success)
      (hversion : final.version = ((s.find? (p.key event.id)).map (·.version)).getD 0 + 1)
      (hnotes : Notes event final sent outcome) (hown : s'.find? (p.key event.id) = some final)
      (hothers : ∀ key, key ≠ p.key event.id → s'.find? key = s.find? key)
      (hkeyed : s.Keyed → s'.Keyed) : Publishes p event s sent outcome s'

namespace Publishes

variable {p : Producer} {event : Event} {s s' : Store} {sent : List (Event × Except Error Unit)}
  {outcome : Outcome}

theorem keyed (h : Publishes p event s sent outcome s') (hkeyed : s.Keyed) : s'.Keyed := by
  cases h with
  | duplicate => exact hkeyed
  | noted _ _ _ _ _ hkept => exact hkept hkeyed

theorem find?_of_ne (h : Publishes p event s sent outcome s') {key : Key}
    (hkey : key ≠ p.key event.id) : s'.find? key = s.find? key := by
  cases h with
  | duplicate => rfl
  | noted _ _ _ _ hothers => exact hothers key hkey

end Publishes

section Implementation

variable {s : Store} {row : Record} (cast : Cast) (history : List Asked)

theorem gives_send (event : Event) (hfind : s.find? row.key = some row)
    (hstatus : row.status = .created ∨ row.status = .retrying) (hrevisable : row.Revisable) :
    ∃ asked final outcome, final.key = row.key ∧ final.version = row.version + 1 ∧
      Notes event final (sends asked) outcome ∧
      (send event row).Gives cast ⟨s, history⟩ asked (s.replace final) (.done outcome) := by
  have hopen : row.status.isTerminal = false := by rcases hstatus with h | h <;> rw [h] <;> rfl
  have hcan : ∀ next : Status, next ≠ .created → row.status.canBecome next = true := by
    intro next hnext
    rcases hstatus with h | h <;> rw [h] <;> cases next <;> first | rfl | exact absurd rfl hnext
  match hreply : (cast history (.send event) : Except Error Unit) with
  | .ok () =>
    obtain ⟨now, next, hnext, hgives⟩ := Record.gives_write (t := .succeeded) cast
      (history ++ [⟨.send event, .ok ()⟩]) hfind (hcan _ nofun) hopen hrevisable
    refine ⟨_, next.revised, _, ?_, ?_, ?_, .cue rfl hreply (hgives.bind_done rfl)⟩
    all_goals subst hnext
    · rfl
    · rfl
    · exact .delivered rfl rfl
  | .error e =>
    obtain ⟨now, next, hnext, hgives⟩ := Record.gives_write
      (t := .deliveryDeferred (Message.truncate e.message)) cast
      (history ++ [⟨.send event, .error e⟩]) hfind (hcan _ nofun) hopen hrevisable
    refine ⟨_, next.revised, _, ?_, ?_, ?_, .cue rfl hreply (hgives.bind_done rfl)⟩
    all_goals subst hnext
    · rfl
    · rfl
    · exact .deferred rfl rfl

/-- **Publications do what they should**, whatever clock and transport there are. -/
theorem gives_publish (p : Producer) (event : Event)
    (hrow : ∀ row, s.find? (p.key event.id) = some row →
      row.status = .success ∨ row.status = .retrying ∧ row.Revisable) :
    ∃ asked outcome s', (p.publish event).Gives cast ⟨s, history⟩ asked s' (.done outcome) ∧
      Publishes p event s (sends asked) outcome s' := by
  let now : Instant := cast history .now
  let draft : Record := p.freshRecord event now
  cases hfind : s.find? (p.key event.id) with
  | none =>
    let row : Record := { draft with id := s.lastId + 1 }
    have hcreate : s.create draft = (.created row, s.extended row) := by
      simp only [Store.create, show s.find? draft.key = none from hfind]
      rfl
    have hfree : s.find? row.key = none := hfind
    have hown : (s.extended row).find? row.key = some row := Store.find?_extended hfree
    obtain ⟨asked, final, outcome, hkey, hversion, hnotes, hgives⟩ := gives_send cast
      (history ++ [⟨.now, now⟩] ++ [⟨.create draft, .ok (.created row)⟩]) event hown (.inl rfl)
      (show leastInt64 ≤ (0 : Int) + 1 ∧ (0 : Int) + 1 ≤ greatestInt64 by decide)
    refine ⟨_, outcome, _, .clock (.create hcreate hgives), ?_⟩
    refine .noted (fun other hother => ?_) ?_ hnotes (Store.find?_replace_of_eq hown hkey)
      (fun key hother => ?_) fun hkeyed => ?_
    · rw [hfind] at hother
      cases hother
    · rw [hfind]
      exact hversion
    · rw [Store.find?_replace_of_ne (hkey ▸ Ne.symm hother),
        Store.find?_extended_of_ne (Ne.symm hother)]
    · exact (hkeyed.concat (Store.find?_eq_none_iff.mp hfree) _).replace final
  | some row =>
    have hkey : row.key = p.key event.id := Store.key_of_find? hfind
    have hcreate : s.create draft = (.existing row, s) := by
      simp only [Store.create, show s.find? draft.key = some row from hfind]
    by_cases hsuccess : row.status = .success
    · refine ⟨[⟨.now, now⟩, ⟨.create draft, .ok (.existing row)⟩], .duplicate, s,
        .clock (.create hcreate ?_), .duplicate hfind hsuccess⟩
      simp only [if_pos hsuccess]
      exact .done
    · obtain ⟨hretrying, hrevisable⟩ := (hrow row hfind).resolve_left hsuccess
      obtain ⟨asked, final, outcome, hsame, hversion, hnotes, hgives⟩ := gives_send cast
        (history ++ [⟨.now, now⟩] ++ [⟨.create draft, .ok (.existing row)⟩]) event (hkey ▸ hfind)
        (.inr hretrying) hrevisable
      refine ⟨⟨.now, now⟩ :: ⟨.create draft, .ok (.existing row)⟩ :: asked, outcome,
        s.replace final, .clock (.create hcreate ?_), ?_⟩
      · simp only [if_neg hsuccess]
        exact hgives
      refine .noted (fun other hother => ?_) ?_ hnotes
        (Store.find?_replace_of_eq hfind (hsame.trans hkey)) (fun key hother => ?_)
        fun hkeyed => hkeyed.replace final
      · rw [hfind] at hother
        exact Option.some.inj hother ▸ hsuccess
      · rw [hfind]
        exact hversion
      · exact Store.find?_replace_of_ne (hsame.trans hkey ▸ Ne.symm hother)

end Implementation

/-! ### Sequences -/

/-- A publication that was carried out: what was to be published, what was asked on the way, and how
it ended. -/
structure Publication where
  producer : Producer
  event : Event
  asked : List Asked
  progress : Progress Outcome

namespace Publication

def call (t : Publication) : Producer × Event :=
  (t.producer, t.event)

structure Deferred (t : Publication) (e : Error) : Prop where
  progress : t.progress = .done (.deferred (Message.truncate e.message))
  sends : sends t.asked = [(t.event, .error e)]

structure Delivered (t : Publication) : Prop where
  progress : t.progress = .done .delivered
  sends : sends t.asked = [(t.event, .ok ())]

structure Duplicate (t : Publication) : Prop where
  progress : t.progress = .done .duplicate
  sends : sends t.asked = []

end Publication

/-- **Publications that are carried out one after the other.** -/
inductive Sequence (cast : Cast) (init : Scene) : List Publication → Store → Prop
  | start : Sequence cast init [] init.store
  | next {log : List Publication} {s s' : Store} {asked : List Asked} {progress : Progress Outcome}
      {p : Producer} {event : Event} (prior : Sequence cast init log s)
      (h : (p.publish event).Gives cast ⟨s, init.history ++ log.flatMap (·.asked)⟩ asked s'
        progress) : Sequence cast init (log ++ [⟨p, event, asked, progress⟩]) s'

theorem exists_sequence (cast : Cast) (init : Scene) (calls : List (Producer × Event)) :
    ∃ log s, Sequence cast init log s ∧ log.map (·.call) = calls := by
  induction calls using List.reverseRecOn with
  | nil => exact ⟨[], init.store, .start, rfl⟩
  | append_singleton calls call ih =>
    obtain ⟨log, s, hrun, rfl⟩ := ih
    obtain ⟨asked, s', progress, hgives, -⟩ := Work.Gives.exists_loyal cast
      (call.1.publish call.2) s (init.history ++ log.flatMap (·.asked))
    exact ⟨_, s', hrun.next hgives, List.map_append⟩

/-- **What the publications of one event come to**, and the rows that they leave. -/
inductive Stands : List Record → List Publication → Prop
  | unpublished : Stands [] []
  /-- The transport has not taken the event yet. -/
  | waiting {row : Record} {turns : List Publication} {last : Publication} {e : Error}
      (hturns : ∀ t ∈ turns, ∃ e, t.Deferred e) (hlast : last.Deferred e)
      (hstatus : row.status = .retrying)
      (hmessage : row.message = some (Message.truncate e.message))
      (hversion : row.version = turns.length + 1) : Stands [row] (turns ++ [last])
  /-- The transport has taken the event, after it had failed so many times. -/
  | sent {row : Record} {turns later : List Publication} {first : Publication}
      (hturns : ∀ t ∈ turns, ∃ e, t.Deferred e) (hfirst : first.Delivered)
      (hlater : ∀ t ∈ later, t.Duplicate) (hstatus : row.status = .success)
      (hmessage : row.message = none) (hversion : row.version = turns.length + 1) :
      Stands [row] (turns ++ first :: later)

namespace Stands

variable {turns : List Publication} {row? : Option Record}

theorem version_le (h : Stands row?.toList turns) {row : Record} (hrow : row? = some row) :
    1 ≤ row.version ∧ row.version ≤ turns.length := by
  subst hrow
  cases h with
  | waiting _ _ _ _ hversion | sent _ _ _ _ _ hversion =>
    rw [hversion, List.length_append, List.length_cons]
    omega

theorem status_cases (h : Stands row?.toList turns) {row : Record} (hrow : row? = some row) :
    row.status = .success ∨ row.status = .retrying := by
  subst hrow
  cases h with
  | waiting _ _ hstatus => exact .inr hstatus
  | sent _ _ _ hstatus => exact .inl hstatus

/-- As long as the event was not sent, all publications were deferred, and the row has counted
them. -/
theorem waits (h : Stands row?.toList turns) (hopen : ∀ row, row? = some row → row.status ≠ .success) :
    (∀ t ∈ turns, ∃ e, t.Deferred e) ∧ (row?.map (·.version)).getD 0 = turns.length := by
  cases row? with
  | none =>
    cases h
    exact ⟨List.forall_mem_nil _, rfl⟩
  | some row =>
    cases h with
    | waiting hturns hlast hstatus hmessage hversion =>
      refine ⟨fun t ht => ?_, ?_⟩
      · rcases List.mem_append.mp ht with ht | ht
        · exact hturns t ht
        · exact List.mem_singleton.mp ht ▸ ⟨_, hlast⟩
      · rw [List.length_append, List.length_singleton]
        exact hversion
    | sent _ _ _ hstatus => exact absurd hstatus (hopen row rfl)

theorem of_notes {final : Record} {t : Publication} {outcome : Outcome}
    (hturns : ∀ t ∈ turns, ∃ e, t.Deferred e) (hversion : final.version = turns.length + 1)
    (hnotes : Notes t.event final (sends t.asked) outcome) (hprogress : t.progress = .done outcome) :
    Stands [final] (turns ++ [t]) := by
  generalize hsends : sends t.asked = sent at hnotes
  cases hnotes with
  | delivered hstatus hmessage =>
    exact .sent hturns ⟨hprogress, hsends⟩ (List.forall_mem_nil _) hstatus hmessage hversion
  | deferred hstatus hmessage =>
    exact .waiting hturns ⟨hprogress, hsends⟩ hstatus hmessage hversion

theorem next {p : Producer} {event : Event} {s s' : Store} {asked : List Asked} {outcome : Outcome}
    (h : Stands (s.find? (p.key event.id)).toList turns)
    (hpublishes : Publishes p event s (sends asked) outcome s') :
    Stands (s'.find? (p.key event.id)).toList (turns ++ [⟨p, event, asked, .done outcome⟩]) := by
  generalize hsends : sends asked = sent at hpublishes
  cases hpublishes with
  | @duplicate row hfind hsuccess =>
    rw [hfind] at h ⊢
    cases h with
    | waiting _ _ hstatus => cases hstatus.symm.trans hsuccess
    | sent hturns hfirst hlater hstatus hmessage hversion =>
      rw [List.append_assoc, List.cons_append]
      refine .sent hturns hfirst (fun t ht => ?_) hstatus hmessage hversion
      rcases List.mem_append.mp ht with ht | ht
      · exact hlater t ht
      · exact List.mem_singleton.mp ht ▸ ⟨rfl, hsends⟩
  | noted hopen hversion hnotes hown =>
    subst hsends
    obtain ⟨hturns, hcount⟩ := h.waits hopen
    rw [hown]
    exact of_notes hturns (hversion.trans (congrArg (· + 1) hcount)) hnotes rfl

end Stands

/-! ### The ledger of a sequence -/

/-- **What publications keep up** as they come one after the other. -/
structure Books (group : String) (s : Store) (log : List Publication) : Prop where
  keyed : s.Keyed
  active : ∀ row ∈ s.rows, row.action = .publish → row.key = .active row.eventId .publish group
  stands : ∀ id, Stands (s.find? (.active id .publish group)).toList (log.filter (·.event.id = id))

namespace Books

variable {group : String} {s s' : Store} {log : List Publication}

theorem start (hkeyed : s.Keyed) (hnone : ∀ row ∈ s.rows, row.action ≠ .publish) :
    Books group s [] where
  keyed := hkeyed
  active row hrow haction := absurd haction (hnone row hrow)
  stands id := by
    cases hfind : s.find? (.active id .publish group) with
    | none => exact .unpublished
    | some row =>
      have haction := congrArg Key.action (Store.key_of_find? hfind)
      exact absurd haction (hnone row (Store.mem_of_find? hfind))

theorem next {p : Producer} {event : Event} {asked : List Asked} {outcome : Outcome}
    (h : Books group s log) (hgroup : p.config.ownerGroup = group)
    (hpublishes : Publishes p event s (sends asked) outcome s') :
    Books group s' (log ++ [⟨p, event, asked, .done outcome⟩]) := by
  have hkey : p.key event.id = .active event.id .publish group := by rw [← hgroup]; rfl
  have hkeyed := hpublishes.keyed h.keyed
  refine ⟨hkeyed, fun row hrow haction => ?_, fun id => ?_⟩
  · by_cases hown : row.key = p.key event.id
    · have hid : row.eventId = event.id := congrArg Key.eventId hown
      rw [hown, hkey, hid]
    · refine h.active row (h.keyed.mem_iff.mpr ?_) haction
      rw [← hpublishes.find?_of_ne hown]
      exact hkeyed.mem_iff.mp hrow
  · rw [List.filter_append]
    by_cases hid : event.id = id
    · subst hid
      rw [List.filter_cons_of_pos (by simp), List.filter_nil, ← hkey]
      exact Stands.next (hkey ▸ h.stands event.id) hpublishes
    · rw [List.filter_cons_of_neg (by simpa using hid), List.filter_nil, List.append_nil,
        hpublishes.find?_of_ne fun hsame => hid ?_]
      · exact h.stands id
      · rw [hkey] at hsame
        exact (congrArg Key.eventId hsame).symm

theorem filter_rows (h : Books group s log) (id : String) :
    s.rows.filter (fun row => row.action = .publish ∧ row.eventId = id) =
      (s.find? (.active id .publish group)).toList := by
  have hkey : ∀ row ∈ s.rows, row.action = .publish ∧ row.eventId = id →
      row.key = .active id .publish group :=
    fun row hrow ⟨haction, hid⟩ => hid ▸ h.active row hrow haction
  cases hfind : s.find? (.active id .publish group) with
  | none =>
    refine List.filter_eq_nil_iff.mpr fun row hrow hmatches => ?_
    exact Store.find?_eq_none_iff.mp hfind row hrow (hkey row hrow (of_decide_eq_true hmatches))
  | some row =>
    have hown := Store.key_of_find? hfind
    obtain ⟨l₁, l₂, hrows, hothers⟩ := h.keyed.split (Store.mem_of_find? hfind)
    have hnone : ∀ l : List Record, (∀ z ∈ l, z ∈ l₁ ++ l₂) →
        l.filter (fun z => z.action = .publish ∧ z.eventId = id) = [] := by
      refine fun l hl => List.filter_eq_nil_iff.mpr fun z hz hmatches => ?_
      have hmem : z ∈ s.rows := by
        rw [hrows]
        rcases List.mem_append.mp (hl z hz) with hz | hz
        · exact List.mem_append_left _ hz
        · exact List.mem_append_right _ (List.mem_cons_of_mem _ hz)
      exact hothers z (hl z hz) ((hkey z hmem (of_decide_eq_true hmatches)).trans hown.symm)
    have hrow : row.action = .publish ∧ row.eventId = id :=
      ⟨congrArg Key.action hown, congrArg Key.eventId hown⟩
    rw [hrows, List.filter_append, List.filter_cons_of_pos (by simpa using hrow),
      hnone l₁ fun z hz => List.mem_append_left _ hz, hnone l₂ fun z hz => List.mem_append_right _ hz]
    rfl

end Books

theorem Sequence.books {cast : Cast} {init : Scene} {group : String} {log : List Publication}
    {s : Store} (h : Sequence cast init log s) (hkeyed : init.store.Keyed)
    (hnone : ∀ row ∈ init.store.rows, row.action ≠ .publish)
    (hgroup : ∀ t ∈ log, t.producer.config.ownerGroup = group)
    (hlength : (log.length : Int) ≤ greatestInt64) : Books group s log := by
  induction h with
  | start => exact .start hkeyed hnone
  | @next log s s' asked progress p event prior hgives ih =>
    rw [List.length_append, List.length_singleton] at hlength
    have hbooks := ih (fun t ht => hgroup t (List.mem_append_left _ ht)) (by omega)
    have hown := hgroup _ (List.mem_append_right _ (List.mem_singleton_self _))
    have hkey : p.key event.id = .active event.id .publish group := by rw [← hown]; rfl
    have hstands := hbooks.stands event.id
    have hcount := List.length_filter_le (fun t : Publication => t.event.id = event.id) log
    obtain ⟨asked', outcome, s'', hgives', hpublishes⟩ := gives_publish cast
      (init.history ++ log.flatMap (·.asked)) p event fun row hfind => by
        rw [hkey] at hfind
        refine (hstands.status_cases hfind).imp_right fun hretrying => ⟨hretrying, ?_⟩
        obtain ⟨hlow, hhigh⟩ := hstands.version_le hfind
        have hleast : leastInt64 ≤ 0 := by decide
        exact ⟨by omega, by omega⟩
    obtain ⟨rfl, rfl, rfl⟩ := hgives.unique hgives'
    exact hbooks.next hown hpublishes

/-- **Publications that come one after the other deliver an event once.**  Any calls of producers of
one owner group are carried out, one after the other, with whatever clock and transport, on a ledger in
which nothing was published.  Of the publications of an event the first ones are deferred, as the
transport fails; then one is delivered, if there is one for which the transport does not fail, and all
later ones find that the event was sent and leave the transport alone.  The event has one row, with the
number of times that it was sent for its version, which waits with the last error or has none. -/
theorem sequence_delivers_once (cast : Cast) (init : Scene) {group : String}
    (calls : List (Producer × Event)) (hkeyed : init.store.Keyed)
    (hnone : ∀ row ∈ init.store.rows, row.action ≠ .publish)
    (hgroup : ∀ call ∈ calls, call.1.config.ownerGroup = group)
    (hlength : (calls.length : Int) ≤ greatestInt64) :
    (∃ log s, Sequence cast init log s ∧ log.map (·.call) = calls) ∧
    ∀ log s, Sequence cast init log s → log.map (·.call) = calls → ∀ id,
      Stands (s.rows.filter fun row => row.action = .publish ∧ row.eventId = id)
        (log.filter (·.event.id = id)) := by
  refine ⟨exists_sequence cast init calls, fun log s hrun hcalls id => ?_⟩
  subst hcalls
  have hbooks := hrun.books hkeyed hnone
    (fun t ht => hgroup t.call (List.mem_map_of_mem ht)) (by rwa [List.length_map] at hlength)
  rw [hbooks.filter_rows id]
  exact hbooks.stands id

end Producer

def Cast.stumbling : Cast
  | history, .send _ => if (sends history).isEmpty then .error (.transport "down") else .ok ()
  | _, request => request.answer

/-- One of two events is published three times, beside a row that is about consuming it.  Its row has
counted three publications at most. -/
theorem Producer.sequence_delivers_once_stumbling :
    let events : List Event := [Crew.parcel, { Crew.parcel with id := "f" }, Crew.parcel, Crew.parcel]
    ∃ log s row, Sequence Cast.stumbling ⟨⟨[Crew.lapsed], 1⟩, []⟩ log s ∧
      log.map (·.call) = events.map (Crew.herald, ·) ∧
      s.rows.filter (fun row => row.action = .publish ∧ row.eventId = Crew.parcel.id) = [row] ∧
      row.version ≤ 3 := by
  intro events
  obtain ⟨⟨log, s, hrun, hcalls⟩, hstands⟩ :=
    Producer.sequence_delivers_once Cast.stumbling ⟨⟨[Crew.lapsed], 1⟩, []⟩
      (events.map (Crew.herald, ·)) (List.nodup_singleton _) (by decide)
      (fun call hcall => by obtain ⟨event, -, rfl⟩ := List.mem_map.mp hcall; rfl) (by decide)
  have hcount : ((log.map (·.call)).filter fun call => call.2.id = Crew.parcel.id).length = 3 := by
    rw [hcalls]
    decide
  rw [List.filter_map, List.length_map] at hcount
  have hstand := hstands log s hrun hcalls Crew.parcel.id
  generalize hrows : s.rows.filter _ = rows at hstand
  generalize hturns : log.filter _ = turns at hstand
  have hlength : turns.length = 3 := hturns ▸ hcount
  cases hstand with
  | unpublished => cases hlength
  | waiting _ _ _ _ hversion | sent _ _ _ _ _ hversion =>
    rw [List.length_append, List.length_cons] at hlength
    exact ⟨log, s, _, hrun, hcalls, hrows, by omega⟩

end EventRelay
