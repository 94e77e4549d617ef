import EventRelay.Consumer
import EventRelay.Proofs.Work.Paths

/-!
# How a row is got hold of

A worker that is to deliver an event looks for a row that it may try, in passes: it takes over the row
that it finds, makes room for another one or creates it, and where somebody else was faster it begins
again with the row of the other.  No count is kept.  But a row may be deleted in the first pass only,
and a pass that finds a row and may not delete it is the last one.  So there are three passes at most,
whatever the ledger replies (`Consumer.search_eq`), and `Consumer.acquire` is these passes.

The calls that matter are `Deed`s, and an itinerary is a list of deeds that work may do in their
order, each at most once.  There is one lemma for each function of the consumer, which says how far
it goes along an itinerary.
-/

namespace EventRelay

/-! ### Itineraries -/

/-- What a request does to the row of an event. -/
inductive Deed where
  | find
  | tombstone
  | create
  | update
  | handle
  deriving DecidableEq

def Request.deed? : Request → Option Deed
  | .find _ => some .find
  | .create _ => some .create
  | .update _ => some .update
  | .tombstone _ _ => some .tombstone
  | .handle _ _ => some .handle
  | .now | .due _ _ | .send _ | .accepts _ _ | .supports _ _ | .escalate _ _ _ _ => none

def deedsOf (heard : List Heard) : List Deed :=
  heard.filterMap fun x => x.request.deed?

/-- A course whose positions are the deeds that may still be done, in their order.  Deeds may be left
out. -/
def itinerary (mayCrash : Prop) : Course (List Deed) where
  moves deeds request _ left :=
    match request.deed? with
    | some deed => (deed :: left).Sublist deeds
    | none => left = deeds
  crashes _ _ := mayCrash

section Itineraries

variable {mayCrash : Prop} {deeds left rest : List Deed} {α : Type}

theorem deedsOf_cons_sublist {x : Heard} {reply : x.request.Reply} {heard : List Heard}
    (hmove : (itinerary mayCrash).moves deeds x.request reply left)
    (hheard : (deedsOf heard).Sublist left) : (deedsOf (x :: heard)).Sublist deeds := by
  rw [deedsOf, List.filterMap_cons]
  unfold itinerary at hmove
  dsimp only at hmove
  cases hdeed : x.request.deed? with
  | none =>
    rw [hdeed] at hmove
    obtain rfl := hmove
    exact hheard
  | some deed =>
    rw [hdeed] at hmove
    exact (hheard.cons_cons deed).trans hmove

theorem mem_deedsOf {x : Heard} {heard : List Heard} (hx : x ∈ heard) {deed : Deed}
    (hdeed : x.request.deed? = some deed) : deed ∈ deedsOf heard :=
  List.mem_filterMap.mpr ⟨x, hx, hdeed⟩

/-- **What is heard of work on an itinerary is a part of it.** -/
theorem Work.Path.deeds_sublist {ends : List Deed → α → Prop} {w : Work α} {heard : List Heard}
    {progress : Work.Progress α} (hpath : w.Path heard progress)
    (h : w.Follows (itinerary mayCrash) ends deeds) : (deedsOf heard).Sublist deeds := by
  induction hpath generalizing deeds with
  | done a | crash text => exact List.nil_sublist deeds
  | @answered request next reply heard progress _ ih =>
    obtain ⟨left, hmove, hnext⟩ := h reply
    exact deedsOf_cons_sublist hmove (ih hnext)
  | crashed request next text | stalled request next =>
    obtain ⟨left, hmove, -⟩ := h request.answer
    exact deedsOf_cons_sublist hmove (List.nil_sublist left)

theorem follows_itinerary_write (h : (.update :: rest).Sublist deeds) (r : Record) (t : Transition) :
    (r.write t).Follows (itinerary mayCrash) (fun left _ => rest.Sublist left) deeds :=
  Work.follows_write (fun _ => rfl) (fun _ _ _ => List.sublist_of_cons_sublist h)
    fun _ _ _ _ => ⟨rest, h, List.Sublist.refl rest⟩

end Itineraries

/-! ### Deliveries -/

namespace Consumer

variable (c : Consumer) (event : Event) {mayCrash : Prop} {deeds rest : List Deed}

abbrev Spares {α : Type} (mayCrash : Prop) (deeds rest : List Deed) (w : Work α) : Prop :=
  w.Follows (itinerary mayCrash) (fun left _ => rest.Sublist left) deeds

theorem spares_claim (h : (.update :: rest).Sublist deeds) (r : Record) :
    Spares mayCrash deeds rest (c.claim r) :=
  .ask fun _ => ⟨deeds, rfl, follows_itinerary_write h r _⟩

theorem spares_join (h : (.update :: rest).Sublist deeds) (r : Record) :
    Spares mayCrash deeds rest (c.join r) := by
  unfold join
  cases r.status with
  | created =>
    refine (c.spares_claim h r).onOk (fun left claimed? hleft => ?_) fun left e hleft => hleft
    cases claimed? <;> exact hleft
  | retrying | success | failed => exact List.sublist_of_cons_sublist h

theorem spares_found (h : (.create :: .update :: rest).Sublist deeds) :
    Spares mayCrash deeds rest (c.found event) := by
  have hrest := List.sublist_of_cons_sublist (List.sublist_of_cons_sublist h)
  refine .ask fun now => ⟨deeds, rfl, ?_⟩
  cases c.codec.encode event.payload with
  | error e => exact hrest
  | ok payload =>
    refine .ask fun reply => ⟨.update :: rest, h, ?_⟩
    match reply with
    | .ok (.created r) | .error e => exact List.sublist_cons_self .update rest
    | .ok (.existing winner) => exact c.spares_join (List.Sublist.refl _) winner

theorem spares_reopen (h : (.tombstone :: .create :: .update :: rest).Sublist deeds) (r : Record) :
    Spares mayCrash deeds rest (c.reopen event r) := by
  refine .ask fun now => ⟨deeds, rfl, .ask fun reply => ⟨.create :: .update :: rest, h, ?_⟩⟩
  match reply with
  | .ok true => exact c.spares_found event (List.Sublist.refl _)
  | .ok false | .error e => exact List.sublist_append_right [.create, .update] rest

theorem spares_acquire (h : (.find :: .tombstone :: .create :: .update :: rest).Sublist deeds) :
    Spares mayCrash deeds rest (c.acquire event) := by
  refine .ask fun reply => ⟨.tombstone :: .create :: .update :: rest, h, ?_⟩
  match reply with
  | .ok none => exact c.spares_found event (List.sublist_cons_self _ _)
  | .ok (some r) =>
    by_cases hfailed : r.status = .failed
    · simp only [if_pos hfailed]
      exact c.spares_reopen event (List.Sublist.refl _) r
    · simp only [if_neg hfailed]
      exact c.spares_join (List.sublist_append_right [.tombstone, .create] _) r
  | .error e => exact List.sublist_append_right [.tombstone, .create, .update] rest

theorem spares_conclude (h : (.update :: rest).Sublist deeds) (r : Record) (t : Transition)
    (outcome : Outcome) : Spares mayCrash deeds rest (conclude r t outcome) := by
  refine (follows_itinerary_write h r t).onOk (fun left stored? hleft => ?_) fun left e hleft => hleft
  cases stored? <;> exact hleft

theorem spares_firstThat {question : Nat → Work (Except String Bool)}
    (hquestion : ∀ slot, (question slot).Follows (itinerary True) (fun left _ => left = deeds) deeds)
    (slots : List Nat) :
    (Work.firstThat question slots).Follows (itinerary True) (fun left _ => left = deeds) deeds := by
  refine Work.Follows.mono (Work.follows_firstThat fun slot _ => ?_) fun left found h => h.1
  exact (hquestion slot).mono fun left answer hleft => ⟨hleft, fun _ _ => trivial⟩

theorem spares_escalate (chain : List Nat) (r : Record) (reason : String) :
    Spares True deeds deeds (Escalation.escalate chain event r reason) := by
  have hsupports (slot : Nat) : (Work.request (.supports slot event.eventType)).Follows
      (itinerary True) (fun left _ => left = deeds) deeds := .ask fun _ => ⟨deeds, rfl, rfl⟩
  refine (spares_firstThat hsupports chain).bind fun left found? hleft => ?_
  subst hleft
  cases found? with
  | none => exact List.Sublist.refl _
  | some slot => exact .ask fun _ => ⟨_, rfl, List.Sublist.refl _⟩

theorem spares_giveUp (h : (.update :: rest).Sublist deeds) (r : Record) (message reason : String) :
    Spares True deeds rest (c.giveUp event r message reason) := by
  refine (follows_itinerary_write h r _).onOk (fun left stored? hleft => ?_) fun left e hleft => hleft
  cases stored? with
  | none => exact hleft
  | some stored =>
    exact (spares_escalate event c.chain stored reason).bind fun left' _ hleft' => hleft.trans hleft'

theorem spares_onFailure (h : (.update :: rest).Sublist deeds) (r : Record) (reason : String) :
    Spares True deeds rest (c.onFailure event r reason) := by
  unfold onFailure
  split
  · cases next32 r.retryTimes with
    | error overflow => exact trivial
    | ok n =>
      refine .ask fun now => ⟨deeds, rfl, ?_⟩
      cases c.rule.time now n with
      | error fault => exact trivial
      | ok t => exact spares_conclude h r _ _
  · exact c.spares_giveUp event h r _ _

theorem spares_attempt (h : (.handle :: .update :: rest).Sublist deeds) (r : Record) :
    Spares True deeds rest (c.attempt event r) := by
  have haccepts (slot : Nat) : (Work.request (.accepts slot event)).Follows
      (itinerary True) (fun left _ => left = deeds) deeds := .ask fun _ => ⟨deeds, rfl, rfl⟩
  refine (spares_firstThat haccepts _).bind fun left found? hleft => ?_
  subst hleft
  cases found? with
  | none => exact spares_conclude (List.sublist_of_cons_sublist h) r _ _
  | some slot =>
    refine .ask fun verdict => ⟨.update :: rest, h, ?_⟩
    cases verdict with
    | ok => exact spares_conclude (List.Sublist.refl _) r _ _
    | failed reason | panicked text => exact c.spares_onFailure event (List.Sublist.refl _) r _

theorem spares_deliver :
    Spares True [.find, .tombstone, .create, .update, .handle, .update] [] (c.deliver event) := by
  have hacquire : Spares True _ [.handle, .update] (c.acquire event) :=
    c.spares_acquire event (List.Sublist.refl _)
  refine hacquire.onOk (fun left hold hleft => ?_) fun _ _ _ => List.nil_sublist _
  cases hold with
  | owned r => exact c.spares_attempt event hleft r
  | busy status => exact List.nil_sublist _

theorem spares_redeliver :
    Spares True [.find, .update, .handle, .update] [] (c.redeliver event) := by
  refine .ask fun reply => ⟨[.update, .handle, .update], List.Sublist.refl _, ?_⟩
  match reply with
  | .ok none | .error e => exact List.nil_sublist _
  | .ok (some r) =>
    cases hstatus : r.status with
    | retrying =>
      simp only [hstatus]
      exact c.spares_attempt event (List.sublist_cons_self _ _) r
    | created =>
      simp only [hstatus]
      have hclaim : Spares True _ [.handle, .update] (c.claim r) :=
        c.spares_claim (List.Sublist.refl _) r
      refine hclaim.onOk (fun left claimed? hleft => ?_) fun _ _ _ => List.nil_sublist _
      cases claimed? with
      | none => exact List.nil_sublist _
      | some claimed => exact c.spares_attempt event hleft claimed
    | success | failed =>
      simp only [hstatus]
      exact List.nil_sublist _

/-! ### Rows that are deleted -/

variable {heard : List Heard} {progress : Work.Progress (Except Error Hold)} {r : Record}
  {now : Instant} {came : Work.Progress (Request.tombstone r now).Reply}

theorem not_tombstone {w : Work (Except Error Hold)} (hspares : Spares False deeds [] w)
    (hdeeds : .tombstone ∉ deeds) (hpath : w.Path heard progress) :
    (⟨.tombstone r now, came⟩ : Heard) ∉ heard := fun htombstone =>
  hdeeds ((hpath.deeds_sublist hspares).subset (mem_deedsOf htombstone rfl))

theorem not_tombstone_found (hpath : (c.found event).Path heard progress) :
    (⟨.tombstone r now, came⟩ : Heard) ∉ heard := by
  have hspares : Spares False [.create, .update] [] (c.found event) :=
    c.spares_found event (List.Sublist.refl _)
  exact not_tombstone hspares (by decide) hpath

theorem not_tombstone_join {r' : Record} (hpath : (c.join r').Path heard progress) :
    (⟨.tombstone r now, came⟩ : Heard) ∉ heard := by
  have hspares : Spares False [.update] [] (c.join r') := c.spares_join (List.Sublist.refl _) r'
  exact not_tombstone hspares (by decide) hpath

theorem tombstone_of_reopen {r' : Record} (hpath : (c.reopen event r').Path heard progress)
    (htombstone : (⟨.tombstone r now, came⟩ : Heard) ∈ heard) : r = r' := by
  unfold reopen at hpath
  rcases hpath.mem_ask htombstone with hnow | ⟨now', more, -, hmore, hpath⟩
  · cases hnow
  rcases hpath.mem_ask hmore with hsame | ⟨reply, more, -, hmore, hpath⟩
  · cases hsame
    rfl
  match reply with
  | .ok true => exact absurd hmore (c.not_tombstone_found event hpath)
  | .ok false | .error e =>
    cases hpath
    exact absurd hmore List.not_mem_nil

/-- **Only the row that was read is deleted**, and only if it has failed. -/
theorem tombstone_of_acquire (hpath : (c.acquire event).Path heard progress)
    (htombstone : (⟨.tombstone r now, came⟩ : Heard) ∈ heard) :
    r.status = .failed ∧ (⟨.find (c.key event.id), .done (.ok (some r))⟩ : Heard) ∈ heard := by
  unfold acquire at hpath
  rcases hpath.mem_ask htombstone with hfind | ⟨reply, more, rfl, hmore, hpath⟩
  · cases hfind
  match reply with
  | .ok none => exact absurd hmore (c.not_tombstone_found event hpath)
  | .ok (some r') =>
    by_cases hfailed : r'.status = .failed
    · simp only [if_pos hfailed] at hpath
      obtain rfl := c.tombstone_of_reopen event hpath hmore
      exact ⟨hfailed, List.mem_cons_self⟩
    · simp only [if_neg hfailed] at hpath
      exact absurd hmore (c.not_tombstone_join hpath)
  | .error e =>
    cases hpath
    exact absurd hmore List.not_mem_nil

/-! ### Passes -/

/-- How a pass of the search for a row ends. -/
inductive Turn where
  | ended (hold : Hold)
  | again (mayReopen : Bool) (current : Option Record)

/-- One pass: takes over the row that is there, makes room for another one if that is allowed, or
creates it. -/
def pass (mayReopen : Bool) : Option Record → Work (Except Error Turn)
  | none =>
    .ask .now fun now =>
      match c.codec.encode event.payload with
      | .error e => .done (.error e)
      | .ok payload =>
        .ask (.create (c.freshRecord event payload now)) fun
          | .ok (.created r) => .done (.ok (.ended (.owned r)))
          | .ok (.existing winner) => .done (.ok (.again false (some winner)))
          | .error e => .done (.error e)
  | some r =>
    match r.status with
    | .success | .retrying => .done (.ok (.ended (.busy r.status)))
    | .created =>
      (c.claim r).onOk fun
        | some claimed => .done (.ok (.ended (.owned claimed)))
        | none => .done (.ok (.ended (.busy .created)))
    | .failed =>
      if mayReopen then
        .ask .now fun now =>
          .ask (.tombstone r now) fun
            | .ok true => .done (.ok (.again false none))
            | .ok false => .done (.ok (.ended (.busy .failed)))
            | .error e => .done (.error e)
      else .done (.ok (.ended (.busy .failed)))

/-- So many passes at most. There is no result if they were not enough. -/
def passes : (n : Nat) → (mayReopen : Bool) → Option Record → Work (Except Error (Option Hold))
  | 0, _, _ => .done (.ok none)
  | n + 1, mayReopen, current =>
    (c.pass event mayReopen current).onOk fun
      | .ended hold => .done (.ok (some hold))
      | .again mayReopen current => passes n mayReopen current

/-- The search for a row in so many passes at most. A row that has failed may be deleted, until it
was or another one was found in its place. -/
def search (n : Nat) : Work (Except Error (Option Hold)) :=
  .ask (.find (c.key event.id)) fun
    | .ok current => c.passes event n true current
    | .error e => .done (.error e)

/-- What was got hold of, with passes to spare. -/
def inTime (w : Work (Except Error Hold)) : Work (Except Error (Option Hold)) :=
  w.bind fun result => .done (result.map some)

theorem passes_join (n : Nat) {mayReopen : Bool} {r : Record}
    (h : r.status = .failed → mayReopen = false) :
    c.passes event (n + 1) mayReopen (some r) = inTime (c.join r) := by
  rw [passes]
  cases hstatus : r.status with
  | success | retrying =>
    simp only [pass, join, hstatus]
    rfl
  | created =>
    simp only [pass, join, hstatus, inTime, Work.onOk, Work.bind_assoc]
    congr 1
    funext result
    rcases result with e | _ | claimed <;> rfl
  | failed =>
    simp only [pass, join, hstatus, h hstatus]
    rfl

theorem passes_found (n : Nat) (mayReopen : Bool) :
    c.passes event (n + 2) mayReopen none = inTime (c.found event) := by
  rw [passes]
  unfold pass found inTime Work.onOk
  simp only [Work.bind_ask]
  congr 1
  funext now
  cases c.codec.encode event.payload with
  | error e => rfl
  | ok payload =>
    simp only [Work.bind_ask]
    congr 1
    funext reply
    rcases reply with e | r | winner
    · rfl
    · rfl
    · exact c.passes_join event n fun _ => rfl

theorem passes_reopen (n : Nat) {r : Record} (hfailed : r.status = .failed) :
    c.passes event (n + 3) true (some r) = inTime (c.reopen event r) := by
  rw [passes]
  simp only [pass, hfailed, if_true]
  unfold reopen inTime Work.onOk
  simp only [Work.bind_ask]
  congr 1
  funext now
  congr 1
  funext reply
  rcases reply with e | _ | _
  · rfl
  · rfl
  · exact c.passes_found event n false

/-- **Three passes are enough**, and they are the search. -/
theorem search_eq (n : Nat) : c.search event (n + 3) = inTime (c.acquire event) := by
  unfold search acquire inTime
  simp only [Work.bind_ask]
  congr 1
  funext reply
  match reply with
  | .ok none => exact c.passes_found event (n + 1) true
  | .ok (some r) =>
    by_cases hfailed : r.status = .failed
    · simp only [if_pos hfailed]
      exact c.passes_reopen event n hfailed
    · simp only [if_neg hfailed]
      exact c.passes_join event (n + 2) fun h => absurd h hfailed
  | .error e => rfl

/-- Two passes are not, if the row that was read has failed and the race for the next one is lost. -/
theorem exists_search_two (r : Record) (hfailed : r.status = .failed) {payload : Bytes}
    (hpayload : c.codec.encode event.payload = .ok payload) :
    ∃ env : Work.Replies Unit, ((c.search event 2).run env ()).1 = .done (.ok none) := by
  let reply : (request : Request) → request.Reply
    | .find _ => .ok (some r)
    | .create _ => .ok (.existing r)
    | request => request.answer
  refine ⟨fun request s => (.done (reply request), s), ?_⟩
  simp only [search, passes, pass, Work.run, reply, hfailed, hpayload, if_true, Work.onOk,
    Work.bind_ask, Work.bind_done, Request.answer]

/-! ### Bounds -/

/-- **What is heard of a worker that gets hold of a row**, and how that ends. -/
structure Acquires (key : Key) (heard : List Heard)
    (progress : Work.Progress (Except Error Hold)) : Prop where
  /-- It comes to a result if every call does. -/
  returns : (∃ result, progress = .done result) ↔ ∀ x ∈ heard, x.Answered
  find : (deedsOf heard).count .find = 1
  tombstone : (deedsOf heard).count .tombstone ≤ 1
  create : (deedsOf heard).count .create ≤ 1
  update : (deedsOf heard).count .update ≤ 1
  /-- What is deleted had failed when it was read. -/
  failed : ∀ (r : Record) (now : Instant) (came : Work.Progress (Request.tombstone r now).Reply),
    (⟨.tombstone r now, came⟩ : Heard) ∈ heard →
      r.status = .failed ∧ (⟨.find key, .done (.ok (some r))⟩ : Heard) ∈ heard
  /-- Nothing is deleted once a row was to be created, and so not when that race was lost. -/
  order : heard.Pairwise fun x y =>
    x.request.deed? = some .create → y.request.deed? ≠ some .tombstone

theorem acquires_of_path (hpath : (c.acquire event).Path heard progress) :
    Acquires (c.key event.id) heard progress := by
  have hspares : Spares False [.find, .tombstone, .create, .update] [] (c.acquire event) :=
    c.spares_acquire event (List.Sublist.refl _)
  have hdeeds := hpath.deeds_sublist hspares
  have hfind : 0 < (deedsOf heard).count .find := by
    obtain ⟨came, more, rfl⟩ := hpath.exists_eq_cons
    exact List.count_pos_iff.mpr (mem_deedsOf List.mem_cons_self rfl)
  have horder : (deedsOf heard).Pairwise fun deed later => deed = .create → later ≠ .tombstone :=
    List.Pairwise.sublist hdeeds (by decide)
  exact
    { returns := hspares.returns (fun _ _ => id) hpath
      find := Nat.le_antisymm (hdeeds.count_le .find) hfind
      tombstone := hdeeds.count_le .tombstone
      create := hdeeds.count_le .create
      update := hdeeds.count_le .update
      failed := fun r now came => c.tombstone_of_acquire event hpath
      order := (List.pairwise_filterMap.mp horder).imp fun h hcreate htombstone =>
        h _ hcreate _ htombstone rfl rfl }

/-- **The search for a row is bounded**, whatever surroundings reply, and however little their replies
fit together: it ends within three passes, with one look at the ledger, one deletion, one creation
and one update at most.  So a delivery, a first one or a later one, updates a row twice at most and
calls one handler at most. -/
theorem acquisition_bounded (c : Consumer) (event : Event) :
    (∀ n, c.search event (n + 3) = inTime (c.acquire event)) ∧
      ∀ (σ : Type) (env : Work.Replies σ) (s : σ),
        Acquires (c.key event.id) ((c.acquire event).overhear env s)
            ((c.acquire event).run env s).1 ∧
          (deedsOf ((c.deliver event).overhear env s)).count .update ≤ 2 ∧
          (deedsOf ((c.deliver event).overhear env s)).count .handle ≤ 1 ∧
          (deedsOf ((c.redeliver event).overhear env s)).count .update ≤ 2 ∧
          (deedsOf ((c.redeliver event).overhear env s)).count .handle ≤ 1 := by
  refine ⟨c.search_eq event, fun σ env s => ?_⟩
  have hacquires := c.acquires_of_path event (Work.path_overhear env (c.acquire event) s)
  have hfirst := (Work.path_overhear env _ s).deeds_sublist (c.spares_deliver event)
  have hlater := (Work.path_overhear env _ s).deeds_sublist (c.spares_redeliver event)
  exact ⟨hacquires, hfirst.count_le .update, hfirst.count_le .handle, hlater.count_le .update,
    hlater.count_le .handle⟩

end Consumer

end EventRelay
