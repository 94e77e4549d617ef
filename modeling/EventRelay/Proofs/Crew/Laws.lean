import EventRelay.Proofs.Crew.Counting

/-!
# Laws of active rows

A law is a property of active rows for consuming that a new row has and that concluding an attempt
keeps.  Where rows for consuming were all created by deliveries, none of them is merely created, so
that concluding attempts is the only way in which such rows are written.  A law then holds of every
row, and of every copy that a worker goes on with, along all runs (`Chart.Lawful.run`).

Nothing is asked of consumers, events and retry rules.  Only a row to be replayed has to come from a
scan, and not from outside.
-/

namespace EventRelay

/-- **A law of active rows.** -/
structure Record.Law (P : Record → Prop) : Prop where
  fresh : ∀ (c : Consumer) (event : Event) (payload : Bytes) (now : Instant) (id : Int),
    P { c.freshRecord event payload now with id := id }
  settles : ∀ {c : Consumer} {event : Event} {r next : Record} {attempt : Consumer.Attempt}
    {t : Transition} {outcome : Consumer.Outcome} {now : Instant}, P r → r.status = .retrying →
      Consumer.Settles c event r attempt t outcome → r.transition t now = .ok next →
        P next.revised

structure Record.Awaits (P : Record → Prop) (r : Record) : Prop where
  action : r.action = .consume
  marker : r.deleteMarker = 0
  retrying : r.status = .retrying
  law : P r

/-- All active rows for consuming are beyond their creation, and as a law has them. -/
def Store.Obeys (P : Record → Prop) (s : Store) : Prop :=
  ∀ r ∈ s.rows, r.action = .consume → r.deleteMarker = 0 → r.status ≠ .created ∧ P r

/-- The copies that workers go on with are as a law has them. -/
def Post.Obeys (P : Record → Prop) : Post → Prop
  | .delivery _ _ (.holding r _) => r.Awaits P
  | .delivery _ _ (.reopening r) => r.action = .consume ∧ r.deleteMarker = 0
  | .delivery _ _ (.joining _) => False
  | .publication _ _ (.sending r) | .publication _ _ (.noting r _ _) => r.action = .publish
  | .selected _ rows => ∀ l, rows = .ok l → ∀ r ∈ l, r.Awaits P
  | _ => True

/-- Rows to be replayed are chosen by scans. -/
def Errand.FromOutside : Errand → Prop
  | .replay _ _ => False
  | .deliver _ _ | .redeliver _ _ | .publish _ _ | .scan _ _ => True

section Law

variable {P : Record → Prop} {s s' : Store} {request : Request} {reply : request.Reply}

theorem Errand.FromOutside.obeys {errand : Errand} (h : errand.FromOutside) :
    errand.post.Obeys P := by
  cases errand with
  | replay p r => exact h.elim
  | deliver c event | redeliver c event | publish p event | scan p batch => trivial

theorem Record.Awaits.obeys_replay {r : Record} (h : r.Awaits P) (p : Replayer) :
    (Errand.replay p r).post.Obeys P := by
  rcases Errand.post_replay_cases p r with ⟨event, hpost⟩ | ⟨event, reason, hpost⟩
  · rw [hpost]
    trivial
  · rw [hpost]
    exact h

theorem Store.Obeys.of_find (h : s.Obeys P) {c : Consumer} {eventId : String} {r : Record}
    (hfind : s.find? (c.key eventId) = some r) :
    r.action = .consume ∧ r.deleteMarker = 0 ∧ r.status ≠ .created ∧ P r := by
  have hkey := Store.key_of_find? hfind
  have haction : r.action = .consume := congrArg Key.action hkey
  have hmarker : r.deleteMarker = 0 := congrArg Key.deleteMarker hkey
  exact ⟨haction, hmarker, h r (Store.mem_of_find? hfind) haction hmarker⟩

theorem Post.Obeys.deliver (hlaw : Record.Law P) {c : Consumer} {event : Event}
    {stage stage' : Consumer.Stage} (h : (Post.delivery c event stage).Obeys P) (hs : s.Obeys P)
    (hreply : s.Replies request reply s')
    (hmove : Consumer.Moves c event stage request reply stage') :
    (Post.delivery c event stage').Obeys P := by
  cases hmove with
  | missing | unknown | passed | beaten | freed | kept | unclaimed | concluded | gaveUp | refused
  | consulted | notified | fault => trivial
  | reopened hfailed =>
    obtain ⟨haction, hmarker, -⟩ := hs.of_find hreply.found.1.symm
    exact ⟨haction, hmarker⟩
  | resumed hretrying =>
    obtain ⟨haction, hmarker, -, hr⟩ := hs.of_find hreply.found.1.symm
    exact ⟨haction, hmarker, hretrying, hr⟩
  | met hcreated => exact (hs.of_find hreply.found.1.symm).2.2.1 hcreated
  | created hpayload =>
    rcases hreply.creation with ⟨winner, hcreation, -⟩ | hcreation
    · cases hcreation
    · cases hcreation
      exact ⟨rfl, rfl, rfl, hlaw.fresh ..⟩
  | second hpayload hcreated =>
    rcases hreply.creation with ⟨winner, hcreation, hfind⟩ | hcreation
    · cases hcreation
      exact (hs.of_find hfind).2.2.1 hcreated
    · cases hcreation
  | claimed => exact h.elim
  | questioned | handled => exact h
  | clock htick =>
    rcases Consumer.Stage.tick_cases htick with ⟨r, verdict, rfl, rfl⟩ | rfl
    · exact h
    · exact h

theorem Post.Obeys.move (hlaw : Record.Law P) {post post' : Post} (h : post.Obeys P)
    (hs : s.Obeys P) (hreply : s.Replies request reply s')
    (hmove : post.Moves request reply post') : post'.Obeys P := by
  cases hmove with
  | delivery hmove => exact h.deliver hlaw hs hreply hmove
  | publication hmove =>
    cases hmove with
    | duplicate | unable | noted | sentUnrecorded | clock => trivial
    | created =>
      rcases hreply.creation with ⟨winner, hcreation, -⟩ | hcreation
      · cases hcreation
      · cases hcreation
        rfl
    | known hstatus =>
      rcases hreply.creation with ⟨winner, hcreation, hfind⟩ | hcreation
      · cases hcreation
        exact congrArg Key.action (Store.key_of_find? hfind)
      · cases hcreation
    | sent | deferred | clockNoting => exact h
  | clock => trivial
  | selected =>
    intro l hl r hr
    rcases hreply with ⟨hdue, -⟩ | ⟨⟨e, hfails⟩, -⟩
    · rw [hl] at hdue
      rw [Except.ok.inj hdue] at hr
      obtain ⟨hmem, hdue⟩ := Store.mem_due hr
      obtain ⟨hmarker, haction, hretrying, -⟩ := Record.isDue_iff.mp hdue
      exact ⟨haction, hmarker, hretrying, (hs r hmem haction hmarker).2⟩
    · rw [hl] at hfails
      cases hfails

theorem Post.Obeys.update (hlaw : Record.Law P) {post post' : Post} {next : Record}
    (h : post.Obeys P) (hmove : post.Moves (.update next) (.ok true) post')
    (haction : next.action = .consume) : next.status ≠ .created ∧ P next.revised := by
  cases hmove with
  | delivery hmove =>
    cases hmove with
    | claimed => exact h.elim
    | concluded hsettles hfailed hnext | gaveUp hsettles hnext =>
      exact ⟨Record.status_ne_created_of_transition hnext,
        hlaw.settles h.law h.retrying hsettles hnext⟩
    | fault hfails hs => cases hfails
  | publication hmove =>
    cases hmove with
    | noted hnext =>
      have hpublish := congrArg Record.Origin.action (Record.origin_transition hnext)
      exact absurd (haction.symm.trans (hpublish.trans h)) (by decide)

end Law

namespace Chart

variable {P : Record → Prop} {chart chart' : Chart} {entry : Entry} {log : List Entry}

structure Lawful (P : Record → Prop) (chart : Chart) : Prop where
  rows : chart.store.Obeys P
  posts : ∀ (i : Nat) post, chart.posts[i]? = some post → post.Obeys P

theorem Lawful.posts_step (hlaw : Record.Law P) (h : Lawful P chart)
    (hstep : chart.Step entry chart')
    (hbegan : ∀ errand, entry = .began errand → errand.FromOutside) :
    ∀ (i : Nat) post, chart'.posts[i]? = some post → post.Obeys P := by
  intro i post hpost
  cases hstep.came hpost with
  | stayed hold hentry => exact h.posts i post hold
  | moved hentry hold hreply hmove => exact (h.posts i _ hold).move hlaw h.rows hreply hmove
  | joined hpost hentry hj => exact hpost ▸ (hbegan _ hentry).obeys
  | @handed _ p _ _ _ hpost hentry hsel hr hj =>
    exact hpost ▸ (h.posts _ _ hsel _ rfl _ hr).obeys_replay p
  | emptied hpost hentry hsel =>
    refine hpost ▸ fun l hl r hr => ?_
    cases hl
    cases hr
  | crashed hpost hentry => exact hpost ▸ trivial

theorem Lawful.rows_step (hlaw : Record.Law P) (h : Lawful P chart)
    (hstep : chart.Step entry chart') : chart'.store.Obeys P := by
  have heffect := hstep.effect
  intro r hr haction hmarker
  generalize hs : chart'.store = s' at heffect hr
  cases heffect with
  | unchanged hupdate hcreation hcleared => exact h.rows r hr haction hmarker
  | created hfree =>
    rcases List.mem_append.mp hr with hr | hr
    · exact h.rows r hr haction hmarker
    · rw [List.mem_singleton.mp hr] at haction ⊢
      obtain ⟨post, post', -, -, -, hmove⟩ := hstep.of_asked
      cases hmove with
      | delivery hmove =>
        cases hmove with
        | created hpayload => exact ⟨by simp [Consumer.freshRecord], hlaw.fresh ..⟩
        | fault hfails hs => cases hfails
      | publication hmove =>
        cases hmove with
        | created => cases haction
  | @updated i next stored hfind hversion hactive =>
    rcases Store.mem_replace hr with rfl | ⟨hr, -⟩
    · obtain ⟨post, post', hpost, -, -, hmove⟩ := hstep.of_asked
      exact (h.posts i post hpost).update hlaw hmove haction
    · exact h.rows r hr haction hmarker
  | @deleted i next stored now hfind hversion =>
    rcases Store.mem_refile hr with rfl | ⟨hr, -, -⟩
    · exact absurd hmarker (stored.deleteMarker_deleted now)
    · exact h.rows r hr haction hmarker
  | lost hfind hversion => exact h.rows r (Store.mem_erase.mp hr).1 haction hmarker

theorem Lawful.step (hlaw : Record.Law P) (h : Lawful P chart) (hstep : chart.Step entry chart')
    (hbegan : ∀ errand, entry = .began errand → errand.FromOutside) : Lawful P chart' where
  rows := h.rows_step hlaw hstep
  posts := h.posts_step hlaw hstep hbegan

/-- **Along a run every row is as a law has it.** -/
theorem Lawful.run (hlaw : Record.Law P) (h : Lawful P chart) (hrun : chart.Run log chart')
    (hbegan : ∀ errand, Entry.began errand ∈ log → errand.FromOutside) : Lawful P chart' := by
  induction hrun with
  | start => exact h
  | step prior hstep ih =>
    refine (ih fun errand hmem => ?_).step hlaw hstep fun errand hentry => ?_
    · exact hbegan errand (List.mem_append_left _ hmem)
    · exact hbegan errand (List.mem_append_right _ (List.mem_singleton.mpr hentry.symm))

theorem lawful_start {s : Store} {errands : List Errand} (hs : s.Obeys P)
    (herrands : ∀ errand ∈ errands, errand.FromOutside) :
    Lawful P ⟨s, errands.map Errand.post⟩ where
  rows := hs
  posts i post hpost := by
    obtain ⟨errand, herrand, rfl⟩ := List.mem_map.mp (List.mem_of_getElem? hpost)
    exact (herrands errand herrand).obeys

end Chart

end EventRelay
