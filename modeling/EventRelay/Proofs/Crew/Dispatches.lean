import EventRelay.Proofs.Crew.Origins
import EventRelay.Proofs.Json.RoundTrip

/-!
# Replays of dispatched events

A replay makes its event from the columns of a row, and what comes out is the event that somebody
asked to have delivered: with its id, type and payload, with the time at which a row was created for
it, and with the limit that row was created with.  Rows keep these columns (`Chart.Traced`), scans
select rows for consuming alone, and what the codec wrote is read back.  So no scan gives up a row
because no event can be made of it, and handlers are called for dispatched events and for nothing
else.

`replayed_as_dispatched` states this for any crew on a ledger that begins empty.
-/

namespace EventRelay

/-! ### Errands and their workers -/

/-- Where a worker may be on an errand. -/
def Errand.LeadsTo (errand : Errand) : Post → Prop
  | .delivery c event _ => ∃ stage, errand.post = .delivery c event stage
  | .publication p event _ => ∃ stage, errand.post = .publication p event stage
  | .selecting p _ | .selected p _ => ∃ batch, errand = .scan p batch
  | .crashed => True

theorem Errand.leadsTo_post (errand : Errand) : errand.LeadsTo errand.post := by
  cases errand with
  | deliver c event | redeliver c event | publish p event => exact ⟨_, rfl⟩
  | scan p batch => exact ⟨batch, rfl⟩
  | replay p r =>
    rcases post_replay_cases p r with ⟨event, hpost⟩ | ⟨event, reason, hpost⟩
    · rw [hpost]
      exact ⟨_, hpost⟩
    · rw [hpost]
      exact ⟨_, hpost⟩

theorem Errand.LeadsTo.move {errand : Errand} {post post' : Post} {request : Request}
    {reply : request.Reply} (h : errand.LeadsTo post) (hmove : post.Moves request reply post') :
    errand.LeadsTo post' := by
  cases hmove with
  | delivery | publication | clock | selected => exact h

namespace Chart

variable {known : List Errand} {chart chart' : Chart} {entry : Entry}

structure Staffed (known : List Errand) (chart : Chart) : Prop where
  length : known.length = chart.posts.length
  post : ∀ (i : Nat) errand post, known[i]? = some errand → chart.posts[i]? = some post →
    errand.LeadsTo post

namespace Staffed

theorem errand (h : Staffed known chart) {i : Nat} {post : Post}
    (hpost : chart.posts[i]? = some post) :
    ∃ errand, known[i]? = some errand ∧ errand.LeadsTo post := by
  have hlt : i < known.length := by
    rw [h.length]
    exact (List.getElem?_eq_some_iff.mp hpost).1
  have herrand := List.getElem?_eq_getElem hlt
  exact ⟨_, herrand, h.post i _ post herrand hpost⟩

theorem set (h : Staffed known chart) (s : Store) {i : Nat} {post : Post}
    (hi : ∀ errand, known[i]? = some errand → errand.LeadsTo post) :
    Staffed known ⟨s, chart.posts.set i post⟩ where
  length := by
    show known.length = (chart.posts.set i post).length
    rw [List.length_set, h.length]
  post j errand other herrand hother := by
    rcases getElem?_set_cases hother with ⟨rfl, rfl⟩ | ⟨-, hother⟩
    · exact hi errand herrand
    · exact h.post j errand other herrand hother

theorem append (h : Staffed known chart) (errands : List Errand) :
    Staffed (known ++ errands) ⟨chart.store, chart.posts ++ errands.map Errand.post⟩ where
  length := by simp [h.length]
  post i errand post herrand hpost := by
    by_cases hi : i < known.length
    · rw [List.getElem?_append_left hi] at herrand
      rw [List.getElem?_append_left (h.length ▸ hi)] at hpost
      exact h.post i errand post herrand hpost
    · have hle := Nat.le_of_not_lt hi
      rw [List.getElem?_append_right hle] at herrand
      rw [List.getElem?_append_right (h.length ▸ hle), ← h.length, List.getElem?_map,
        herrand] at hpost
      rw [← Option.some.inj hpost]
      exact errand.leadsTo_post

theorem step (h : Staffed known chart) (hstep : chart.Step entry chart') :
    Staffed (known ++ entry.hires known) chart' := by
  cases hstep with
  | began errand => exact h.append [errand]
  | asked hpost hreply hmove =>
    rw [Entry.hires, List.append_nil]
    exact h.set _ fun errand herrand => (h.post _ errand _ herrand hpost).move hmove
  | crashed hpost hover hmove =>
    rw [Entry.hires, List.append_nil]
    exact h.set _ fun errand herrand => trivial
  | @handedOut s posts i p rows hpost =>
    obtain ⟨errand, herrand, batch, rfl⟩ := h.errand hpost
    have hset : Staffed known ⟨s, posts.set i (.selected p (.ok []))⟩ := by
      refine h.set s fun errand' herrand' => ?_
      rw [← Option.some.inj (herrand.symm.trans herrand')]
      exact ⟨batch, rfl⟩
    have happend := hset.append (rows.map (Errand.replay p))
    rw [List.map_map] at happend
    rw [Entry.hires, herrand]
    exact happend

end Staffed

theorem staffed_run {s : Store} {errands : List Errand} {log : List Entry}
    (hrun : (Chart.mk s (errands.map Errand.post)).Run log chart) :
    Staffed (roster errands log) chart := by
  induction hrun with
  | start =>
    have hnobody : Staffed [] ⟨s, []⟩ := ⟨rfl, fun i errand post herrand => by simp at herrand⟩
    exact hnobody.append errands
  | step prior hstep ih =>
    rw [roster_concat]
    exact ih.step hstep

end Chart

/-! ### Where errands come from -/

/-- The rows that a scan has chosen are active rows for consuming. -/
def Post.Chooses : Post → Prop
  | .selected _ (.ok rows) => ∀ r ∈ rows, r.key = .active r.eventId .consume r.ownerGroup
  | _ => True

theorem Errand.chooses (errand : Errand) : errand.post.Chooses := by
  cases errand with
  | replay p r =>
    rcases post_replay_cases p r with ⟨event, hpost⟩ | ⟨event, reason, hpost⟩
    · rw [hpost]
      trivial
    · rw [hpost]
      trivial
  | deliver c event | redeliver c event | publish p event | scan p batch => trivial

theorem Post.Chooses.move {s s' : Store} {post post' : Post} {request : Request}
    {reply : request.Reply} (hreply : s.Replies request reply s')
    (hmove : post.Moves request reply post') : post'.Chooses := by
  cases hmove with
  | delivery | publication | clock => trivial
  | @selected p batch now reply =>
    cases reply with
    | error e => trivial
    | ok rows =>
      rcases hreply with ⟨hdue, -⟩ | ⟨⟨e, hfails⟩, -⟩
      · intro r hr
        rw [Except.ok.inj hdue] at hr
        exact Record.key_of_isDue (Store.mem_due hr).2
      · cases hfails

theorem Chart.chooses_run {s : Store} {errands : List Errand} {log : List Entry} {chart : Chart}
    (hrun : (Chart.mk s (errands.map Errand.post)).Run log chart) :
    ∀ (i : Nat) post, chart.posts[i]? = some post → post.Chooses := by
  induction hrun with
  | start =>
    intro i post hpost
    obtain ⟨errand, -, rfl⟩ := List.mem_map.mp (List.mem_of_getElem? hpost)
    exact errand.chooses
  | step prior hstep ih =>
    intro i post hpost
    cases hstep.came hpost with
    | stayed hold hentry => exact ih i post hold
    | moved hentry hold hreply hmove => exact Post.Chooses.move hreply hmove
    | @joined errand _ hpost hentry hj => exact hpost ▸ errand.chooses
    | @handed _ p _ r _ hpost hentry hsel hr hj => exact hpost ▸ (Errand.replay p r).chooses
    | emptied hpost hentry hsel => exact hpost ▸ fun r hr => absurd hr List.not_mem_nil
    | crashed hpost hentry => exact hpost ▸ trivial

/-- An errand was taken on from outside, or is to replay a row that a scan chose: an active row for
consuming, which was created since if there was none under its key before. -/
def Errand.Given (s : Store) (errands : List Errand) (log : List Entry) (errand : Errand) : Prop :=
  errand.TakenOn errands log ∨ ∃ p r batch, errand = .replay p r ∧
    (Errand.scan p batch).TakenOn errands log ∧
      r.key = .active r.eventId .consume r.ownerGroup ∧
        (s.find? r.key = none → r.TracedTo log)

theorem Errand.Given.concat {s : Store} {errands : List Errand} {log : List Entry}
    {errand : Errand} (h : errand.Given s errands log) (entry : Entry) :
    errand.Given s errands (log ++ [entry]) := by
  rcases h with htaken | ⟨p, r, batch, rfl, hscan, hkey, htraced⟩
  · exact .inl (htaken.concat entry)
  · exact .inr ⟨p, r, batch, rfl, hscan.concat entry, hkey, fun hfree => (htraced hfree).concat entry⟩

namespace Chart

variable {s : Store} {errands : List Errand} {log : List Entry} {chart : Chart}

/-- **Along a run all errands are from outside, or from scans.** -/
theorem given_run (herrands : ∀ errand ∈ errands, errand.FromOutside)
    (hrun : (Chart.mk s (errands.map Errand.post)).Run log chart)
    (hbegan : ∀ errand, Entry.began errand ∈ log → errand.FromOutside) :
    ∀ errand ∈ roster errands log, errand.Given s errands log := by
  induction hrun with
  | start => exact fun errand herrand => .inl (.inl herrand)
  | @step log chart _ entry prior hstep ih =>
    have hprior : ∀ errand, Entry.began errand ∈ log → errand.FromOutside :=
      fun errand hmem => hbegan errand (List.mem_append_left _ hmem)
    intro errand herrand
    rw [roster_concat] at herrand
    rcases List.mem_append.mp herrand with hold | hnew
    · exact (ih hprior errand hold).concat entry
    · cases hstep with
      | asked | crashed => cases hnew
      | began =>
        obtain rfl := List.mem_singleton.mp hnew
        exact .inl (.inr (List.mem_append_right _ (List.mem_singleton_self _)))
      | @handedOut s' posts i p rows hpost =>
        obtain ⟨scan, hscan, batch, rfl⟩ := (staffed_run prior).errand hpost
        rw [Entry.hires, hscan] at hnew
        obtain ⟨r, hr, rfl⟩ := List.mem_map.mp hnew
        have hkey : r.key = .active r.eventId .consume r.ownerGroup :=
          chooses_run prior i _ hpost r hr
        have hmarker : r.key.deleteMarker = 0 := congrArg Key.deleteMarker hkey
        refine .inr ⟨p, r, batch, rfl, ?_, hkey, fun hfree => ?_⟩
        · rcases ih hprior _ (List.mem_of_getElem? hscan) with htaken | ⟨_, _, _, hreplay, -⟩
          · exact htaken.concat _
          · cases hreplay
        · have htraced := traced_run hmarker hfree herrands prior hprior
          exact (htraced.copies i _ hpost r hr rfl).concat _

/-- **A row that is replayed keeps what its event was**, if it was created along the run. -/
theorem kept_run (herrands : ∀ errand ∈ errands, errand.FromOutside)
    (hrun : (Chart.mk s (errands.map Errand.post)).Run log chart)
    (hbegan : ∀ errand, Entry.began errand ∈ log → errand.FromOutside) {p : Replayer} {r : Record}
    (hmem : Errand.replay p r ∈ roster errands log) :
    (∃ batch, Errand.TakenOn errands log (.scan p batch)) ∧
      r.key = .active r.eventId .consume r.ownerGroup ∧
      (s.find? r.key = none → ∃ c event row, Errand.TakenOn errands log (.deliver c event) ∧
        row ∈ createdIn log ∧ r.origin = row.origin ∧ r.Keeps c event) := by
  rcases given_run herrands hrun hbegan _ hmem with htaken | ⟨_, _, batch, heq, hscan, hkey, htraced⟩
  · rcases htaken with hin | hlog
    · exact (herrands _ hin).elim
    · exact (hbegan _ hlog).elim
  · obtain ⟨rfl, rfl⟩ := Errand.replay.inj heq
    refine ⟨⟨batch, hscan⟩, hkey, fun hfree => ?_⟩
    obtain ⟨row, hrow, horigin⟩ := htraced hfree
    have haction : row.action = .consume :=
      (congrArg Record.Origin.action horigin).symm.trans (congrArg Key.action hkey)
    obtain ⟨c, event, hdeliver, hkept⟩ := founded_run hrun row hrow haction
    exact ⟨c, event, row, hdeliver, hrow, horigin, hkept.of_origin horigin⟩

theorem handled_run (hrun : (Chart.mk s (errands.map Errand.post)).Run log chart) :
    ∀ i slot event verdict, Entry.asked i (.handle slot event) verdict ∈ log →
      ∃ errand ∈ roster errands log, ∃ c stage, errand.post = .delivery c event stage := by
  induction hrun with
  | start => exact fun i slot event verdict hmem => absurd hmem List.not_mem_nil
  | @step log _ _ entry prior hstep ih =>
    intro i slot event verdict hmem
    rw [roster_concat]
    rcases List.mem_append.mp hmem with hmem | hmem
    · obtain ⟨errand, herrand, hpost⟩ := ih i slot event verdict hmem
      exact ⟨errand, List.mem_append_left _ herrand, hpost⟩
    · obtain rfl := List.mem_singleton.mp hmem
      obtain ⟨post, post', hpost, -, -, hmove⟩ := hstep.of_asked
      obtain ⟨errand, herrand, hleads⟩ := (staffed_run prior).errand hpost
      cases hmove with
      | @delivery c other stage stage' _ _ hmove =>
        cases hmove with
        | handled hslot =>
          obtain ⟨stage, hstage⟩ := hleads
          exact ⟨errand, List.mem_append_left _ (List.mem_of_getElem? herrand), c, stage, hstage⟩
        | fault hfails hs => cases hfails
      | publication hmove => cases hmove

end Chart

/-! ### Events made again -/

/-- An event as a replay makes it again from a row: it has occurred when the row was created, and
its limit is that of the row. -/
def Event.again (event : Event) (r : Record) : Event :=
  { event with occurredOn := r.createTime, maxRetryOverride := some r.maxRetryTimes }

theorem Replayer.rebuild_of_keeps {p : Replayer} {c : Consumer} {event : Event} {r : Record}
    (hkeeps : r.Keeps c event)
    (hcodec : ∀ bytes, c.codec.encode event.payload = .ok bytes →
      p.codec.decode bytes event.eventType = .ok event.payload) :
    p.rebuild r = .ok (event.again r) := by
  obtain ⟨bytes, hencode, hpayload⟩ := hkeeps.payload
  unfold rebuild
  rw [hpayload, hkeeps.type]
  simp only [hcodec bytes hencode, Except.map, Consumer.remains, Event.again, hkeeps.id,
    hkeeps.type]

theorem Replayer.replay_of_rebuild {p : Replayer} {r : Record} {event : Event}
    (h : p.rebuild r = .ok event) : p.replay r = p.consumer.redeliver event := by
  unfold replay
  rw [h]

namespace Crew

/-! ### A scan that joins a crew -/

/-- The log of a scan that joins a crew and hands all rows out that are due. -/
def scanning (crew : Crew) (p : Replayer) (batch : Nat) (now : Instant) : List Entry :=
  [.began (.scan p batch), .asked crew.jobs.length .now now,
    .asked crew.jobs.length (.due now batch) (.ok (crew.store.due now batch)),
    .handedOut crew.jobs.length (crew.store.due now batch)]

/-- The crew after a scan has joined it and has handed its rows out. -/
def scanned (crew : Crew) (p : Replayer) (batch : Nat) (now : Instant) : Crew :=
  ⟨crew.store, crew.jobs ++ [.done (.selection p (.ok []))] ++
    (crew.store.due now batch).map fun r => (Errand.replay p r).work⟩

/-- **Rows that are due are replayed** by whoever scans next. -/
theorem Run.scan {s : Store} {errands : List Errand} {log : List Entry} {crew : Crew}
    (hrun : (waiting s errands).Run log crew) (p : Replayer) (batch : Nat) (now : Instant) :
    (waiting s errands).Run (log ++ crew.scanning p batch now) (crew.scanned p batch now) ∧
      roster errands (log ++ crew.scanning p batch now) =
        roster errands log ++ .scan p batch :: (crew.store.due now batch).map (.replay p) := by
  have hlength := hrun.manned.length
  obtain ⟨store, jobs⟩ := crew
  have hlog : log ++ scanning ⟨store, jobs⟩ p batch now =
      log ++ [.began (.scan p batch)] ++ [.asked jobs.length .now now] ++
        [.asked jobs.length (.due now batch) (.ok (store.due now batch))] ++
        [.handedOut jobs.length (store.due now batch)] := by simp [scanning]
  rw [hlog]
  constructor
  · have hjob : ∀ w : Work Report, (jobs ++ [w])[jobs.length]? = some w := fun w => by simp
    have hset : ∀ w w' : Work Report, (jobs ++ [w]).set jobs.length w' = jobs ++ [w'] :=
      fun w w' => by simp
    have hnow : store.Replies .now now store := .inl rfl
    have hdue : store.Replies (.due now batch) (.ok (store.due now batch)) store :=
      .inl ⟨rfl, rfl⟩
    have hbegan := hrun.step (.began (.scan p batch))
    have hclock := hbegan.step (.asked (hjob _) hnow)
    rw [hset] at hclock
    have hselected := hclock.step (.asked (hjob _) hdue)
    rw [hset] at hselected
    have hhanded := hselected.step (.handedOut (hjob _))
    rw [hset] at hhanded
    exact hhanded
  · have hscan : (roster errands log ++ [Errand.scan p batch])[jobs.length]? =
        some (.scan p batch) := by
      rw [← hlength]
      exact List.getElem?_concat_length
    have hhires : Entry.hires (roster errands log ++ [.scan p batch])
        (.handedOut jobs.length (store.due now batch)) =
          (store.due now batch).map (.replay p) := by
      rw [Entry.hires, hscan]
    rw [roster_concat, roster_concat, roster_concat, roster_concat]
    simp only [Entry.hires, List.append_nil] at hhires ⊢
    rw [hhires, List.append_assoc, List.singleton_append]

theorem began_of_scanning {crew crew' : Crew} {turns : List Turn} {log : List Entry}
    (h : crew.play turns = some (log, crew')) {p : Replayer} {batch : Nat} {now : Instant}
    {errand : Errand} (hmem : Entry.began errand ∈ log ++ crew'.scanning p batch now) :
    errand = .scan p batch := by
  rcases List.mem_append.mp hmem with hmem | hmem
  · exact absurd hmem (not_began_of_play h errand)
  · simpa [scanning] using hmem

/-! ### What is replayed -/

/-- Somebody asked from outside to have an event delivered, for the first time or again. -/
def Dispatched (errands : List Errand) (log : List Entry) (event : Event) : Prop :=
  ∃ c, Errand.TakenOn errands log (.deliver c event) ∨
    Errand.TakenOn errands log (.redeliver c event)

/-- **Replays are of the events that were dispatched.**  Let any crew deliver, publish and scan on a
ledger that begins empty, where calls to the ledger may fail and workers may stop anywhere.  Let no
two dispatched events have the same id, and let the codec of each scan read what that of each
delivery has written.  A row that a scan hands out is one of a dispatched event.  It is not given up:
it is delivered again as that event, except that the event has occurred when a row was created for
it, and that its limit is the one that this row was created with, which is its own or else the
configured one.  Handlers are called for dispatched events, and for such as were made again. -/
theorem replayed_as_dispatched {errands : List Errand} {log : List Entry} {crew : Crew}
    (herrands : ∀ errand ∈ errands, errand.FromOutside)
    (hbegan : ∀ errand, Entry.began errand ∈ log → errand.FromOutside)
    (hsame : ∀ event other, Dispatched errands log event → Dispatched errands log other →
      other.id = event.id → other = event)
    (hcodec : ∀ c event p batch, Errand.TakenOn errands log (.deliver c event) →
      Errand.TakenOn errands log (.scan p batch) →
        ∀ bytes, c.codec.encode event.payload = .ok bytes →
          p.codec.decode bytes event.eventType = .ok event.payload)
    (hrun : (waiting .empty errands).Run log crew) :
    (∀ p r, Errand.replay p r ∈ roster errands log →
      (∃ event, Dispatched errands log event ∧ event.id = r.eventId) ∧
      ∀ event, Dispatched errands log event → event.id = r.eventId →
        p.rebuild r = .ok (event.again r) ∧
        p.replay r = p.consumer.redeliver (event.again r) ∧
        ∃ c row, Errand.TakenOn errands log (.deliver c event) ∧ row ∈ createdIn log ∧
          row.eventId = event.id ∧ row.action = .consume ∧ row.createTime = r.createTime ∧
          row.maxRetryTimes = r.maxRetryTimes ∧
          r.maxRetryTimes = event.maxRetries c.config.defaultMaxRetries) ∧
    ∀ i slot event verdict, Entry.asked i (.handle slot event) verdict ∈ log →
      Dispatched errands log event ∨
        ∃ p r first, Errand.replay p r ∈ roster errands log ∧ Dispatched errands log first ∧
          first.id = r.eventId ∧ event = first.again r := by
  obtain ⟨chart, hchart, -⟩ := hrun.charted (charted_waiting .empty errands)
  -- the event of a row that is replayed, and what is made of it
  have hreplay : ∀ p r, Errand.replay p r ∈ roster errands log →
      ∃ c event row, Errand.TakenOn errands log (.deliver c event) ∧ row ∈ createdIn log ∧
        row.action = .consume ∧ r.origin = row.origin ∧ r.Keeps c event ∧
          p.rebuild r = .ok (event.again r) := by
    intro p r hmem
    obtain ⟨⟨batch, hscan⟩, hkey, hkept⟩ := Chart.kept_run herrands hchart hbegan hmem
    obtain ⟨c, event, row, hdeliver, hrow, horigin, hkeeps⟩ := hkept rfl
    have haction : row.action = .consume :=
      (congrArg Record.Origin.action horigin).symm.trans (congrArg Key.action hkey)
    exact ⟨c, event, row, hdeliver, hrow, haction, horigin, hkeeps,
      Replayer.rebuild_of_keeps hkeeps (hcodec c event p batch hdeliver hscan)⟩
  constructor
  · intro p r hmem
    obtain ⟨c, event, row, hdeliver, hrow, haction, horigin, hkeeps, hrebuild⟩ := hreplay p r hmem
    have hdispatched : Dispatched errands log event := ⟨c, .inl hdeliver⟩
    refine ⟨⟨event, hdispatched, hkeeps.id.symm⟩, fun other hother hid => ?_⟩
    obtain rfl := hsame event other hdispatched hother (hid.trans hkeeps.id)
    have hid := (congrArg Record.Origin.eventId horigin).symm.trans hkeeps.id
    have htime := (congrArg Record.Origin.createTime horigin).symm
    have hlimit := (congrArg Record.Origin.maxRetryTimes horigin).symm
    exact ⟨hrebuild, Replayer.replay_of_rebuild hrebuild, c, row, hdeliver, hrow, hid, haction,
      htime, hlimit, hkeeps.limit⟩
  · intro i slot event verdict hmem
    obtain ⟨errand, herrand, c, stage, hpost⟩ := Chart.handled_run hchart i slot event verdict hmem
    rcases Chart.given_run herrands hchart hbegan errand herrand with htaken | ⟨p, r, batch, rfl, -⟩
    · cases errand with
      | deliver c' event' =>
        cases hpost
        exact .inl ⟨c, .inl htaken⟩
      | redeliver c' event' =>
        cases hpost
        exact .inl ⟨c, .inr htaken⟩
      | publish p event' => cases hpost
      | scan p batch => cases hpost
      | replay p r =>
        rcases htaken with hin | hlog
        · exact (herrands _ hin).elim
        · exact (hbegan _ hlog).elim
    · obtain ⟨c', first, row, hdeliver, -, -, -, hkeeps, hrebuild⟩ := hreplay p r herrand
      rw [Errand.post_replay hrebuild] at hpost
      cases hpost
      exact .inr ⟨p, r, first, herrand, ⟨c', .inl hdeliver⟩, hkeeps.id.symm, rfl⟩

/-- A replayer that reads what clerks have written. -/
def runner : Replayer := ⟨{}, clerk 3, .json⟩

/-- A parcel with something in it. -/
def parcelOf (contents : Json) : Event := { parcel with payload := contents }

/-- The row of a parcel whose handler has failed once. -/
def returned (contents : Json) : Record where
  id := 1
  eventId := "e"
  action := .consume
  ownerGroup := "g"
  ownerName := "local"
  eventType := "t"
  status := .retrying
  payload := some contents.toBytes
  message := some "x"
  retryTimes := 1
  maxRetryTimes := 3
  nextRetryTime := some default
  version := 1
  deleteMarker := 0
  createTime := default
  updateTime := default

structure Returns (contents : Json) (log : List Entry) (crew : Crew) : Prop where
  run : (waiting .empty [.deliver (clerk 3) (parcelOf contents)]).Run log crew
  taken : ∀ errand, Errand.TakenOn [.deliver (clerk 3) (parcelOf contents)] log errand →
    errand = .deliver (clerk 3) (parcelOf contents) ∨ errand = .scan runner 1
  replay : Errand.replay runner (returned contents) ∈
    roster [.deliver (clerk 3) (parcelOf contents)] log
  row : crew.store.find? (returned contents).key = some (returned contents)
  job : ∃ i : Nat, crew.jobs[i]? = some (Errand.replay runner (returned contents)).work

theorem exists_returns (contents : Json) : ∃ log crew, Returns contents log crew := by
  have hplay : ((waiting .empty [.deliver (clerk 3) (parcelOf contents)]).play
      (turns 8 0 (.failed "x"))).map (fun p => p.2.store.rows) = some [returned contents] := rfl
  obtain ⟨⟨log, crew⟩, hrun, hrows⟩ := Option.map_eq_some_iff.mp hplay
  have hrow : crew.store.rows = [returned contents] := hrows
  have hdue : crew.store.due default 1 = [returned contents] := by
    have hfilter : crew.store.rows.filter (·.isDue default) = [returned contents] := by
      rw [hrow]
      rfl
    rw [Store.due_of_pairwise 1 (hfilter ▸ List.pairwise_singleton _ _), hfilter]
    rfl
  obtain ⟨hscanned, hroster⟩ := (run_of_play hrun).scan runner 1 default
  rw [hdue] at hroster
  refine ⟨_, _, hscanned, ?_, ?_, ?_, crew.jobs.length + 1, ?_⟩
  · rintro errand (hin | hlog)
    · exact .inl (List.mem_singleton.mp hin)
    · exact .inr (began_of_scanning hrun hlog)
  · rw [hroster]
    simp
  · show crew.store.find? _ = _
    unfold Store.find?
    rw [hrow]
    simp
  · simp only [scanned, hdue]
    simp

namespace Returns

variable {contents : Json} {log : List Entry} {crew : Crew}

theorem fromOutside (h : Returns contents log crew) {errand : Errand}
    (htaken : errand.TakenOn [.deliver (clerk 3) (parcelOf contents)] log) :
    errand.FromOutside := by
  rcases h.taken errand htaken with rfl | rfl
  · trivial
  · trivial

theorem delivered (h : Returns contents log crew) {c : Consumer} {event : Event}
    (htaken : Errand.TakenOn [.deliver (clerk 3) (parcelOf contents)] log (.deliver c event)) :
    c = clerk 3 ∧ event = parcelOf contents := by
  rcases h.taken _ htaken with heq | heq
  · exact Errand.deliver.inj heq
  · cases heq

theorem dispatched (h : Returns contents log crew) {event : Event}
    (hevent : Dispatched [.deliver (clerk 3) (parcelOf contents)] log event) :
    event = parcelOf contents := by
  obtain ⟨c, hdeliver | hredeliver⟩ := hevent
  · exact (h.delivered hdeliver).2
  · rcases h.taken _ hredeliver with heq | heq
    · cases heq
    · cases heq

theorem scans (h : Returns contents log crew) {p : Replayer} {batch : Nat}
    (htaken : Errand.TakenOn [.deliver (clerk 3) (parcelOf contents)] log (.scan p batch)) :
    p = runner := by
  rcases h.taken _ htaken with heq | heq
  · cases heq
  · exact (Errand.scan.inj heq).1

end Returns

/-- A parcel whose handler fails is delivered again as the parcel that it was. -/
theorem replayed_as_dispatched_failing :
    ∃ log crew, (waiting .empty [.deliver (clerk 3) (parcelOf (.text "x"))]).Run log crew ∧
      Errand.replay runner (returned (.text "x")) ∈
        roster [.deliver (clerk 3) (parcelOf (.text "x"))] log ∧
      runner.replay (returned (.text "x")) =
        (clerk 3).redeliver { parcelOf (.text "x") with maxRetryOverride := some 3 } := by
  obtain ⟨log, crew, h⟩ := exists_returns (.text "x")
  have hcanonical : (Json.text "x").Canonical := trivial
  have hfloats : (Json.text "x").FloatFree := trivial
  obtain ⟨hreplays, -⟩ := replayed_as_dispatched
    (fun errand herrand => h.fromOutside (.inl herrand))
    (fun errand hlog => h.fromOutside (.inr hlog))
    (fun event other hevent hother _ =>
      (h.dispatched hother).trans (h.dispatched hevent).symm)
    (fun c event p batch hdeliver hscan bytes hbytes => by
      obtain ⟨rfl, rfl⟩ := h.delivered hdeliver
      obtain rfl := h.scans hscan
      cases hbytes
      exact (Codec.json_restores hcanonical hfloats _).1 (Nat.zero_le 127))
    h.run
  obtain ⟨⟨event, hevent, -⟩, hagain⟩ := hreplays runner (returned (.text "x")) h.replay
  obtain rfl := h.dispatched hevent
  exact ⟨log, crew, h.run, h.replay, (hagain _ hevent rfl).2.1⟩

end Crew

end EventRelay
