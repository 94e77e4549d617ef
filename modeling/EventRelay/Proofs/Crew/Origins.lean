import EventRelay.Proofs.Crew.Ownership
import EventRelay.Proofs.Crew.Roster

/-!
# Where rows come from

What a row is for is filled in when it is created: its event, with type and payload, the limit on
its retries and the time of its creation.  From then on a row is read, written back as a whole from
copies of any age, and selected for a replay, and none of this makes up an origin of its own.  Along
a run the row under a key that was free, and each copy of it that a worker goes on with, has the
origin of a row that was created (`Chart.Traced`), and a row for consuming keeps what the event was
that somebody asked to have delivered (`Chart.founded_run`).
-/

namespace EventRelay

/-! ### Copies -/

def Post.copies : Post → List Record
  | .delivery _ _ stage => stage.copy?.toList
  | .publication _ _ (.sending r) | .publication _ _ (.noting r _ _) => [r]
  | .selected _ (.ok rows) => rows
  | .publication _ _ _ | .selecting _ _ | .selected _ (.error _) | .crashed => []

theorem Post.mem_copies_delivery {c : Consumer} {event : Event} {stage : Consumer.Stage}
    {r : Record} : r ∈ (Post.delivery c event stage).copies ↔ stage.copy? = some r := by
  show r ∈ stage.copy?.toList ↔ _
  rw [Option.mem_toList]

theorem Errand.FromOutside.copies {errand : Errand} (h : errand.FromOutside) :
    errand.post.copies = [] := by
  cases errand with
  | replay p r => exact h.elim
  | deliver c event | redeliver c event | publish p event | scan p batch => rfl

theorem Errand.eq_of_mem_copies {p : Replayer} {r copy : Record}
    (h : copy ∈ (Errand.replay p r).post.copies) : copy = r := by
  rcases post_replay_cases p r with ⟨event, hpost⟩ | ⟨event, reason, hpost⟩
  · rw [hpost, Post.mem_copies_delivery] at h
    cases h
  · rw [hpost, Post.mem_copies_delivery] at h
    exact (Option.some.inj h).symm

/-- Records of one and the same row. -/
structure Record.SameRow (r source : Record) : Prop where
  id : r.id = source.id
  key : r.key = source.key
  origin : r.origin = source.origin

theorem Record.SameRow.refl (r : Record) : r.SameRow r := ⟨rfl, rfl, rfl⟩

theorem Record.SameRow.of_transition {r next : Record} {t : Transition} {now : Instant}
    (h : r.transition t now = .ok next) : next.SameRow r where
  id := id_transition h
  key := key_transition h
  origin := origin_transition h

section Moves

variable {s s' : Store} {request : Request} {reply : request.Reply}

theorem Store.Replies.mem_of_creation {draft : Record} {creation : Creation}
    (h : s.Replies (.create draft) (.ok creation) s') :
    creation.record ∈ s'.rows ∧ creation.record.key = draft.key := by
  rcases h.creation with ⟨winner, rfl, hfind⟩ | rfl
  · rcases h with ⟨-, rfl⟩ | ⟨⟨e, hfails⟩, -⟩
    · rcases Store.create_cases s draft with ⟨other, -, hcreate⟩ | ⟨hfree, -⟩
      · rw [hcreate]
        exact ⟨Store.mem_of_find? hfind, Store.key_of_find? hfind⟩
      · rw [hfree] at hfind
        cases hfind
    · cases hfails
  · have heffect := h.effect (i := 0)
    exact ⟨Store.mem_of_find? (heffect.of_creation rfl).2, rfl⟩

/-- **Where copies come from.**  What a worker goes on with is a record of a row of which it had a
copy before, or of an active row that is there. -/
theorem Post.Moves.source_of_copy {post post' : Post} (h : post.Moves request reply post')
    (hreply : s.Replies request reply s') {r : Record} (hr : r ∈ post'.copies) :
    ∃ source, (source ∈ post.copies ∨ source ∈ s'.rows ∧ source.deleteMarker = 0) ∧
      r.SameRow source := by
  have hthere : r ∈ s'.rows → r.deleteMarker = 0 →
      ∃ source, (source ∈ post.copies ∨ source ∈ s'.rows ∧ source.deleteMarker = 0) ∧
        r.SameRow source := fun hmem hmarker => ⟨r, .inr ⟨hmem, hmarker⟩, .refl r⟩
  have hheld : r ∈ post.copies →
      ∃ source, (source ∈ post.copies ∨ source ∈ s'.rows ∧ source.deleteMarker = 0) ∧
        r.SameRow source := fun hcopy => ⟨r, .inl hcopy, .refl r⟩
  cases h with
  | delivery hmove =>
    rw [mem_copies_delivery] at hr
    cases hmove with
    | missing | unknown | passed | beaten | freed | kept | unclaimed | concluded | gaveUp | refused
    | consulted | notified | fault => cases hr
    | reopened | resumed | met =>
      obtain rfl := Option.some.inj hr
      obtain ⟨hfind, rfl⟩ := hreply.found
      have hkey := Store.key_of_find? hfind.symm
      exact hthere (Store.mem_of_find? hfind.symm) (congrArg Key.deleteMarker hkey)
    | created hpayload | second hpayload hcreated =>
      obtain rfl := Option.some.inj hr
      obtain ⟨hmem, hkey⟩ := hreply.mem_of_creation
      exact hthere hmem (congrArg Key.deleteMarker hkey)
    | @claimed source next lease now hnext =>
      obtain rfl := Option.some.inj hr
      obtain ⟨hid, hkey, horigin⟩ := Record.SameRow.of_transition hnext
      exact ⟨source, .inl (mem_copies_delivery.mpr rfl), hid, hkey, horigin⟩
    | questioned | handled => exact hheld (mem_copies_delivery.mpr hr)
    | clock htick =>
      rcases Consumer.Stage.tick_cases htick with ⟨source, verdict, rfl, rfl⟩ | rfl
      · exact hheld (mem_copies_delivery.mpr hr)
      · exact hheld (mem_copies_delivery.mpr hr)
  | publication hmove =>
    cases hmove with
    | duplicate | unable | noted | sentUnrecorded | clock => cases hr
    | created | known hstatus =>
      obtain rfl := List.mem_singleton.mp hr
      obtain ⟨hmem, hkey⟩ := hreply.mem_of_creation
      exact hthere hmem (congrArg Key.deleteMarker hkey)
    | sent | deferred | clockNoting => exact hheld hr
  | clock => cases hr
  | @selected p batch now reply =>
    cases reply with
    | error e => cases hr
    | ok rows =>
      rcases hreply with ⟨hdue, rfl⟩ | ⟨⟨e, hfails⟩, -⟩
      · rw [Except.ok.inj hdue] at hr
        obtain ⟨hmem, hisdue⟩ := Store.mem_due hr
        exact hthere hmem (Record.isDue_iff.mp hisdue).1
      · cases hfails

theorem Post.Moves.source_of_update {post post' : Post} {next : Record}
    (h : post.Moves (.update next) (.ok true) post') :
    ∃ source ∈ post.copies, next.SameRow source := by
  cases h with
  | delivery hmove =>
    cases hmove with
    | claimed hnext | concluded hsettles hfailed hnext | gaveUp hsettles hnext =>
      exact ⟨_, mem_copies_delivery.mpr rfl, .of_transition hnext⟩
    | fault hfails hs => cases hfails
  | publication hmove =>
    cases hmove with
    | noted hnext => exact ⟨_, List.mem_singleton_self _, .of_transition hnext⟩

end Moves

/-! ### Origins -/

def createdIn (log : List Entry) : List Record :=
  log.filterMap Entry.creation?

theorem createdIn_concat (log : List Entry) (entry : Entry) :
    createdIn (log ++ [entry]) = createdIn log ++ entry.creation?.toList := by
  unfold createdIn
  rw [List.filterMap_append]
  cases h : entry.creation? <;> simp [h]

/-- A record has the origin of a row that was created. -/
def Record.TracedTo (log : List Entry) (r : Record) : Prop :=
  ∃ row ∈ createdIn log, r.origin = row.origin

namespace Record.TracedTo

variable {log : List Entry} {r source : Record}

theorem concat (h : r.TracedTo log) (entry : Entry) : r.TracedTo (log ++ [entry]) := by
  obtain ⟨row, hrow, horigin⟩ := h
  refine ⟨row, ?_, horigin⟩
  rw [createdIn_concat]
  exact List.mem_append_left _ hrow

theorem of_origin (h : source.TracedTo log) (horigin : r.origin = source.origin) :
    r.TracedTo log := by
  obtain ⟨row, hrow, hsource⟩ := h
  exact ⟨row, hrow, horigin.trans hsource⟩

theorem of_creation {entry : Entry} (hcreation : entry.creation? = some r) :
    r.TracedTo (log ++ [entry]) := by
  refine ⟨r, ?_, rfl⟩
  rw [createdIn_concat, hcreation]
  exact List.mem_append_right _ (List.mem_singleton_self r)

end Record.TracedTo

namespace Chart

variable {key : Key} {chart chart' : Chart} {entry : Entry} {log : List Entry}

/-- **The origins under a key are those of rows that were created.** -/
structure Traced (key : Key) (log : List Entry) (chart : Chart) : Prop where
  rows : ∀ r ∈ chart.store.rows, r.key = key → r.TracedTo log
  copies : ∀ (i : Nat) post, chart.posts[i]? = some post →
    ∀ r ∈ post.copies, r.key = key → r.TracedTo log

theorem Traced.rows_step (hmarker : key.deleteMarker = 0) (h : Traced key log chart)
    (hstep : chart.Step entry chart') :
    ∀ r ∈ chart'.store.rows, r.key = key → r.TracedTo (log ++ [entry]) := by
  have heffect := hstep.effect
  intro r hr hkey
  generalize chart'.store = s' at heffect hr
  cases heffect with
  | unchanged hupdate hcreation hcleared => exact (h.rows r hr hkey).concat entry
  | created hfree =>
    rcases List.mem_append.mp hr with hr | hr
    · exact (h.rows r hr hkey).concat _
    · rw [List.mem_singleton.mp hr]
      exact .of_creation rfl
  | @updated i next stored hfind hversion hactive =>
    rcases Store.mem_replace hr with rfl | ⟨hr, -⟩
    · obtain ⟨post, post', hpost, -, -, hmove⟩ := hstep.of_asked
      obtain ⟨source, hsource, hsame⟩ := hmove.source_of_update
      have htraced := h.copies i post hpost source hsource (hsame.key.symm.trans hkey)
      exact (htraced.of_origin (next.origin_revised.trans hsame.origin)).concat _
    · exact (h.rows r hr hkey).concat _
  | @deleted i copy stored now hfind hversion =>
    rcases Store.mem_refile hr with rfl | ⟨hr, -, -⟩
    · exact absurd hkey (stored.key_deleted_ne now hmarker)
    · exact (h.rows r hr hkey).concat _
  | lost hfind hversion => exact (h.rows r (Store.mem_erase.mp hr).1 hkey).concat _

theorem Traced.copies_step (hmarker : key.deleteMarker = 0) (h : Traced key log chart)
    (hstep : chart.Step entry chart')
    (hbegan : ∀ errand, entry = .began errand → errand.FromOutside) :
    ∀ (i : Nat) post, chart'.posts[i]? = some post →
      ∀ r ∈ post.copies, r.key = key → r.TracedTo (log ++ [entry]) := by
  have hrows := h.rows_step hmarker hstep
  intro i post hpost r hr hkey
  cases hstep.came hpost with
  | stayed hold hentry => exact (h.copies i post hold r hr hkey).concat entry
  | moved hentry hold hreply hmove =>
    obtain ⟨source, hsource, hsame⟩ := hmove.source_of_copy hreply hr
    have hsourcekey := hsame.key.symm.trans hkey
    refine Record.TracedTo.of_origin ?_ hsame.origin
    rcases hsource with hcopy | ⟨hrow, -⟩
    · exact (h.copies i _ hold source hcopy hsourcekey).concat entry
    · exact hrows source hrow hsourcekey
  | joined hpost hentry hj =>
    rw [hpost, (hbegan _ hentry).copies] at hr
    cases hr
  | @handed j p rows row _ hpost hentry hsel hrow hj =>
    rw [hpost] at hr
    obtain rfl := Errand.eq_of_mem_copies hr
    exact (h.copies j _ hsel r hrow hkey).concat entry
  | emptied hpost hentry hsel =>
    rw [hpost] at hr
    cases hr
  | crashed hpost hentry =>
    rw [hpost] at hr
    cases hr

/-- **Along a run no origin is made up.** -/
theorem traced_run {s : Store} {errands : List Errand} (hmarker : key.deleteMarker = 0)
    (hfree : s.find? key = none) (herrands : ∀ errand ∈ errands, errand.FromOutside)
    (hrun : (Chart.mk s (errands.map Errand.post)).Run log chart)
    (hbegan : ∀ errand, Entry.began errand ∈ log → errand.FromOutside) :
    Traced key log chart := by
  induction hrun with
  | start =>
    refine ⟨fun r hr hkey => absurd hkey (Store.find?_eq_none_iff.mp hfree r hr), ?_⟩
    intro i post hpost r hr
    obtain ⟨errand, herrand, rfl⟩ := List.mem_map.mp (List.mem_of_getElem? hpost)
    rw [(herrands errand herrand).copies] at hr
    cases hr
  | @step log _ _ entry prior hstep ih =>
    have htraced := ih fun errand hmem => hbegan errand (List.mem_append_left _ hmem)
    have hentry : ∀ errand, entry = .began errand → errand.FromOutside := by
      rintro errand rfl
      exact hbegan errand (List.mem_append_right _ (List.mem_singleton_self _))
    exact ⟨htraced.rows_step hmarker hstep, htraced.copies_step hmarker hstep hentry⟩

end Chart

/-! ### Events of rows -/

/-- What a row keeps of the event that it was created for. -/
structure Record.Keeps (c : Consumer) (event : Event) (r : Record) : Prop where
  id : r.eventId = event.id
  type : r.eventType = event.eventType
  payload : ∃ bytes, c.codec.encode event.payload = .ok bytes ∧ r.payload = some bytes
  limit : r.maxRetryTimes = event.maxRetries c.config.defaultMaxRetries

theorem Record.Keeps.of_origin {c : Consumer} {event : Event} {r row : Record}
    (h : row.Keeps c event) (horigin : r.origin = row.origin) : r.Keeps c event where
  id := (congrArg Origin.eventId horigin).trans h.id
  type := (congrArg Origin.eventType horigin).trans h.type
  payload := by
    obtain ⟨bytes, hencode, hpayload⟩ := h.payload
    exact ⟨bytes, hencode, (congrArg Origin.payload horigin).trans hpayload⟩
  limit := (congrArg Origin.maxRetryTimes horigin).trans h.limit

/-- Along a run rows for consuming are created for events that somebody asked to have delivered. -/
theorem Chart.founded_run {s : Store} {errands : List Errand} {log : List Entry} {chart : Chart}
    (hrun : (Chart.mk s (errands.map Errand.post)).Run log chart) :
    ∀ row ∈ createdIn log, row.action = .consume →
      ∃ c event, Errand.TakenOn errands log (.deliver c event) ∧ row.Keeps c event := by
  induction hrun with
  | start => exact fun row hrow => absurd hrow List.not_mem_nil
  | @step log _ _ entry prior hstep ih =>
    intro row hrow haction
    rw [createdIn_concat, List.mem_append, Option.mem_toList] at hrow
    rcases hrow with hrow | hcreation
    · obtain ⟨c, event, htaken, hkeeps⟩ := ih row hrow haction
      exact ⟨c, event, htaken.concat entry, hkeeps⟩
    · obtain ⟨i, c, event, payload, start, id, -, hfresh, hpost, hpayload⟩ :=
        hstep.fresh hcreation haction
      have htaken := (blamed_run prior).founds i c event .founding hpost trivial
      refine ⟨c, event, htaken.concat entry, ?_⟩
      rw [hfresh]
      exact ⟨rfl, rfl, ⟨payload, hpayload, rfl⟩, rfl⟩

end EventRelay
