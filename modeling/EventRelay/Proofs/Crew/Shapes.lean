import EventRelay.Proofs.Crew.Laws
import EventRelay.Proofs.Crew.Turns

/-!
# The shape of rows

A row that waits for a retry is found by scans alone, and only when it has a time at which it is due
and a payload to be replayed.  Rows for consuming have both from their creation on, and keep them
until they are finished (`Record.law_shaped`), so that a worker may stop at any of its requests and
leave nothing behind that no scan will find.  Rows for publishing are never deleted and never fail,
and scans take no notice of them (`Chart.Outgoing`).

`rows_shaped` states this for any crew on a ledger that begins empty.
-/

namespace EventRelay

/-- What an active row for consuming has in its columns, by its status: one that waits for a retry
has all that a replay takes, and a finished one waits for nothing. -/
structure Record.Shaped (r : Record) : Prop where
  retrying : r.status = .retrying →
    (∃ payload, r.payload = some payload) ∧ ∃ t, r.nextRetryTime = some t
  success : r.status = .success → r.message = none ∧ r.nextRetryTime = none
  failed : r.status = .failed → r.nextRetryTime = none ∧ ∃ message, r.message = some message

theorem Record.law_shaped : Law Shaped where
  fresh c event payload now id := ⟨fun _ => ⟨⟨payload, rfl⟩, _, rfl⟩, nofun, nofun⟩
  settles := by
    intro c event r next attempt t outcome now h hretrying hsettles hnext
    have hpayload : ∃ payload, next.payload = some payload := by
      obtain ⟨⟨payload, hpayload⟩, -⟩ := h.retrying hretrying
      exact ⟨payload, (congrArg Origin.payload (origin_transition hnext)).trans hpayload⟩
    have hcopy := (transition_cases hnext).2
    cases hsettles with
    | rescheduled hverdict hallows hcount htime =>
      subst hcopy
      exact ⟨fun _ => ⟨hpayload, _, rfl⟩, nofun, nofun⟩
    | succeeded hverdict =>
      subst hcopy
      exact ⟨nofun, fun _ => ⟨rfl, rfl⟩, nofun⟩
    | unhandled | exhausted | abandoned =>
      subst hcopy
      exact ⟨nofun, nofun, fun _ => ⟨rfl, _, rfl⟩⟩

theorem Record.isDue_iff_le {r : Record} {t now : Instant} (haction : r.action = .consume)
    (hmarker : r.deleteMarker = 0) (hretrying : r.status = .retrying)
    (htime : r.nextRetryTime = some t) : r.isDue now = true ↔ t ≤ now := by
  rw [isDue_iff]
  constructor
  · rintro ⟨-, -, -, t', htime', hle⟩
    rw [htime] at htime'
    rw [Option.some.inj htime']
    exact hle
  · exact fun hle => ⟨hmarker, haction, hretrying, t, htime, hle⟩

/-! ### Rows for publishing -/

/-- How sending an event is noted leaves its row open, or successful. -/
def Post.Notes : Post → Prop
  | .publication _ _ (.noting _ t _) => t.status ≠ .failed
  | _ => True

theorem Errand.notes (errand : Errand) : errand.post.Notes := by
  cases errand with
  | replay p r =>
    rcases post_replay_cases p r with ⟨event, hpost⟩ | ⟨event, reason, hpost⟩
    · rw [hpost]
      trivial
    · rw [hpost]
      trivial
  | deliver c event | redeliver c event | publish p event | scan p batch => trivial

theorem Post.Notes.move {post post' : Post} {request : Request} {reply : request.Reply}
    (h : post.Notes) (hmove : post.Moves request reply post') : post'.Notes := by
  cases hmove with
  | delivery | clock | selected => trivial
  | publication hmove =>
    cases hmove with
    | sent | deferred => exact nofun
    | clockNoting => exact h
    | created | duplicate | known | unable | noted | sentUnrecorded | clock => trivial

namespace Chart

variable {chart chart' : Chart} {entry : Entry} {log : List Entry}

structure Outgoing (chart : Chart) : Prop where
  rows : ∀ r ∈ chart.store.rows, r.action = .publish → r.deleteMarker = 0 ∧ r.status ≠ .failed
  posts : ∀ (i : Nat) post, chart.posts[i]? = some post → post.Notes

theorem Outgoing.posts_step (h : chart.Outgoing) (hstep : chart.Step entry chart') :
    ∀ (i : Nat) post, chart'.posts[i]? = some post → post.Notes := by
  intro i post hpost
  cases hstep.came hpost with
  | stayed hold hentry => exact h.posts i post hold
  | moved hentry hold hreply hmove => exact (h.posts i _ hold).move hmove
  | @joined errand _ hpost hentry hj => exact hpost ▸ errand.notes
  | @handed _ p _ r _ hpost hentry hsel hr hj => exact hpost ▸ (Errand.replay p r).notes
  | emptied hpost hentry hsel => exact hpost ▸ trivial
  | crashed hpost hentry => exact hpost ▸ trivial

theorem Outgoing.of_update {P : Record → Prop} (h : chart.Outgoing) (hlawful : Lawful P chart)
    {i : Nat} {next : Record} (hstep : chart.Step (.asked i (.update next) (.ok true)) chart')
    (haction : next.action = .publish) : next.status ≠ .failed := by
  obtain ⟨post, post', hpost, -, -, hmove⟩ := hstep.of_asked
  have hobeys := hlawful.posts i post hpost
  have hnotes := h.posts i post hpost
  cases hmove with
  | delivery hmove =>
    cases hmove with
    | claimed => exact hobeys.elim
    | @concluded r _ _ _ _ _ _ _ hnext | @gaveUp r _ _ _ _ _ hnext =>
      have hawaits : r.Awaits P := hobeys
      have hconsume := congrArg Record.Origin.action (Record.origin_transition hnext)
      exact absurd (haction.symm.trans (hconsume.trans hawaits.action)) (by decide)
    | fault hfails hs => cases hfails
  | publication hmove =>
    cases hmove with
    | noted hnext =>
      rw [Record.status_transition hnext]
      exact hnotes

theorem Outgoing.rows_step {P : Record → Prop} (h : chart.Outgoing) (hlawful : Lawful P chart)
    (hstep : chart.Step entry chart') :
    ∀ r ∈ chart'.store.rows, r.action = .publish → r.deleteMarker = 0 ∧ r.status ≠ .failed := by
  have heffect := hstep.effect
  intro r hr haction
  generalize chart'.store = s' at heffect hr
  cases heffect with
  | unchanged hupdate hcreation hcleared => exact h.rows r hr haction
  | created hfree =>
    rcases List.mem_append.mp hr with hr | hr
    · exact h.rows r hr haction
    · rw [List.mem_singleton.mp hr] at haction ⊢
      obtain ⟨post, post', -, -, -, hmove⟩ := hstep.of_asked
      cases hmove with
      | delivery hmove =>
        cases hmove with
        | created hpayload => cases haction
        | fault hfails hs => cases hfails
      | publication hmove =>
        cases hmove with
        | created => exact ⟨rfl, nofun⟩
  | @updated i next stored hfind hversion hactive =>
    rcases Store.mem_replace hr with rfl | ⟨hr, -⟩
    · -- the row is in the place of one with the same key
      have hkey := Store.key_of_find? hfind
      obtain ⟨hmarker, -⟩ := h.rows stored (Store.mem_of_find? hfind)
        ((congrArg Key.action hkey).trans haction)
      have hfailed : next.status ≠ .failed := h.of_update hlawful hstep haction
      exact ⟨(congrArg Key.deleteMarker hkey).symm.trans hmarker, hfailed⟩
    · exact h.rows r hr haction
  | @deleted i copy stored now hfind hversion =>
    rcases Store.mem_refile hr with rfl | ⟨hr, -, -⟩
    · -- only rows for consuming are deleted
      obtain ⟨post, post', hpost, -, -, hmove⟩ := hstep.of_asked
      obtain ⟨c, event, rfl⟩ := Post.reopening_of_moves hmove
      obtain ⟨hconsume, -⟩ := hlawful.posts i _ hpost
      have hkey := congrArg Key.action (Store.key_of_find? hfind)
      exact absurd (haction.symm.trans (hkey.trans hconsume)) (by decide)
    · exact h.rows r hr haction
  | lost hfind hversion => exact h.rows r (Store.mem_erase.mp hr).1 haction

/-- **Along a run rows for publishing stay active, and do not fail.** -/
theorem Outgoing.run {P : Record → Prop} (hlaw : Record.Law P) (h : chart.Outgoing)
    (hlawful : Lawful P chart) (hrun : chart.Run log chart')
    (hbegan : ∀ errand, Entry.began errand ∈ log → errand.FromOutside) : chart'.Outgoing := by
  induction hrun with
  | start => exact h
  | step prior hstep ih =>
    have hprior := fun errand hmem => hbegan errand (List.mem_append_left _ hmem)
    have hmid := hlawful.run hlaw prior hprior
    exact ⟨(ih hprior).rows_step hmid hstep, (ih hprior).posts_step hstep⟩

theorem outgoing_start {s : Store} {errands : List Errand}
    (hs : ∀ r ∈ s.rows, r.action ≠ .publish) : Outgoing ⟨s, errands.map Errand.post⟩ where
  rows r hr haction := absurd haction (hs r hr)
  posts i post hpost := by
    obtain ⟨errand, -, rfl⟩ := List.mem_map.mp (List.mem_of_getElem? hpost)
    exact errand.notes

end Chart

namespace Crew

/-- **No row is stranded.**  Let any crew deliver, publish and scan on a ledger that begins empty,
where calls to the ledger may fail and workers may stop anywhere.  An active row for consuming waits
for a retry, has succeeded or has failed.  One that waits has a payload, and a time from which on it
is due and before which it is not; one that has succeeded has neither a message nor a time; one that
has failed has a message and no time.  A row for publishing is active and has not failed, and no scan
selects it. -/
theorem rows_shaped {errands : List Errand} {log : List Entry} {crew : Crew}
    (herrands : ∀ errand ∈ errands, errand.FromOutside)
    (hbegan : ∀ errand, Entry.began errand ∈ log → errand.FromOutside)
    (hrun : (waiting .empty errands).Run log crew) :
    (∀ r ∈ crew.store.rows, r.action = .consume → r.deleteMarker = 0 →
      (r.status = .retrying ∧ (∃ payload, r.payload = some payload) ∧
        ∃ t, r.nextRetryTime = some t ∧ ∀ now, r.isDue now = true ↔ t ≤ now) ∨
      (r.status = .success ∧ r.message = none ∧ r.nextRetryTime = none) ∨
      (r.status = .failed ∧ r.nextRetryTime = none ∧ ∃ message, r.message = some message)) ∧
    ∀ r ∈ crew.store.rows, r.action = .publish →
      (r.status = .created ∨ r.status = .retrying ∨ r.status = .success) ∧ r.deleteMarker = 0 ∧
        ∀ now limit, r ∉ crew.store.due now limit := by
  obtain ⟨chart, hchart, hcharted⟩ := hrun.charted (charted_waiting .empty errands)
  have hstart : Chart.Lawful Record.Shaped ⟨.empty, errands.map Errand.post⟩ :=
    Chart.lawful_start (fun r hr => absurd hr List.not_mem_nil) herrands
  have hlawful := hstart.run Record.law_shaped hchart hbegan
  have houtgoing := (Chart.outgoing_start fun r hr => absurd hr List.not_mem_nil).run
    Record.law_shaped hstart hchart hbegan
  rw [← hcharted.store]
  constructor
  · intro r hr haction hmarker
    obtain ⟨hcreated, hshaped⟩ := hlawful.rows r hr haction hmarker
    cases hstatus : r.status with
    | created => exact absurd hstatus hcreated
    | retrying =>
      obtain ⟨hpayload, t, htime⟩ := hshaped.retrying hstatus
      exact .inl ⟨rfl, hpayload, t, htime, fun now =>
        Record.isDue_iff_le haction hmarker hstatus htime⟩
    | success => exact .inr (.inl ⟨rfl, hshaped.success hstatus⟩)
    | failed => exact .inr (.inr ⟨rfl, hshaped.failed hstatus⟩)
  · intro r hr haction
    obtain ⟨hmarker, hfailed⟩ := houtgoing.rows r hr haction
    refine ⟨?_, hmarker, fun now limit hdue => ?_⟩
    · cases hstatus : r.status with
      | created => exact .inl rfl
      | retrying => exact .inr (.inl rfl)
      | success => exact .inr (.inr rfl)
      | failed => exact absurd hstatus hfailed
    · obtain ⟨-, hconsume, -⟩ := Record.isDue_iff.mp (Store.mem_due hdue).2
      exact absurd (haction.symm.trans hconsume) (by decide)

/-- A publication that stops before its event is sent, a delivery that stops before its handler is
called, and another one that has failed for good. -/
def stopping : List Errand :=
  [.publish ⟨(clerk 3).config, .json⟩ parcel, .deliver (clerk 3) parcel,
    .deliver (clerk 0) { parcel with id := "f" }]

theorem rows_shaped_stopping :
    ∃ log crew, (waiting .empty stopping).Run log crew ∧
      crew.store.rows.map (fun r => (r.action, r.status)) =
        [(.publish, .created), (.consume, .retrying), (.consume, .failed)] ∧
      (∀ r ∈ crew.store.rows, r.action = .consume → r.deleteMarker = 0 → r.status = .retrying →
        ∃ t, r.nextRetryTime = some t ∧ ∀ now, r.isDue now = true ↔ t ≤ now) ∧
      ∀ r ∈ crew.store.rows, r.action = .publish → ∀ now limit, r ∉ crew.store.due now limit := by
  have hplay : ((waiting .empty stopping).play
      (turns 2 0 .ok ++ turns 4 1 .ok ++ turns 7 2 (.failed "x"))).map
        (fun p => p.2.store.rows.map fun r => (r.action, r.status)) =
      some [(.publish, .created), (.consume, .retrying), (.consume, .failed)] := by decide
  obtain ⟨⟨log, crew⟩, hrun, hrows⟩ := Option.map_eq_some_iff.mp hplay
  have herrands : ∀ errand ∈ stopping, errand.FromOutside := by
    intro errand herrand
    simp only [stopping, List.mem_cons, List.not_mem_nil, or_false] at herrand
    rcases herrand with rfl | rfl | rfl <;> trivial
  obtain ⟨hconsume, hpublish⟩ := rows_shaped herrands
    (fun errand hmem => absurd hmem (not_began_of_play hrun errand)) (run_of_play hrun)
  refine ⟨log, crew, run_of_play hrun, hrows, fun r hr haction hmarker hretrying => ?_,
    fun r hr haction => (hpublish r hr haction).2.2⟩
  rcases hconsume r hr haction hmarker with ⟨-, -, hdue⟩ | ⟨hsuccess, -⟩ | ⟨hfailed, -⟩
  · exact hdue
  · exact absurd (hretrying.symm.trans hsuccess) (by decide)
  · exact absurd (hretrying.symm.trans hfailed) (by decide)

end Crew

end EventRelay
