import EventRelay.Proofs.Crew.Dispatches
import EventRelay.Proofs.Crew.Solo
import EventRelay.Proofs.Json.Payloads

/-!
# Payloads that are too deep

Deliveries store a payload whatever its depth, and replays read one back only if no more than 127
arrays and objects are open in it at once.  For shallow payloads the two fit: the row of an event
whose handler has failed is delivered again with the payload that the event had.  For deep ones they
do not: the first scan that selects the row gives it up, and what may have been a passing failure of
the handler has become a final one.

`replayed_iff_shallow` states this for the rows of one event on any ledger that had none for it, and
`deep_parcel_given_up` is such an event.
-/

namespace EventRelay

/-! ### Rows of JSON payloads -/

/-- **What becomes of a row with a JSON payload**, by the depth of the payload alone. -/
theorem Replayer.json_replays {p : Replayer} {c : Consumer} {event : Event} {r : Record}
    (hkeeps : r.Keeps c event) (hwriter : c.codec = .json) (hreader : p.codec = .json)
    (hcanonical : event.payload.Canonical) (hfree : event.payload.FloatFree) :
    (event.payload.depth ≤ 127 →
      p.rebuild r = .ok (event.again r) ∧ p.replay r = p.consumer.redeliver (event.again r)) ∧
    (127 < event.payload.depth → ∃ place,
      p.rebuild r = .error (Codec.tooDeep event.eventType place) ∧
        p.replay r = p.consumer.abandon r (Codec.tooDeep event.eventType place).message) := by
  obtain ⟨hshallow, hdeep⟩ := Codec.json_restores hcanonical hfree event.eventType
  constructor
  · intro hdepth
    have hrebuild : p.rebuild r = .ok (event.again r) := by
      refine rebuild_of_keeps hkeeps fun bytes hencode => ?_
      rw [hwriter] at hencode
      obtain rfl := Except.ok.inj hencode
      rw [hreader]
      exact hshallow hdepth
    exact ⟨hrebuild, replay_of_rebuild hrebuild⟩
  · intro hdepth
    obtain ⟨place, hdecode⟩ := hdeep hdepth
    obtain ⟨bytes, hencode, hpayload⟩ := hkeeps.payload
    rw [hwriter] at hencode
    obtain rfl := Except.ok.inj hencode
    have hrebuild : p.rebuild r = .error (Codec.tooDeep event.eventType place) := by
      unfold rebuild
      rw [hpayload, hkeeps.type, hreader]
      simp only [hdecode, Except.map]
    refine ⟨place, hrebuild, ?_⟩
    unfold replay
    rw [hrebuild]

namespace Crew

/-- **The depth of a payload decides whether its event is replayed.**  Let a ledger have no row for an
event, whose payload is any value without doubles, as values are kept in memory.  Let any crew work on
this ledger, where nothing else is delivered under the id of the event, and let payloads be written
and read as JSON.  A row of the event that a scan hands out, is made the event again with its payload,
and is delivered again, exactly if the payload is no deeper than 127; otherwise it is given up, and
the limit of the reader is the reason. -/
theorem replayed_iff_shallow {s : Store} {errands : List Errand} {log : List Entry} {crew : Crew}
    {event : Event} {group : String} {p : Replayer} {r : Record}
    (hcanonical : event.payload.Canonical) (hfree : event.payload.FloatFree)
    (hnew : s.find? (.active event.id .consume group) = none)
    (herrands : ∀ errand ∈ errands, errand.FromOutside)
    (hbegan : ∀ errand, Entry.began errand ∈ log → errand.FromOutside)
    (honly : ∀ c other, Errand.TakenOn errands log (.deliver c other) → other.id = event.id →
      other = event ∧ c.codec = .json)
    (hrun : (waiting s errands).Run log crew)
    (hreplay : Errand.replay p r ∈ roster errands log)
    (hid : r.eventId = event.id) (hgroup : r.ownerGroup = group) (hreader : p.codec = .json) :
    (p.rebuild r = .ok (event.again r) ↔ event.payload.depth ≤ 127) ∧
    (event.payload.depth ≤ 127 → p.replay r = p.consumer.redeliver (event.again r)) ∧
    (127 < event.payload.depth → ∃ place,
      p.replay r = p.consumer.abandon r (Codec.tooDeep event.eventType place).message) := by
  obtain ⟨chart, hchart, -⟩ := hrun.charted (charted_waiting s errands)
  obtain ⟨-, hkey, hkept⟩ := Chart.kept_run herrands hchart hbegan hreplay
  have hunknown : s.find? r.key = none := by
    rw [hkey, hid, hgroup]
    exact hnew
  obtain ⟨c, other, row, hdeliver, -, -, hkeeps⟩ := hkept hunknown
  obtain ⟨rfl, hwriter⟩ := honly c other hdeliver (hkeeps.id.symm.trans hid)
  obtain ⟨hshallow, hdeep⟩ := Replayer.json_replays hkeeps hwriter hreader hcanonical hfree
  refine ⟨⟨fun hrebuild => ?_, fun hdepth => (hshallow hdepth).1⟩,
    fun hdepth => (hshallow hdepth).2, fun hdepth => ?_⟩
  · refine Nat.le_of_not_lt fun hdepth => ?_
    obtain ⟨place, herror, -⟩ := hdeep hdepth
    rw [hrebuild] at herror
    cases herror
  · obtain ⟨place, -, hgiven⟩ := hdeep hdepth
    exact ⟨place, hgiven⟩

/-- A parcel in 127 arrays is delivered again as it was. -/
theorem replayed_iff_shallow_nested :
    ∃ log crew,
      (waiting .empty [.deliver (clerk 3) (parcelOf (.nested 127))]).Run log crew ∧
      Errand.replay runner (returned (.nested 127)) ∈
        roster [.deliver (clerk 3) (parcelOf (.nested 127))] log ∧
      runner.replay (returned (.nested 127)) =
        (clerk 3).redeliver ((parcelOf (.nested 127)).again (returned (.nested 127))) := by
  obtain ⟨log, crew, h⟩ := exists_returns (.nested 127)
  obtain ⟨-, hshallow, -⟩ := replayed_iff_shallow
    (Json.canonical_nested 127) (Json.floatFree_nested 127) rfl
    (fun errand herrand => h.fromOutside (.inl herrand))
    (fun errand hlog => h.fromOutside (.inr hlog))
    (fun c other hdeliver _ => by
      obtain ⟨rfl, rfl⟩ := h.delivered hdeliver
      exact ⟨rfl, rfl⟩)
    h.run h.replay rfl rfl rfl
  exact ⟨log, crew, h.run, h.replay, hshallow (Nat.le_of_eq (Json.depth_nested 127))⟩

/-- **A passing failure that becomes final.**  A parcel in 128 arrays is delivered on an empty ledger,
and its handler fails once, with two more retries to come.  A scan selects the row, which nobody has
changed, and gives it up, as it cannot read what the delivery has written. -/
theorem deep_parcel_given_up :
    ∃ event r log log' crew crew', ∃ row : Record,
      event.payload = .nested 128 ∧ event.payload.Canonical ∧ event.payload.FloatFree ∧
      (waiting .empty [.deliver (clerk 3) event]).Run log crew ∧
      Errand.replay runner r ∈ roster [.deliver (clerk 3) event] log ∧
      crew.store.find? ((clerk 3).key event.id) = some r ∧ r.status = .retrying ∧
      r.retryTimes = 1 ∧ r.maxRetryTimes = 3 ∧
      (∀ again, runner.rebuild r ≠ .ok again) ∧ crew.Run log' crew' ∧
      crew'.store.find? ((clerk 3).key event.id) = some row ∧ row.status = .failed := by
  obtain ⟨log, ⟨store, jobs⟩, h⟩ := exists_returns (.nested 128)
  have hcanonical := Json.canonical_nested 128
  have hfree := Json.floatFree_nested 128
  have hkeeps : (returned (.nested 128)).Keeps (clerk 3) (parcelOf (.nested 128)) :=
    ⟨rfl, rfl, ⟨_, rfl, rfl⟩, rfl⟩
  have hdepth : 127 < (parcelOf (.nested 128)).payload.depth := by
    show 127 < (Json.nested 128).depth
    rw [Json.depth_nested]
    decide
  obtain ⟨-, hdeep⟩ := Replayer.json_replays (p := runner) hkeeps rfl rfl hcanonical hfree
  obtain ⟨place, herror, hreplay⟩ := hdeep hdepth
  -- the worker of the row goes on alone, and writes down that the row has failed
  obtain ⟨i, hjob⟩ := h.job
  have hwork : (Errand.replay runner (returned (.nested 128))).work =
      ((clerk 3).abandon (returned (.nested 128)) (Codec.tooDeep "t" place).message).bind
        fun outcome => .done (.delivery outcome) := by
    show (runner.replay (returned (.nested 128))).bind _ = _
    rw [hreplay]
    rfl
  rw [hwork] at hjob
  obtain ⟨log', w, next, hsolo, -, hkey, hfailed⟩ := solo_abandon (i := i)
    (fun outcome => .done (.delivery outcome)) h.row rfl (by decide)
    (Codec.tooDeep "t" place).message
  refine ⟨parcelOf (.nested 128), returned (.nested 128), log, log', _, _, next.revised, rfl,
    hcanonical, hfree, h.run, h.replay, h.row, rfl, rfl, rfl, fun again hagain => ?_,
    hsolo.run hjob, Store.find?_replace_of_eq h.row hkey, hfailed⟩
  rw [herror] at hagain
  cases hagain

end Crew

end EventRelay
