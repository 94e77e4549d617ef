import EventRelay.Proofs.Crew.Serial

/-!
# The trail of deleted rows

A row that is deleted is filed away and not removed, so that a ledger keeps each row it ever had.
The key under which it is filed is made from its own number, by a row that is found under another
key, and the place is taken without a look at what is there.  While calls come one after the other
(`Crew.Serial`) nothing is: rows have distinct numbers, those that were deleted have failed and are
under their numbers, and of the rows about one event at most the last is active (`Store.Trail`).
-/

namespace EventRelay

/-- What a row is about: the key that it has while it is active. -/
def Record.subject (r : Record) : Key :=
  .active r.eventId r.action r.ownerGroup

theorem Record.key_of_active {r : Record} (h : r.deleteMarker = 0) : r.key = r.subject := by
  unfold key
  rw [h]
  rfl

theorem Record.subject_of_key {r r' : Record} (h : r.key = r'.key) : r.subject = r'.subject :=
  congrArg (fun key : Key => Key.active key.eventId key.action key.ownerGroup) h

namespace Store

/-! ### Ledgers with their rows in a trail -/

def numbers (count : Nat) : List Int :=
  (List.range count).map fun k : Nat => (k : Int) + 1

theorem mem_numbers {count : Nat} {id : Int} : id ∈ numbers count ↔ 1 ≤ id ∧ id ≤ count := by
  unfold numbers
  rw [List.mem_map]
  constructor
  · rintro ⟨k, hk, rfl⟩
    have hlt := List.mem_range.mp hk
    omega
  · rintro ⟨hlow, hhigh⟩
    exact ⟨(id - 1).toNat, List.mem_range.mpr (by omega), by omega⟩

theorem nodup_numbers (count : Nat) : (numbers count).Nodup := by
  refine List.Nodup.map ?_ List.nodup_range
  intro a b hab
  have hsame : (a : Int) + 1 = b + 1 := hab
  omega

theorem numbers_succ (count : Nat) : numbers (count + 1) = numbers count ++ [(count : Int) + 1] := by
  unfold numbers
  rw [List.range_succ, List.map_append]
  rfl

/-- **The rows of a ledger that keeps them all.** -/
structure Trail (count : Nat) (s : Store) : Prop where
  last : s.lastId = count
  ids : (s.rows.map (·.id)).Perm (numbers count)
  deleted : ∀ r ∈ s.rows, r.deleteMarker ≠ 0 →
    r.deleteMarker = r.id ∧ r.status = .failed ∧ r.action = .consume
  latest : ∀ r ∈ s.rows, r.deleteMarker = 0 → ∀ r' ∈ s.rows, r'.subject = r.subject → r'.id ≤ r.id

theorem trail_empty : Store.empty.Trail 0 where
  last := rfl
  ids := .refl _
  deleted _ hr := absurd hr List.not_mem_nil
  latest _ hr := absurd hr List.not_mem_nil

namespace Trail

variable {count : Nat} {s s' : Store}

theorem numbered (h : s.Trail count) {r : Record} (hr : r ∈ s.rows) : 1 ≤ r.id ∧ r.id ≤ count :=
  mem_numbers.mp (h.ids.mem_iff.mp (List.mem_map_of_mem hr))

theorem eq_of_id (h : s.Trail count) {x y : Record} (hx : x ∈ s.rows) (hy : y ∈ s.rows)
    (hid : x.id = y.id) : x = y :=
  List.inj_on_of_nodup_map (h.ids.nodup_iff.mpr (nodup_numbers count)) hx hy hid

theorem added (h : s.Trail count) {row : Record} (hid : row.id = s.lastId + 1)
    (hmarker : row.deleteMarker = 0) (hfree : ∀ r ∈ s.rows, r.key ≠ row.key) :
    Trail (count + 1) ⟨s.rows ++ [row], s.lastId + 1⟩ where
  last := by rw [h.last]; rfl
  ids := by
    rw [List.map_append, numbers_succ, List.map_singleton, hid, h.last]
    exact h.ids.append_right _
  deleted r hr hdeleted := by
    rcases List.mem_append.mp hr with hr | hr
    · exact h.deleted r hr hdeleted
    · rw [List.mem_singleton.mp hr] at hdeleted
      exact absurd hmarker hdeleted
  latest r hr hactive r' hr' hsubject := by
    have hlast := h.last
    rcases List.mem_append.mp hr with hr | hr
    · rcases List.mem_append.mp hr' with hr' | hr'
      · exact h.latest r hr hactive r' hr' hsubject
      · -- an active row about the same would have the key of the new one
        rw [List.mem_singleton.mp hr'] at hsubject
        have hkey : r.key = row.key := by
          rw [Record.key_of_active hactive, Record.key_of_active hmarker, hsubject]
        exact absurd hkey (hfree r hr)
    · rw [List.mem_singleton.mp hr]
      rcases List.mem_append.mp hr' with hr' | hr'
      · have := (h.numbered hr').2
        omega
      · exact Int.le_of_eq (congrArg Record.id (List.mem_singleton.mp hr'))

theorem changed (h : s.Trail count) {x y : Record} {rest : List Record}
    (hrows : s.rows.Perm (x :: rest)) (hrows' : s'.rows.Perm (y :: rest))
    (hlast : s'.lastId = s.lastId) (hid : y.id = x.id) (hsubject : y.subject = x.subject)
    (hactive : x.deleteMarker = 0) (hdeleted : y.deleteMarker ≠ 0 →
      y.deleteMarker = y.id ∧ y.status = .failed ∧ y.action = .consume) : s'.Trail count := by
  have hx : x ∈ s.rows := hrows.mem_iff.mpr (List.mem_cons_self ..)
  have hrest : ∀ r ∈ rest, r ∈ s.rows := fun r hr => hrows.mem_iff.mpr (List.mem_cons_of_mem _ hr)
  have hmem : ∀ r ∈ s'.rows, r = y ∨ r ∈ rest :=
    fun r hr => List.mem_cons.mp (hrows'.mem_iff.mp hr)
  refine ⟨hlast.trans h.last, ?_, fun r hr hmarker => ?_, fun r hr hopen r' hr' hsame => ?_⟩
  · have hids := hrows.map (·.id)
    have hids' := hrows'.map (·.id)
    rw [List.map_cons] at hids hids'
    rw [hid] at hids'
    exact hids'.trans (hids.symm.trans h.ids)
  · rcases hmem r hr with rfl | hr
    · exact hdeleted hmarker
    · exact h.deleted r (hrest r hr) hmarker
  · -- each of the two rows stands for one that was there, with the same number and subject
    have hwas : ∀ z ∈ s'.rows, ∃ old ∈ s.rows, old.id = z.id ∧ old.subject = z.subject ∧
        (z.deleteMarker = 0 → old.deleteMarker = 0) := by
      intro z hz
      rcases hmem z hz with rfl | hz
      · exact ⟨x, hx, hid.symm, hsubject.symm, fun _ => hactive⟩
      · exact ⟨z, hrest z hz, rfl, rfl, id⟩
    obtain ⟨old, hold, holdid, holdsubject, holdactive⟩ := hwas r hr
    obtain ⟨old', hold', holdid', holdsubject', -⟩ := hwas r' hr'
    rw [← holdid, ← holdid']
    refine h.latest old hold (holdactive hopen) old' hold' ?_
    rw [holdsubject, holdsubject', hsame]

theorem free_of_deleted (h : s.Trail count) {x : Record} (hx : x ∈ s.rows) (now : Instant) :
    (x.deleted now).revised.deleteMarker = x.id ∧
      ∀ z ∈ s.rows, z.key ≠ x.key → z.key ≠ (x.deleted now).revised.key := by
  have hnumber := (h.numbered hx).1
  have hmarker : (x.deleted now).revised.deleteMarker = x.id := by
    show max x.id 1 = x.id
    omega
  refine ⟨hmarker, fun z hz hother hkey => ?_⟩
  have hzmarker : z.deleteMarker = x.id := (congrArg Key.deleteMarker hkey).trans hmarker
  obtain ⟨hzid, -⟩ := h.deleted z hz (by omega)
  exact hother (congrArg Record.key (h.eq_of_id hz hx (hzid.symm.trans hzmarker)))

end Trail

end Store

/-! ### Steps of calls -/

namespace Chart

variable {chart chart' : Chart} {entry : Entry} {log : List Entry}

theorem Step.columns_created (h : chart.Step entry chart') {r : Record}
    (hcreation : entry.creation? = some r) :
    r.deleteMarker = 0 ∧ r.retryTimes = 0 ∧ r.version = 0 := by
  obtain ⟨i, draft, rfl⟩ := Entry.eq_of_creation? hcreation
  obtain ⟨post, post', -, -, hreply, hmove⟩ := h.of_asked
  have hdraft : r.deleteMarker = draft.deleteMarker ∧ r.retryTimes = draft.retryTimes ∧
      r.version = draft.version := by
    rcases hreply.creation with ⟨winner, hwinner, -⟩ | hrow
    · cases hwinner
    · cases hrow
      exact ⟨rfl, rfl, rfl⟩
  rw [hdraft.1, hdraft.2.1, hdraft.2.2]
  cases hmove with
  | delivery hmove =>
    cases hmove with
    | created hpayload => exact ⟨rfl, rfl, rfl⟩
    | fault hfails hs => cases hfails
  | publication hmove =>
    cases hmove with
    | created => exact ⟨rfl, rfl, rfl⟩

/-- **What deleting a row does.**  The row has failed; it gets its number as its marker, the time
and its next version, and no other row is touched. -/
theorem Current.of_deletion {count : Nat} (h : chart.Current)
    (hlawful : chart.Lawful Record.Tallied) (htrail : chart.store.Trail count) {i : Nat}
    {r : Record} {now : Instant} (hstep : chart.Step (.asked i (.tombstone r now) (.ok true)) chart') :
    ∃ rest, r.status = .failed ∧ r.action = .consume ∧ r.deleteMarker = 0 ∧
      chart.store.rows.Perm (r :: rest) ∧
        chart'.store.rows.Perm
          ({ r with deleteMarker := r.id, updateTime := now, version := r.version + 1 } :: rest) ∧
          chart'.store.lastId = chart.store.lastId := by
  obtain ⟨c, event, hpost⟩ := hstep.reopening (.inl rfl)
  obtain ⟨hfind, hfailed⟩ := h.failed i c event r hpost
  obtain ⟨haction, hmarker⟩ := hlawful.posts i _ hpost
  obtain ⟨stored, hstored, -, hstore⟩ := hstep.effect.of_deletion
  obtain rfl : r = stored := Option.some.inj (hfind.symm.trans hstored)
  have hmem := Store.mem_of_find? hfind
  obtain ⟨hnumber, hfree⟩ := htrail.free_of_deleted hmem now
  obtain ⟨rest, hrows, hrows', -⟩ := h.keyed.perm_refile hmem hfree
  have hrow : (r.deleted now).revised =
      { r with deleteMarker := (r.deleted now).revised.deleteMarker, updateTime := now,
               version := r.version + 1 } := rfl
  rw [hnumber] at hrow
  rw [hrow] at hrows'
  rw [hstore, hrow]
  exact ⟨rest, hfailed, haction, hmarker, hrows, hrows', rfl⟩

/-- What is so of a ledger and its workers while calls come one after the other. -/
structure Audited (log : List Entry) (chart : Chart) : Prop where
  lawful : chart.Lawful Record.Tallied
  current : chart.Current
  trail : chart.store.Trail (createdIn log).length

/-- **What a step of a call preserves of the trail**, and of each row that was deleted. -/
theorem Audited.trail_step (h : Audited log chart) (hstep : chart.Step entry chart') :
    chart'.store.Trail (createdIn (log ++ [entry])).length ∧
      ∀ r ∈ chart.store.rows, r.deleteMarker ≠ 0 → r ∈ chart'.store.rows := by
  have hnone : entry.creation? = none →
      (createdIn (log ++ [entry])).length = (createdIn log).length := by
    intro hcreation
    rw [createdIn_concat, hcreation]
    simp
  -- the rows that were deleted before are among those that a change leaves
  have hkept : ∀ {x y : Record} {rest : List Record} {s' : Store},
      chart.store.rows.Perm (x :: rest) → s'.rows.Perm (y :: rest) → x.deleteMarker = 0 →
        ∀ r ∈ chart.store.rows, r.deleteMarker ≠ 0 → r ∈ s'.rows := by
    intro x y rest s' hrows hrows' hactive r hr hmarker
    rcases List.mem_cons.mp (hrows.mem_iff.mp hr) with rfl | hr
    · exact absurd hactive hmarker
    · exact hrows'.mem_iff.mpr (List.mem_cons_of_mem _ hr)
  have heffect := hstep.effect
  generalize hs : chart'.store = s' at heffect ⊢
  cases heffect with
  | unchanged hupdate hcreation hcleared =>
    rw [hnone hcreation]
    exact ⟨h.trail, fun r hr _ => hr⟩
  | @created i draft hfree =>
    have hcreation : (Entry.asked i (.create draft)
        (.ok (.created { draft with id := chart.store.lastId + 1 }))).creation? =
          some { draft with id := chart.store.lastId + 1 } := rfl
    obtain ⟨hmarker, -⟩ := hstep.columns_created hcreation
    rw [createdIn_concat, hcreation, List.length_append]
    exact ⟨h.trail.added rfl hmarker (Store.find?_eq_none_iff.mp hfree),
      fun r hr _ => List.mem_append_left _ hr⟩
  | @updated i next stored hfind hversion hactive =>
    obtain ⟨hmarker, row, hrow, hid⟩ := h.current.of_update hstep
    obtain rfl : row = stored := Option.some.inj (hrow.symm.trans hfind)
    have hkey : next.revised.key = row.key := (Store.key_of_find? hfind).symm
    have hopen : row.deleteMarker = 0 := (congrArg Key.deleteMarker hkey).symm.trans hmarker
    obtain ⟨rest, hrows, hrows', -⟩ :=
      h.current.keyed.perm_replace (Store.mem_of_find? hfind) hkey
    rw [hnone rfl]
    refine ⟨h.trail.changed hrows hrows' rfl hid.symm (Record.subject_of_key hkey) hopen ?_,
      hkept hrows hrows' hopen⟩
    exact fun hdeleted => absurd hmarker hdeleted
  | @deleted i r stored now hfind hversion =>
    obtain ⟨rest, hfailed, haction, hmarker, hrows, hrows', hlast⟩ :=
      h.current.of_deletion h.lawful h.trail hstep
    rw [hs] at hrows' hlast
    rw [hnone rfl]
    refine ⟨h.trail.changed hrows hrows' hlast rfl rfl hmarker ?_, hkept hrows hrows' hmarker⟩
    exact fun _ => ⟨rfl, hfailed, haction⟩
  | lost hfind hversion => exact absurd hstep h.lawful.not_lost

theorem Audited.step (h : Audited log chart) (hstep : chart.Step entry chart')
    (hbegan : ∀ errand, entry ≠ .began errand) : Audited (log ++ [entry]) chart' where
  lawful := h.lawful.step Record.law_tallied hstep fun errand hentry => absurd hentry (hbegan errand)
  current := h.current.step hstep hbegan
  trail := (h.trail_step hstep).1

theorem Audited.call (h : Audited log chart) {errand : Errand} (herrand : errand.FromOutside) :
    Audited log ⟨chart.store, [errand].map Errand.post⟩ where
  lawful := lawful_start h.lawful.rows fun _ hother => List.mem_singleton.mp hother ▸ herrand
  current := current_call h.current.keyed herrand
  trail := h.trail

end Chart

namespace Crew

/-- The workers of a crew are where an audited chart has them. -/
def Audited (log : List Entry) (crew : Crew) : Prop :=
  ∃ chart, crew.Charted chart ∧ chart.Audited log

/-- **Calls one after the other keep the trail**, and each row that was deleted. -/
theorem Serial.audited {crew crew' : Crew} {log log' : List Entry} (h : crew.Serial log' crew')
    (haudited : crew.Audited log) :
    crew'.Audited (log ++ log') ∧
      ∀ r ∈ crew.store.rows, r.deleteMarker ≠ 0 → r ∈ crew'.store.rows := by
  induction h with
  | start =>
    rw [List.append_nil]
    exact ⟨haudited, fun r hr _ => hr⟩
  | @call log' crew' prior errand herrand ih =>
    obtain ⟨⟨chart, hcharted, hchart⟩, hkept⟩ := ih
    refine ⟨⟨_, charted_waiting crew'.store [errand], ?_⟩, hkept⟩
    rw [← hcharted.store]
    exact hchart.call herrand
  | @step log' crew₁ crew₂ entry prior hbegan hstep ih =>
    obtain ⟨⟨chart, hcharted, hchart⟩, hkept⟩ := ih
    obtain ⟨chart', hstep', hcharted'⟩ := hstep.charted hcharted
    rw [← List.append_assoc]
    refine ⟨⟨chart', hcharted', hchart.step hstep' hbegan⟩, fun r hr hmarker => ?_⟩
    have hthere := hkept r hr hmarker
    rw [← hcharted.store] at hthere
    rw [← hcharted'.store]
    exact (hchart.trail_step hstep').2 r hthere hmarker

theorem audited_empty : Audited [] ⟨.empty, []⟩ := by
  have hnobody : ∀ (i : Nat) (post : Post), ([] : List Post)[i]? ≠ some post := by simp
  refine ⟨⟨.empty, []⟩, charted_waiting .empty [], ⟨?_, ?_⟩, ⟨?_, ?_, ?_, ?_⟩, ?_⟩
  · exact fun r hr => absurd hr List.not_mem_nil
  · exact fun i post hpost => absurd hpost (hnobody i post)
  · exact Store.keyed_empty
  · exact .inl (Nat.zero_le 1)
  · exact fun i post hpost => absurd hpost (hnobody i post)
  · exact fun i c event r hpost => absurd hpost (hnobody i _)
  · exact Store.trail_empty

/-- **The trail of a ledger.**  Let calls come one after the other on a ledger that begins empty:
deliveries, publications and scans, where calls to the ledger may fail and the calls themselves may
be dropped anywhere. -/
theorem trail_kept {log : List Entry} {crew : Crew} (h : Serial ⟨.empty, []⟩ log crew) :
    -- rows have the numbers from one to as many as were created
    (crew.store.rows.map (·.id)).Perm
      ((List.range (createdIn log).length).map fun k : Nat => (k : Int) + 1) ∧
    -- of the rows about the same, all but the last are deleted
    (∀ r ∈ crew.store.rows, ∀ r' ∈ crew.store.rows, r.subject = r'.subject → r.id < r'.id →
      r.deleteMarker ≠ 0) ∧
    -- a deleted row is one for consuming that has failed, is filed under its number, and stays
    (∀ r ∈ crew.store.rows, r.deleteMarker ≠ 0 →
      r.status = .failed ∧ r.action = .consume ∧ r.deleteMarker = r.id ∧
        ∀ log' crew', crew.Serial log' crew' → r ∈ crew'.store.rows) ∧
    ∀ entry crew', crew.Step entry crew' →
      -- a row is deleted after it has failed, and keeps all else that it says
      (∀ i r now, entry = .asked i (.tombstone r now) (.ok true) →
        ∃ rest, r.status = .failed ∧ crew.store.rows.Perm (r :: rest) ∧
          crew'.store.rows.Perm
            ({ r with deleteMarker := r.id, updateTime := now, version := r.version + 1 } ::
              rest)) ∧
      -- a new row begins from zero, behind all others
      ∀ r, entry.creation? = some r →
        crew'.store.rows = crew.store.rows ++ [r] ∧ r.retryTimes = 0 ∧ r.version = 0 ∧
          ∀ row ∈ crew.store.rows, row.id < r.id := by
  obtain ⟨chart, hcharted, haudited⟩ := (h.audited audited_empty).1
  rw [List.nil_append] at haudited
  have htrail := haudited.trail
  rw [hcharted.store] at htrail
  refine ⟨htrail.ids, fun r hr r' hr' hsubject hlt hactive => ?_, fun r hr hmarker => ?_,
    fun entry crew' hstep => ?_⟩
  · have hle := htrail.latest r hr hactive r' hr' hsubject.symm
    omega
  · obtain ⟨hnumber, hfailed, haction⟩ := htrail.deleted r hr hmarker
    refine ⟨hfailed, haction, hnumber, fun log' crew' hlater => ?_⟩
    exact (hlater.audited ⟨chart, hcharted, haudited⟩).2 r hr hmarker
  · obtain ⟨chart', hstep', hcharted'⟩ := hstep.charted hcharted
    rw [← hcharted.store, ← hcharted'.store]
    rw [← hcharted.store] at htrail
    refine ⟨?_, fun r hcreation => ?_⟩
    · rintro i r now rfl
      obtain ⟨rest, hfailed, -, -, hrows, hrows', -⟩ :=
        haudited.current.of_deletion haudited.lawful htrail hstep'
      exact ⟨rest, hfailed, hrows, hrows'⟩
    · obtain ⟨-, hretries, hversion⟩ := hstep'.columns_created hcreation
      have heffect := hstep'.effect
      generalize chart'.store = s' at heffect
      cases heffect with
      | unchanged hupdate hnone hcleared =>
        rw [hnone] at hcreation
        cases hcreation
      | @created i draft hfree =>
        obtain rfl := Option.some.inj hcreation
        refine ⟨rfl, hretries, hversion, fun row hrow => ?_⟩
        have hnumber := (htrail.numbered hrow).2
        have hlast := htrail.last
        show row.id < chart.store.lastId + 1
        omega
      | updated | deleted | lost => cases hcreation

/-- A parcel is delivered and fails for good, and is delivered anew. -/
theorem trail_kept_reopened :
    ∃ log crew, Serial ⟨.empty, []⟩ log crew ∧
      crew.store.rows.map (fun r => (r.id, r.status, r.deleteMarker)) =
        [(1, .failed, 1), (2, .retrying, 0)] ∧
      ∀ log' crew', crew.Serial log' crew' →
        ∃ r ∈ crew'.store.rows, r.id = 1 ∧ r.status = .failed ∧ r.deleteMarker = r.id := by
  have hplay : ((waiting .empty [.deliver (clerk 0) parcel]).play
      (turns 7 0 (.failed "x"))).bind (fun p =>
        ((waiting p.2.store [.deliver (clerk 0) parcel]).play (turns 5 0 .ok)).map fun q =>
          q.2.store.rows.map fun r => (r.id, r.status, r.deleteMarker)) =
      some [(1, .failed, 1), (2, .retrying, 0)] := by decide
  obtain ⟨⟨log₁, crew₁⟩, hfirst, hplay⟩ := Option.bind_eq_some_iff.mp hplay
  obtain ⟨⟨log₂, crew₂⟩, hsecond, hrows⟩ := Option.map_eq_some_iff.mp hplay
  have hcall : Errand.FromOutside (.deliver (clerk 0) parcel) := trivial
  have hafter : Serial ⟨.empty, []⟩ ([] ++ log₁) crew₁ :=
    (Serial.start.call hcall).run (run_of_play hfirst) (not_began_of_play hfirst)
  have hserial : Serial ⟨.empty, []⟩ ([] ++ log₁ ++ log₂) crew₂ :=
    (hafter.call hcall).run (run_of_play hsecond) (not_began_of_play hsecond)
  obtain ⟨-, -, hdeleted, -⟩ := trail_kept hserial
  have hthere : ∃ r ∈ crew₂.store.rows, (r.id, r.status, r.deleteMarker) = (1, .failed, 1) := by
    have hmem : ((1, .failed, 1) : Int × Status × Int) ∈
        crew₂.store.rows.map fun r => (r.id, r.status, r.deleteMarker) := by
      rw [hrows]
      exact List.mem_cons_self ..
    exact List.mem_map.mp hmem
  obtain ⟨r, hr, hcolumns⟩ := hthere
  obtain ⟨hid, hcolumns⟩ := Prod.mk.inj hcolumns
  obtain ⟨-, hmarker⟩ := Prod.mk.inj hcolumns
  obtain ⟨hfailed, -, hnumber, hstays⟩ := hdeleted r hr (by rw [hmarker]; decide)
  refine ⟨_, crew₂, hserial, hrows, fun log' crew' hlater => ?_⟩
  exact ⟨r, hstays log' crew' hlater, hid, hfailed, hnumber⟩

end Crew

end EventRelay
