import EventRelay.Proofs.Crew.Attempts
import EventRelay.Proofs.Crew.Finality
import EventRelay.Proofs.Crew.Laws

/-!
# The life of a row

The ledger takes any copy of the right version for a row that is not finished, and does not look at
what the copy says.  That the statuses of a row are steps of the lifecycle all the same follows from
what workers send: a copy with a status that nothing leads back from, `created`, is never among it,
and whether a row is finished is the one thing that the ledger does look at.

`life_kept` states this for any crew on a ledger that begins empty.  The statuses under a key, from
the creation of a row to its deletion, are one `Status.Life`.  Finished rows are changed by deletions
only, which the versions of such rows always admit (`Record.Tallied`), and every transition that a
worker attempts is allowed.
-/

namespace EventRelay

/-! ### Statuses in their order -/

/-- The statuses of a row in their order: `created` at most once and first, then `retrying` any
number of times, and one of the ends at most once and last. -/
def Status.Life (statuses : List Status) : Prop :=
  ∃ (first last : List Status) (tries : Nat),
    statuses = first ++ List.replicate tries .retrying ++ last ∧
      (first = [] ∨ first = [.created]) ∧ (last = [] ∨ last = [.success] ∨ last = [.failed])

theorem Status.canBecome_of_active {status next : Status} (hactive : status.isTerminal = false)
    (hnext : next ≠ .created) : status.canBecome next = true := by
  cases status <;> cases next <;> simp_all [isTerminal, canBecome]

theorem Status.Life.concat {statuses : List Status} {last next : Status} (h : Life statuses)
    (hlast : statuses.getLast? = some last) (hactive : last.isTerminal = false)
    (hnext : next ≠ .created) : Life (statuses ++ [next]) := by
  obtain ⟨first, ending, tries, rfl, hfirst, hending⟩ := h
  have hopen : ending = [] := by
    rcases hending with rfl | rfl | rfl
    · rfl
    · rw [List.getLast?_concat] at hlast
      rw [← Option.some.inj hlast] at hactive
      cases hactive
    · rw [List.getLast?_concat] at hlast
      rw [← Option.some.inj hlast] at hactive
      cases hactive
  subst hopen
  cases next with
  | created => exact absurd rfl hnext
  | retrying =>
    refine ⟨first, [], tries + 1, ?_, hfirst, .inl rfl⟩
    rw [List.replicate_succ']
    simp
  | success => exact ⟨first, [.success], tries, by simp, hfirst, .inr (.inl rfl)⟩
  | failed => exact ⟨first, [.failed], tries, by simp, hfirst, .inr (.inr rfl)⟩

/-- The statuses that a row has had: those of its creation and of the writes to its key. -/
def Record.statuses (r : Record) (during : List Entry) : List Status :=
  r.status :: (writesTo r.key during).map fun w => w.2.status

/-! ### Versions within their bounds -/

/-- The version of a row tells how often it was tried, which 32 bits can count. -/
structure Record.Tallied (r : Record) : Prop where
  bounded : r.retryTimes ≤ greatestNat32
  version : r.version = r.retryTimes + if r.status.isTerminal then 1 else 0

theorem Record.law_tallied : Law Tallied where
  fresh _ _ _ _ _ := ⟨Nat.zero_le _, rfl⟩
  settles := by
    intro c event r next attempt t outcome now h hretrying hsettles hnext
    have hversion : r.version = r.retryTimes := by
      have := h.version
      rw [hretrying] at this
      simpa [Status.isTerminal] using this
    have hnextversion : next.revised.version = r.retryTimes + 1 := by
      rw [version_revised, version_transition hnext, hversion]
    have hcopy := (transition_cases hnext).2
    cases hsettles with
    | rescheduled hverdict hallows hcount htime =>
      subst hcopy
      exact ⟨hcount, hnextversion⟩
    | unhandled | succeeded | exhausted | abandoned =>
      subst hcopy
      exact ⟨h.bounded, hnextversion⟩

theorem Record.Tallied.within {r : Record} (h : r.Tallied) :
    leastInt64 ≤ r.version + 1 ∧ r.version + 1 ≤ greatestInt64 := by
  have hbounded := h.bounded
  have hversion := h.version
  unfold greatestNat32 at hbounded
  unfold leastInt64 greatestInt64
  split at hversion <;> omega

namespace Chart

variable {chart chart' : Chart} {entry : Entry} {log : List Entry}

theorem Lawful.not_lost (h : Lawful Record.Tallied chart) {i : Nat} {r : Record} {now : Instant} :
    ¬ chart.Step (.crashed i (.tombstone r now)) chart' := by
  intro hstep
  obtain ⟨c, event, hpost⟩ := hstep.reopening (.inr rfl)
  obtain ⟨haction, hmarker⟩ := h.posts i _ hpost
  obtain ⟨stored, hfind, -, hrange⟩ := hstep.of_lost
  have hkey := Store.key_of_find? hfind
  obtain ⟨-, htallied⟩ := h.rows stored (Store.mem_of_find? hfind)
    ((congrArg Key.action hkey).trans haction) ((congrArg Key.deleteMarker hkey).trans hmarker)
  have hwithin := htallied.within
  omega

/-! ### What steps do to statuses -/

theorem Step.status_created (h : chart.Step entry chart') {r : Record}
    (hcreation : entry.creation? = some r) : r.status = .created ∨ r.status = .retrying := by
  obtain ⟨i, draft, rfl⟩ := Entry.eq_of_creation? hcreation
  obtain ⟨post, post', -, -, hreply, hmove⟩ := h.of_asked
  have hstatus : r.status = draft.status := by
    rcases hreply.creation with ⟨winner, hcreation, -⟩ | hcreation
    · cases hcreation
    · cases hcreation
      rfl
  rw [hstatus]
  cases hmove with
  | delivery hmove =>
    cases hmove with
    | created hpayload => exact .inr rfl
    | fault hfails hs => cases hfails
  | publication hmove =>
    cases hmove with
    | created => exact .inl rfl

theorem Step.status_written {i : Nat} {next : Record}
    (h : chart.Step (.asked i (.update next) (.ok true)) chart') : next.status ≠ .created := by
  obtain ⟨post, post', -, -, -, hmove⟩ := h.of_asked
  cases hmove with
  | delivery hmove =>
    cases hmove with
    | claimed hnext => exact Record.status_ne_created_of_transition hnext
    | concluded hsettles hfailed hnext => exact Record.status_ne_created_of_transition hnext
    | gaveUp hsettles hnext => exact Record.status_ne_created_of_transition hnext
    | fault hfails hs => cases hfails
  | publication hmove =>
    cases hmove with
    | noted hnext => exact Record.status_ne_created_of_transition hnext

/-- What the log tells of a row that was created and not deleted since. -/
def Lives (log : List Entry) (chart : Chart) : Prop :=
  ∀ before e during r, log = before ++ e :: during → e.creation? = some r →
    r.deleteMarker = 0 → (∀ e' ∈ during, e'.cleared? ≠ some r.key) →
      ∃ row, chart.store.find? r.key = some row ∧ Status.Life (r.statuses during) ∧
        (r.statuses during).getLast? = some row.status

theorem Lives.step (h : Lives log chart) (hstep : chart.Step entry chart') :
    Lives (log ++ [entry]) chart' := by
  intro before e during r hlog hcreation hmarker hcleared
  rcases concat_eq_append_cons.mp hlog with ⟨rfl, rfl, rfl⟩ | ⟨during', rfl, rfl⟩
  · refine ⟨r, (hstep.effect.of_creation hcreation).2, ?_, rfl⟩
    rcases hstep.status_created hcreation with hstatus | hstatus
    · exact ⟨[.created], [], 0, by simp [Record.statuses, writesTo, writes, hstatus], .inr rfl,
        .inl rfl⟩
    · exact ⟨[], [], 1, by simp [Record.statuses, writesTo, writes, hstatus], .inl rfl, .inl rfl⟩
  · obtain ⟨row, hfind, hlife, hlast⟩ := h before e during' r rfl hcreation hmarker
      fun e' he' => hcleared e' (List.mem_append_left _ he')
    have hentry := hcleared entry (List.mem_append_right _ (List.mem_singleton_self _))
    rcases hstep.effect.find_next hmarker hfind hentry with
      ⟨i, next, rfl, hkey, -, hactive, hfind'⟩ | ⟨hother, hfind'⟩
    · have hstatuses : r.statuses (during' ++ [.asked i (.update next) (.ok true)]) =
          r.statuses during' ++ [next.status] := by
        rw [Record.statuses, writesTo_concat_update hkey, List.map_append]
        rfl
      rw [hstatuses]
      refine ⟨next.revised, hfind', hlife.concat hlast hactive hstep.status_written, ?_⟩
      exact List.getLast?_concat
    · rw [Record.statuses, writesTo_concat_other hother]
      exact ⟨row, hfind', hlife, hlast⟩

/-! ### Errors of deliveries -/

/-- A call of a worker to the ledger failed with an error. -/
def FailedWith (log : List Entry) (i : Nat) (e : Error) : Prop :=
  ∃ (request : Request) (reply : request.Reply),
    Entry.asked i request reply ∈ log ∧ request.Fails reply e

end Chart

def Errand.TakenOn (errands : List Errand) (log : List Entry) (errand : Errand) : Prop :=
  errand ∈ errands ∨ Entry.began errand ∈ log

theorem Errand.TakenOn.concat {errands : List Errand} {log : List Entry} {errand : Errand}
    (h : errand.TakenOn errands log) (entry : Entry) : errand.TakenOn errands (log ++ [entry]) :=
  h.imp_right (List.mem_append_left _)

namespace Chart

variable {chart chart' : Chart} {entry : Entry} {log : List Entry} {errands : List Errand}

structure Blamed (errands : List Errand) (log : List Entry) (chart : Chart) : Prop where
  ended : ∀ (i : Nat) c event e, chart.posts[i]? = some (.delivery c event (.ended (.error e))) →
    FailedWith log i e
  founds : ∀ (i : Nat) c event stage, chart.posts[i]? = some (.delivery c event stage) →
    stage.Rowless → Errand.TakenOn errands log (.deliver c event)

theorem rowless_of_errand {errand : Errand} {c : Consumer} {event : Event}
    {stage : Consumer.Stage} (h : errand.post = .delivery c event stage) (hrowless : stage.Rowless) :
    errand = .deliver c event := by
  cases errand with
  | deliver c' event' =>
    cases h
    rfl
  | redeliver c' event' =>
    cases h
    cases hrowless
  | publish p event' => cases h
  | scan p batch => cases h
  | replay p r =>
    rcases Errand.post_replay_cases p r with ⟨event', hpost⟩ | ⟨event', reason, hpost⟩
    · rw [hpost] at h
      cases h
      cases hrowless
    · rw [hpost] at h
      cases h
      exact hrowless.elim

theorem Blamed.step (h : Blamed errands log chart) (hstep : chart.Step entry chart') :
    Blamed errands (log ++ [entry]) chart' where
  ended i c event e hpost := by
    have hkept : FailedWith log i e → FailedWith (log ++ [entry]) i e := by
      rintro ⟨request, reply, hmem, hfails⟩
      exact ⟨request, reply, List.mem_append_left _ hmem, hfails⟩
    cases hstep.came hpost with
    | stayed hold hentry => exact hkept (h.ended i c event e hold)
    | moved hentry hold hreply hmove =>
      cases hmove with
      | delivery hmove =>
        cases hmove with
        | fault hfails hs =>
          exact ⟨_, _, List.mem_append_right _ (List.mem_singleton.mpr hentry.symm), hfails⟩
        | clock htick =>
          rcases Consumer.Stage.tick_cases htick with ⟨r, verdict, -, hstage⟩ | rfl
          · cases hstage
          · cases htick
    | joined hpost hentry hj => exact absurd hpost.symm Errand.post_ne_ended
    | handed hpost hentry hsel hr hj => exact absurd hpost.symm Errand.post_ne_ended
    | emptied hpost => cases hpost
    | crashed hpost => cases hpost
  founds i c event stage hpost hrowless := by
    cases hstep.came hpost with
    | stayed hold hentry => exact (h.founds i c event stage hold hrowless).concat entry
    | moved hentry hold hreply hmove =>
      cases hmove with
      | delivery hmove =>
        exact (h.founds i c event _ hold (hmove.rowless hrowless)).concat entry
    | joined hpost hentry hj =>
      refine .inr (List.mem_append_right _ (List.mem_singleton.mpr ?_))
      rw [hentry, rowless_of_errand hpost.symm hrowless]
    | handed hpost hentry hsel hr hj => cases rowless_of_errand hpost.symm hrowless
    | emptied hpost => cases hpost
    | crashed hpost => cases hpost

theorem blamed_start (s : Store) (errands : List Errand) :
    Blamed errands [] ⟨s, errands.map Errand.post⟩ where
  ended i c event e hpost := by
    obtain ⟨errand, -, hpost⟩ := List.mem_map.mp (List.mem_of_getElem? hpost)
    exact absurd hpost Errand.post_ne_ended
  founds i c event stage hpost hrowless := by
    obtain ⟨errand, herrand, hpost⟩ := List.mem_map.mp (List.mem_of_getElem? hpost)
    exact .inl (rowless_of_errand hpost hrowless ▸ herrand)

theorem blamed_run {s : Store} {chart : Chart}
    (hrun : (Chart.mk s (errands.map Errand.post)).Run log chart) : Blamed errands log chart := by
  induction hrun with
  | start => exact blamed_start s errands
  | step prior hstep ih => exact ih.step hstep

theorem lived_run {chart : Chart} (herrands : ∀ errand ∈ errands, errand.FromOutside)
    (hrun : (Chart.mk .empty (errands.map Errand.post)).Run log chart)
    (hbegan : ∀ errand, Entry.began errand ∈ log → errand.FromOutside) :
    Lives log chart ∧ ∀ i r now, Entry.crashed i (.tombstone r now) ∉ log := by
  have hstart : Lawful Record.Tallied ⟨.empty, errands.map Errand.post⟩ :=
    lawful_start (fun r hr => absurd hr List.not_mem_nil) herrands
  induction hrun with
  | start =>
    refine ⟨?_, fun i r now => List.not_mem_nil⟩
    intro before e during r hlog
    cases before <;> cases hlog
  | @step log _ _ entry prior hstep ih =>
    have hprior : ∀ errand, Entry.began errand ∈ log → errand.FromOutside :=
      fun errand hmem => hbegan errand (List.mem_append_left _ hmem)
    obtain ⟨hlives, hlost⟩ := ih hprior
    refine ⟨hlives.step hstep, fun i r now hmem => ?_⟩
    rcases List.mem_append.mp hmem with hmem | hmem
    · exact hlost i r now hmem
    · rw [← List.mem_singleton.mp hmem] at hstep
      exact (hstart.run Record.law_tallied prior hprior).not_lost hstep

theorem Step.allowed (h : chart.Step entry chart') {i : Nat} {next : Record}
    (hupdate : entry.update? = some (i, next)) :
    ∃ stored, chart.store.find? next.key = some stored ∧
      stored.status.canBecome next.status = true ∧
        chart'.store.find? next.key = some next.revised := by
  obtain rfl := Entry.eq_of_update? hupdate
  obtain ⟨stored, hfind, -, hactive, hstore⟩ := h.effect.of_update
  refine ⟨stored, hfind, Status.canBecome_of_active hactive h.status_written, ?_⟩
  rw [hstore]
  exact Store.find?_replace_of_eq hfind rfl

theorem Lawful.terminal_step (h : Lawful Record.Tallied chart) (hstep : chart.Step entry chart')
    {key : Key} {row : Record} (hmarker : key.deleteMarker = 0)
    (hfind : chart.store.find? key = some row) (hterminal : row.status.isTerminal = true) :
    chart'.store.find? key = some row ∨
      ∃ i r now, entry = .asked i (.tombstone r now) (.ok true) ∧ r.key = key ∧
        chart'.store.find? key = none ∧ (row.deleted now).revised ∈ chart'.store.rows := by
  rcases hstep.effect.find_terminal hmarker hfind hterminal with
    hkept | ⟨i, r, now, hkey, -, rfl | rfl⟩
  · exact .inl hkept
  · obtain ⟨stored, hstored, -, hstore⟩ := hstep.effect.of_deletion
    rw [hkey, hfind] at hstored
    obtain rfl := Option.some.inj hstored
    refine .inr ⟨i, r, now, rfl, hkey, ?_, ?_⟩
    · rw [hstore, Store.find?_refile, if_neg (row.key_deleted_ne now hmarker),
        if_pos (Store.key_of_find? hfind)]
    · rw [hstore]
      exact List.mem_append_right _ (List.mem_singleton_self _)
  · exact absurd hstep h.not_lost

end Chart

namespace Crew

/-- Every error that a delivery ends with was given by a failed call to the ledger, or by the
codec when the row was to be created.  No transition that a delivery attempts is refused. -/
theorem Charted.blamed {crew : Crew} {chart : Chart} {errands : List Errand} {log : List Entry}
    (h : crew.Charted chart) (hlawful : Chart.Lawful Record.Tallied chart)
    (hblamed : Chart.Blamed errands log chart) {i : Nat} {e : Error}
    (hjob : crew.jobs[i]? = some (.done (.delivery (.error e)))) :
    Chart.FailedWith log i e ∨ ∃ c event, Errand.TakenOn errands log (.deliver c event) ∧
      c.codec.encode event.payload = .error e := by
  obtain ⟨post, hpost, hends⟩ := h.post hjob
  have hobeys := hlawful.posts i post hpost
  cases hends with
  | @delivery c event stage _ hends =>
    cases hends with
    | ended => exact .inl (hblamed.ended i c event e hpost)
    | unwritable hpayload =>
      exact .inr ⟨c, event, hblamed.founds i c event _ hpost trivial, hpayload⟩
    | barredJoin => exact hobeys.elim
    | @barred r _ t now _ hbarred =>
      have hwaiting : r.Awaits Record.Tallied := hobeys
      obtain ⟨next, hnext⟩ := Record.transition_of_retrying hwaiting.retrying t now
      rw [hnext] at hbarred
      cases hbarred

/-- **The life of rows.**  Let any crew deliver, publish and scan on a ledger that begins empty.
From the creation of an active row until its key is deleted its statuses are one life: `created` at
most once, then `retrying` any number of times, then at most one end.  Every accepted update is a
step that the lifecycle allows from the status that is stored.  A finished row changes only when it
is deleted, and then in its marker, its time of update and its version.  No delivery ends with the
error of a transition of its own: what it ends with was given by a failed call to the ledger, or by
the codec. -/
theorem life_kept {errands : List Errand} {log : List Entry} {crew : Crew}
    (herrands : ∀ errand ∈ errands, errand.FromOutside)
    (hbegan : ∀ errand, Entry.began errand ∈ log → errand.FromOutside)
    (hrun : (waiting .empty errands).Run log crew) :
    (∀ before e during after r, log = before ++ e :: during ++ after → e.creation? = some r →
      r.deleteMarker = 0 →
      (∀ e' ∈ during, ∀ w, e'.deletion? = some w → w.2.key ≠ r.key) →
        Status.Life (r.statuses during) ∧
          (after = [] → ∃ row, crew.store.find? r.key = some row ∧
            (r.statuses during).getLast? = some row.status)) ∧
    (∀ entry crew', crew.Step entry crew' →
      (∀ i next, entry.update? = some (i, next) →
        ∃ stored, crew.store.find? next.key = some stored ∧
          stored.status.canBecome next.status = true ∧
            crew'.store.find? next.key = some next.revised) ∧
      ∀ key row, key.deleteMarker = 0 → crew.store.find? key = some row →
        row.status.isTerminal = true → crew'.store.find? key = some row ∨
          ∃ i r now, entry = .asked i (.tombstone r now) (.ok true) ∧ r.key = key ∧
            crew'.store.find? key = none ∧
            { row with deleteMarker := max row.id 1, updateTime := now,
                       version := row.version + 1 } ∈ crew'.store.rows) ∧
    ∀ i e, crew.jobs[i]? = some (.done (.delivery (.error e))) →
      Chart.FailedWith log i e ∨ ∃ c event, Errand.TakenOn errands log (.deliver c event) ∧
        c.codec.encode event.payload = .error e := by
  obtain ⟨chart, hchart, hcharted⟩ := hrun.charted (charted_waiting .empty errands)
  have hlawful : Chart.Lawful Record.Tallied chart :=
    (Chart.lawful_start (fun r hr => absurd hr List.not_mem_nil) herrands).run
      Record.law_tallied hchart hbegan
  obtain ⟨-, hlost⟩ := Chart.lived_run herrands hchart hbegan
  refine ⟨?_, ?_, fun i e => hcharted.blamed hlawful (Chart.blamed_run hchart)⟩
  · intro before e during after r hlog hcreation hmarker hdeletion
    subst hlog
    obtain ⟨mid, hfirst, hsecond⟩ := Chart.Run.split hchart
    obtain ⟨hlives, -⟩ := Chart.lived_run herrands hfirst
      fun errand hmem => hbegan errand (List.mem_append_left _ hmem)
    -- no row is lost, so that only deletions clear the key
    have hcleared : ∀ e' ∈ during, e'.cleared? ≠ some r.key := by
      intro e' he' hcleared
      obtain ⟨i, copy, now, hkey, rfl | rfl⟩ := Entry.of_cleared? hcleared
      · exact hdeletion _ he' (i, copy) rfl hkey
      · exact hlost i copy now (by simp [he'])
    obtain ⟨row, hrow, hlife, hlast⟩ := hlives before e during r rfl hcreation hmarker hcleared
    refine ⟨hlife, fun hafter => ⟨row, ?_, hlast⟩⟩
    subst hafter
    rw [← hcharted.store, hsecond.eq_of_nil]
    exact hrow
  · intro entry crew' hstep
    obtain ⟨chart', hstep', hcharted'⟩ := hstep.charted hcharted
    rw [← hcharted.store, ← hcharted'.store]
    exact ⟨fun i next => hstep'.allowed, fun key row => hlawful.terminal_step hstep'⟩

/-- A row that has failed for good, and is deleted as its event is delivered anew. -/
theorem life_kept_reopened :
    ∃ log crew entry crew' row r now,
      (waiting .empty (List.replicate 2 (.deliver (clerk 0) parcel))).Run log crew ∧
      crew.store.find? ((clerk 0).key parcel.id) = some row ∧ row.status = .failed ∧
      crew.Step entry crew' ∧ entry = .asked 1 (.tombstone r now) (.ok true) ∧
      { row with deleteMarker := max row.id 1, updateTime := now,
                 version := row.version + 1 } ∈ crew'.store.rows := by
  have hplay : ((waiting .empty (List.replicate 2 (.deliver (clerk 0) parcel))).play
      (turns 7 0 (.failed "x") ++ turns 2 1 .ok)).bind (fun p =>
        (p.2.turn (1, .ok)).map fun q =>
          ((p.2.store.find? ((clerk 0).key parcel.id)).map (·.status),
            q.1.deletion?.map (·.1), q.2.store.find? ((clerk 0).key parcel.id))) =
      some (some .failed, some 1, none) := by decide
  obtain ⟨⟨log, crew⟩, hrun, hturn⟩ := Option.bind_eq_some_iff.mp hplay
  obtain ⟨⟨entry, crew'⟩, hstep, heq⟩ := Option.map_eq_some_iff.mp hturn
  obtain ⟨hstatus, hrest⟩ := Prod.mk.inj heq
  obtain ⟨hdeletion, hgone⟩ := Prod.mk.inj hrest
  obtain ⟨row, hfind, hfailed⟩ := Option.map_eq_some_iff.mp hstatus
  obtain ⟨⟨i, copy⟩, hdeletion, hi⟩ := Option.map_eq_some_iff.mp hdeletion
  obtain rfl : i = 1 := hi
  have herrands : ∀ errand ∈ List.replicate 2 (Errand.deliver (clerk 0) parcel),
      errand.FromOutside := fun errand herrand => List.eq_of_mem_replicate herrand ▸ trivial
  have hlife := life_kept herrands
    (fun errand hmem => absurd hmem (not_began_of_play hrun errand)) (run_of_play hrun)
  rcases (hlife.2.1 entry crew' (step_of_turn hstep)).2 _ row rfl hfind (by rw [hfailed]; rfl) with
    hkept | ⟨i, r, now, rfl, -, -, hmem⟩
  · rw [hgone] at hkept
    cases hkept
  · cases hdeletion
    exact ⟨log, crew, _, crew', row, _, now, run_of_play hrun, hfind, hfailed, step_of_turn hstep,
      rfl, hmem⟩

end Crew

end EventRelay
