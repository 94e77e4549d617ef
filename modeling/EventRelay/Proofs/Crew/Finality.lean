import EventRelay.Proofs.Crew.Chart
import EventRelay.Proofs.Crew.Turns

/-!
# Finished rows

A finished row accepts no update, so that only a deletion can take it away, and only first
deliveries delete: rows that they have found failed.  Between finding a row and deleting it the
ledger may move on.  A worker that is late holds the number of a version that a row with another
fate may have reached, and nothing but that number is compared.

`success_stays_iff` says when a successful row is safe, whoever goes on in which order: exactly if
no worker is about to delete a row of its key and version.  As long as the row is safe, deliveries
that look at it skip it.
-/

namespace EventRelay

/-! ### Finished rows -/

theorem Store.Effect.find_terminal {s s' : Store} {entry : Entry} (h : s.Effect entry s')
    {key : Key} {row : Record} (hkey : key.deleteMarker = 0) (hfind : s.find? key = some row)
    (hterminal : row.status.isTerminal = true) :
    s'.find? key = some row ∨ ∃ i r now, r.key = key ∧ r.version = row.version ∧
      (entry = .asked i (.tombstone r now) (.ok true) ∨ entry = .crashed i (.tombstone r now)) := by
  by_cases hcleared : entry.cleared? = some key
  · right
    -- the row that is taken away from under the key is the one that was found
    cases h with
    | unchanged hupdate hcreation hnone =>
      rw [hnone] at hcleared
      cases hcleared
    | created hfree => cases hcleared
    | updated hstored hversion hactive => cases hcleared
    | @deleted i r stored now hstored hversion =>
      have hr : r.key = key := Option.some.inj hcleared
      rw [hr, hfind] at hstored
      obtain rfl := Option.some.inj hstored
      exact ⟨i, r, now, hr, hversion.symm, .inl rfl⟩
    | @lost i r stored now hstored hversion =>
      have hr : r.key = key := Option.some.inj hcleared
      rw [hr, hfind] at hstored
      obtain rfl := Option.some.inj hstored
      exact ⟨i, r, now, hr, hversion.symm, .inr rfl⟩
  · left
    refine h.find_kept hkey hfind (fun w hw hwkey => ?_) hcleared
    obtain rfl := Entry.eq_of_update? hw
    obtain ⟨stored, hstored, -, hactive, -⟩ := h.of_update
    rw [hwkey, hfind] at hstored
    rw [← Option.some.inj hstored, hterminal] at hactive
    cases hactive

/-! ### Workers that are about to delete -/

/-- The next thing that a worker will ask of the ledger is to delete a row. -/
inductive Work.Deletes {α : Type} (r : Record) : Work α → Prop
  | clock {next : Request.now.Reply → Work α} (h : ∀ now, (next now).Deletes r) :
      Deletes r (.ask .now next)
  | tombstone {now : Instant} {next : (Request.tombstone r now).Reply → Work α} :
      Deletes r (.ask (.tombstone r now) next)

def Work.mayDelete {α : Type} : Work α → Bool
  | .ask .now _ | .ask (.tombstone _ _) _ => true
  | _ => false

theorem Work.Deletes.mayDelete {α : Type} {r : Record} {w : Work α} (h : w.Deletes r) :
    w.mayDelete = true := by
  cases h <;> rfl

namespace Post

variable {c : Consumer} {event : Event} {r : Record} {w : Work Report}

theorem deletes_of_reopening (h : w.Follows course Ends (.delivery c event (.reopening r))) :
    w.Deletes r := by
  induction w with
  | done report =>
    cases h with
    | delivery h => cases h
  | crash text =>
    cases h with
    | delivery h => cases h
  | ask request next ih =>
    obtain ⟨post', hmove, -⟩ := h request.answer
    cases hmove with
    | delivery hmove =>
      rcases hmove.of_reopening with rfl | ⟨now, rfl⟩ | ⟨e, hfails⟩
      · refine .clock fun now => ih now ?_
        obtain ⟨post', hmove, hnext⟩ := h now
        cases hmove with
        | delivery hmove =>
          cases hmove with
          | clock htick =>
            cases htick
            exact hnext
          | fault h hs => exact h.elim
      · exact .tombstone
      · exact absurd hfails (request.not_fails_answer e)

end Post

namespace Chart

variable {chart chart' : Chart} {entry : Entry} {log : List Entry}

theorem Step.reopening (h : chart.Step entry chart') {i : Nat} {r : Record} {now : Instant}
    (hentry : entry = .asked i (.tombstone r now) (.ok true) ∨
      entry = .crashed i (.tombstone r now)) :
    ∃ c event, chart.posts[i]? = some (.delivery c event (.reopening r)) := by
  rcases hentry with rfl | rfl
  · cases h with
    | asked hpost h hmove =>
      obtain ⟨c, event, rfl⟩ := Post.reopening_of_moves hmove
      exact ⟨c, event, hpost⟩
  · cases h with
    | crashed hpost h hmove =>
      obtain ⟨post', hmove⟩ := hmove (.ok true)
      obtain ⟨c, event, rfl⟩ := Post.reopening_of_moves hmove
      exact ⟨c, event, hpost⟩

theorem Step.not_asked_ended {i : Nat} {c : Consumer} {event : Event}
    {outcome : Except Error Consumer.Outcome} {request : Request} {reply : request.Reply}
    (h : chart.Step (.asked i request reply) chart') :
    chart.posts[i]? ≠ some (.delivery c event (.ended outcome)) := by
  intro hpost
  obtain ⟨post, post', hpost', -, -, hmove⟩ := h.of_asked
  obtain rfl := Option.some.inj (hpost.symm.trans hpost')
  exact Post.not_moves_ended hmove

theorem Step.looked {i : Nat} {key : Key} {found : Option Record} {row : Record}
    (h : chart.Step (.asked i (.find key) (.ok found)) chart')
    (hfind : chart.store.find? key = some row) (hsuccess : row.status = .success) :
    ∃ c event again, chart.posts[i]? = some (.delivery c event (.seeking again)) ∧
      found = some row ∧
        chart'.posts[i]? = some (.delivery c event (.ended (.ok (.skipped .success)))) := by
  obtain ⟨post, post', hpost, hpost', hreply, hmove⟩ := h.of_asked
  obtain rfl : found = some row := hreply.found.1.trans hfind
  cases hmove with
  | @delivery c event _ _ _ _ hmove =>
    cases hmove with
    | passed hcreated hfailed hretrying =>
      rw [hsuccess] at hpost'
      exact ⟨c, event, _, hpost, rfl, hpost'⟩
    | reopened h => exact absurd (hsuccess.symm.trans h) (by decide)
    | resumed h => exact absurd (hsuccess.symm.trans h) (by decide)
    | met h => exact absurd (hsuccess.symm.trans h) (by decide)
    | fault h hs => cases h
  | publication hmove => cases hmove

/-! ### What late workers have read -/

/-- A worker found a row failed, and unless its key was cleared since it is still there. -/
def FoundFailed (log : List Entry) (s : Store) (i : Nat) (r : Record) : Prop :=
  r.status = .failed ∧ r.key.deleteMarker = 0 ∧ ∃ before since,
    log = before ++ .asked i (.find r.key) (.ok (some r)) :: since ∧
      ((∀ e ∈ since, e.cleared? ≠ some r.key) → s.find? r.key = some r)

/-- What a log tells of workers that look for rows and of those that are about to delete them. -/
structure Read (log : List Entry) (chart : Chart) : Prop where
  known : ∀ i request reply, Entry.asked i request reply ∈ log → i < chart.posts.length
  /-- Looking for the row is the first thing that a delivery does. -/
  first : ∀ (i : Nat) c event again, chart.posts[i]? = some (.delivery c event (.seeking again)) →
    ∀ request reply, Entry.asked i request reply ∉ log
  failed : ∀ (i : Nat) c event r, chart.posts[i]? = some (.delivery c event (.reopening r)) →
    FoundFailed log chart.store i r

theorem read_start (s : Store) (errands : List Errand) : Read [] ⟨s, errands.map Errand.post⟩ where
  known i request reply h := absurd h List.not_mem_nil
  first i c event again h request reply hmem := absurd hmem List.not_mem_nil
  failed i c event r h := by
    obtain ⟨errand, -, hpost⟩ := List.mem_map.mp (List.mem_of_getElem? h)
    exact absurd hpost Errand.post_ne_reopening

theorem Step.keeps_terminal (h : chart.Step entry chart') {key : Key} {row : Record}
    (hkey : key.deleteMarker = 0) (hfind : chart.store.find? key = some row)
    (hterminal : row.status.isTerminal = true) (hcleared : entry.cleared? ≠ some key) :
    chart'.store.find? key = some row := by
  rcases h.effect.find_terminal hkey hfind hterminal with h | ⟨i, r, now, rfl, -, rfl | rfl⟩
  · exact h
  · exact absurd rfl hcleared
  · exact absurd rfl hcleared

theorem FoundFailed.step {i : Nat} {r : Record} (hr : FoundFailed log chart.store i r)
    (h : chart.Step entry chart') : FoundFailed (log ++ [entry]) chart'.store i r := by
  obtain ⟨hfailed, hkey, before, since, rfl, hsince⟩ := hr
  refine ⟨hfailed, hkey, before, since ++ [entry], by simp, fun hcleared => ?_⟩
  refine h.keeps_terminal hkey (hsince fun e he => ?_) (by rw [hfailed]; rfl) ?_
  · exact hcleared e (List.mem_append_left _ he)
  · exact hcleared entry (List.mem_append_right _ (List.mem_singleton_self _))

theorem Read.step (hread : Read log chart) (h : chart.Step entry chart') :
    Read (log ++ [entry]) chart' where
  known i request reply hmem := by
    have hle := h.length_le
    rcases List.mem_append.mp hmem with hmem | hmem
    · exact Nat.lt_of_lt_of_le (hread.known i request reply hmem) hle
    · rw [List.mem_singleton] at hmem
      subst hmem
      cases h with
      | asked hpost h hmove =>
        rw [List.length_set]
        exact (List.getElem?_eq_some_iff.mp hpost).1
  first i c event again hpost request reply hmem := by
    rw [List.mem_append, List.mem_singleton] at hmem
    cases h.came hpost with
    | stayed hold hentry =>
      rcases hmem with hmem | hmem
      · exact hread.first i c event again hold request reply hmem
      · exact hentry request reply hmem.symm
    | moved hentry hold hreply hmove =>
      cases hmove with
      | delivery hmove => exact Consumer.not_moves_seeking hmove
    | joined hpost hentry hj =>
      rcases hmem with hmem | rfl
      · exact absurd (hread.known i request reply hmem) (by omega)
      · cases hentry
    | handed hpost hentry hsel hr hj =>
      rcases hmem with hmem | rfl
      · exact absurd (hread.known i request reply hmem) (by omega)
      · cases hentry
    | emptied hpost => cases hpost
    | crashed hpost => cases hpost
  failed i c event r hpost := by
    rcases h.to_reopening hpost with hold | ⟨hfailed, hkey, rfl, -, hfind⟩
    · exact (hread.failed i c event r hold).step h
    · exact ⟨hfailed, hkey, log, [], rfl, fun _ => hfind⟩

theorem Run.read {s : Store} {errands : List Errand}
    (h : (Chart.mk s (errands.map Errand.post)).Run log chart) : Read log chart := by
  induction h with
  | start => exact read_start s errands
  | step prior hstep ih => exact ih.step hstep

/-! ### Rows that are safe -/

/-- A successful row that nobody is about to delete, and what has become of the deliveries that
looked at it in `log`, after what was done in `past`. -/
structure Safe (key : Key) (row : Record) (past log : List Entry) (chart : Chart) : Prop where
  find : chart.store.find? key = some row
  others : ∀ (i : Nat) c event r, chart.posts[i]? = some (.delivery c event (.reopening r)) →
    r.key = key → r.version ≠ row.version
  late : ∀ i found, Entry.asked i (.find key) (.ok found) ∈ log → found = some row ∧
    (∃ c event, chart.posts[i]? = some (.delivery c event (.ended (.ok (.skipped .success))))) ∧
      ∀ slot event verdict, Entry.asked i (.handle slot event) verdict ∉ past ++ log

theorem Safe.step {key : Key} {row : Record} {past : List Entry} (hkey : key.deleteMarker = 0)
    (hsuccess : row.status = .success) (hsafe : Safe key row past log chart)
    (hread : Read (past ++ log) chart) (h : chart.Step entry chart') :
    Safe key row past (log ++ [entry]) chart' := by
  have hfind : chart'.store.find? key = some row := by
    rcases h.effect.find_terminal hkey hsafe.find (by rw [hsuccess]; rfl) with
      h' | ⟨i, r, now, hr, hversion, hentry⟩
    · exact h'
    · obtain ⟨c, event, hpost⟩ := h.reopening hentry
      exact absurd hversion (hsafe.others i c event r hpost hr)
  refine ⟨hfind, ?_, ?_⟩
  · intro i c event r hpost hr
    rcases h.to_reopening hpost with hold | ⟨hfailed, -, -, hfound, -⟩
    · exact hsafe.others i c event r hold hr
    · -- a worker that looks under the key now finds the successful row
      rw [hr, hsafe.find] at hfound
      rw [← Option.some.inj hfound, hsuccess] at hfailed
      cases hfailed
  · intro i found hmem
    rcases List.mem_append.mp hmem with hmem | hmem
    · obtain ⟨hfound, ⟨c, event, hpost⟩, hhandle⟩ := hsafe.late i found hmem
      refine ⟨hfound, ⟨c, event, h.ended hpost⟩, fun slot event' verdict hmem => ?_⟩
      rw [← List.append_assoc, List.mem_append, List.mem_singleton] at hmem
      rcases hmem with hmem | rfl
      · exact hhandle slot event' verdict hmem
      · exact absurd hpost h.not_asked_ended
    · rw [List.mem_singleton] at hmem
      subst hmem
      obtain ⟨c, event, again, hpost, rfl, hpost'⟩ := h.looked hsafe.find hsuccess
      refine ⟨rfl, ⟨c, event, hpost'⟩, fun slot event' verdict hmem => ?_⟩
      rw [← List.append_assoc, List.mem_append, List.mem_singleton] at hmem
      rcases hmem with hmem | hmem
      · exact hread.first i c event again hpost _ _ hmem
      · cases hmem

theorem Safe.run {key : Key} {row : Record} {past : List Entry} (hkey : key.deleteMarker = 0)
    (hsuccess : row.status = .success) (hsafe : Safe key row past [] chart)
    (hread : Read past chart) (h : chart.Run log chart') : Safe key row past log chart' := by
  have hboth : Safe key row past log chart' ∧ Read (past ++ log) chart' := by
    induction h with
    | start => exact ⟨hsafe, (List.append_nil past).symm ▸ hread⟩
    | step prior hstep ih =>
      refine ⟨ih.1.step hkey hsuccess ih.2 hstep, ?_⟩
      rw [← List.append_assoc]
      exact ih.2.step hstep
  exact hboth.1

end Chart

namespace Crew

theorem exists_clearing {w : Work Report} {r : Record} (hw : w.Deletes r) {crew : Crew} {i : Nat}
    (hjob : crew.jobs[i]? = some w) (hkey : r.key.deleteMarker = 0) {row : Record}
    (hfind : crew.store.find? r.key = some row) (hversion : row.version = r.version) :
    ∃ log crew', crew.Run log crew' ∧ crew'.store.find? r.key = none := by
  have hlt := (List.getElem?_eq_some_iff.mp hjob).1
  induction hw generalizing crew with
  | @clock next hnext ih =>
    let now : Instant := default
    let crew₁ : Crew := ⟨crew.store, crew.jobs.set i (next now)⟩
    have hstep : crew.Step (.asked i .now now) crew₁ := .asked hjob (.inl rfl)
    have hjob₁ : crew₁.jobs[i]? = some (next now) := List.getElem?_set_self hlt
    have hlt₁ : i < crew₁.jobs.length := (List.getElem?_eq_some_iff.mp hjob₁).1
    obtain ⟨log, crew', hrun, hcleared⟩ := ih now hjob₁ hfind hlt₁
    exact ⟨_, crew', (Run.start.step hstep).trans hrun, hcleared⟩
  | @tombstone now next =>
    obtain ⟨done, s', htombstone⟩ : ∃ done s', crew.store.tombstone r now = (done, s') :=
      ⟨_, _, rfl⟩
    rcases Store.tombstone_cases htombstone with
      ⟨stored, hstored, -, rfl, rfl⟩ | ⟨-, -, hother⟩ | ⟨stored, o, -, -, rfl, -, rfl⟩
    · refine ⟨_, _, Run.start.step (.asked hjob (.inl ⟨true, htombstone, rfl⟩)), ?_⟩
      show (crew.store.refile _ _).find? r.key = none
      rw [Store.find?_refile, if_neg (stored.key_deleted_ne now hkey),
        if_pos (Store.key_of_find? hstored)]
    · exact absurd hversion (hother row hfind)
    · refine ⟨_, _, Run.start.step (.crashed hjob htombstone), ?_⟩
      show (crew.store.erase r.key).find? r.key = none
      rw [Store.find?_erase, if_pos rfl]

/-- **When success is final.**  Rows that are deleted were found failed by who deletes them, and are
still so unless their key was cleared in between.  A successful row stays, and is skipped by every
delivery that looks at it from now on, exactly if nobody is about to delete a row of its key and
version. -/
theorem success_stays_iff {s : Store} {errands : List Errand} {log : List Entry} {crew : Crew}
    (h : (waiting s errands).Run log crew) :
    (∀ entry crew' i r, crew.Step entry crew' → entry.deletion? = some (i, r) →
      r.status = .failed ∧ ∃ before since,
        log = before ++ .asked i (.find r.key) (.ok (some r)) :: since ∧
          ((∀ e ∈ since, e.cleared? ≠ some r.key) → crew.store.find? r.key = some r)) ∧
    ∀ key row, key.deleteMarker = 0 → crew.store.find? key = some row → row.status = .success →
      ((∀ later crew', crew.Run later crew' → crew'.store.find? key = some row ∧
          ∀ i found, Entry.asked i (.find key) (.ok found) ∈ later → found = some row ∧
            crew'.jobs[i]? = some (.done (.delivery (.ok (.skipped .success)))) ∧
              ∀ slot event verdict, Entry.asked i (.handle slot event) verdict ∉ log ++ later) ↔
        ∀ w ∈ crew.jobs, ∀ r, w.Deletes r → r.key = key → r.version ≠ row.version) := by
  obtain ⟨chart, hchart, hcharted⟩ := h.charted (charted_waiting s errands)
  have hread := hchart.read
  constructor
  · intro entry crew' i r hstep hentry
    obtain ⟨now, rfl⟩ := Entry.eq_of_deletion? hentry
    obtain ⟨chart', hstep', -⟩ := hstep.charted hcharted
    obtain ⟨c, event, hpost⟩ := hstep'.reopening (.inl rfl)
    obtain ⟨hfailed, -, before, since, hlog, hsince⟩ := hread.failed i c event r hpost
    rw [hcharted.store] at hsince
    exact ⟨hfailed, before, since, hlog, hsince⟩
  · intro key row hkey hfind hsuccess
    constructor
    · intro hstays w hw r hdeletes hr hversion
      obtain ⟨i, hjob⟩ := List.getElem?_of_mem hw
      obtain ⟨later, crew', hrun, hcleared⟩ :=
        exists_clearing hdeletes hjob (hr ▸ hkey) (hr ▸ hfind) hversion.symm
      have hkept := (hstays later crew' hrun).1
      rw [← hr, hcleared] at hkept
      cases hkept
    · intro hothers later crew' hrun
      have hsafe : Chart.Safe key row log [] chart := by
        refine ⟨by rw [hcharted.store]; exact hfind, fun i c event r hpost hr => ?_, ?_⟩
        · obtain ⟨w, hjob, hfollows⟩ := hcharted.work hpost
          exact hothers w (List.mem_of_getElem? hjob) r (Post.deletes_of_reopening hfollows) hr
        · exact fun _ _ hmem => absurd hmem List.not_mem_nil
      obtain ⟨chart', hrun', hcharted'⟩ := hrun.charted hcharted
      have hsafe' := hsafe.run hkey hsuccess hread hrun'
      refine ⟨by rw [← hcharted'.store]; exact hsafe'.find, fun i found hmem => ?_⟩
      obtain ⟨hfound, ⟨c, event, hpost⟩, hhandle⟩ := hsafe'.late i found hmem
      obtain ⟨w, hjob, hfollows⟩ := hcharted'.work hpost
      refine ⟨hfound, ?_, hhandle⟩
      rw [hjob, Post.done_of_ended hfollows]

/-- A successful row stays when another worker has yet to look at it. -/
theorem success_stays_skipped :
    ∃ log crew row,
      (waiting .empty (List.replicate 2 (.deliver (clerk 0) parcel))).Run log crew ∧
      crew.store.find? ((clerk 0).key parcel.id) = some row ∧ row.status = .success ∧
        ∀ later crew', crew.Run later crew' →
          crew'.store.find? ((clerk 0).key parcel.id) = some row := by
  have hplay : ((waiting .empty (List.replicate 2 (.deliver (clerk 0) parcel))).play
      (turns 7 0 .ok)).map (fun p => ((p.2.store.find? ((clerk 0).key parcel.id)).map (·.status),
        p.2.jobs.all fun w => !w.mayDelete)) = some (some .success, true) := by decide
  obtain ⟨⟨log, crew⟩, hrun, heq⟩ := Option.map_eq_some_iff.mp hplay
  obtain ⟨hstatus, hjobs⟩ := Prod.mk.inj heq
  obtain ⟨row, hfind, hsuccess⟩ := Option.map_eq_some_iff.mp hstatus
  refine ⟨log, crew, row, run_of_play hrun, hfind, hsuccess, fun later crew' hlater => ?_⟩
  refine ((((success_stays_iff (run_of_play hrun)).2 _ row rfl hfind hsuccess).mpr ?_)
    later crew' hlater).1
  intro w hw r hdeletes
  have := List.all_eq_true.mp hjobs w hw
  rw [hdeletes.mayDelete] at this
  cases this

/-- **A late deletion.**  Two workers find the row of an event failed.  The second one deletes it,
creates another one and succeeds.  The first one then deletes the successful row. -/
theorem success_deleted :
    ∃ log crew entry crew' r,
      (waiting .empty (List.replicate 3 (.deliver (clerk 0) parcel))).Run log crew ∧
      (crew.store.find? ((clerk 0).key parcel.id)).map (·.status) = some .success ∧
      crew.Step entry crew' ∧ entry.deletion? = some (1, r) ∧
      crew'.store.find? ((clerk 0).key parcel.id) = none := by
  have hplay : ((waiting .empty (List.replicate 3 (.deliver (clerk 0) parcel))).play
      (turns 7 0 (.failed "x") ++ turns 2 1 .ok ++ turns 9 2 .ok)).bind (fun p =>
        (p.2.turn (1, .ok)).map fun q =>
          ((p.2.store.find? ((clerk 0).key parcel.id)).map (·.status),
            q.1.deletion?.map (·.1), q.2.store.find? ((clerk 0).key parcel.id))) =
      some (some .success, some 1, none) := by decide
  obtain ⟨⟨log, crew⟩, hrun, hturn⟩ := Option.bind_eq_some_iff.mp hplay
  obtain ⟨⟨entry, crew'⟩, hstep, heq⟩ := Option.map_eq_some_iff.mp hturn
  obtain ⟨hstatus, hrest⟩ := Prod.mk.inj heq
  obtain ⟨hdeletion, hgone⟩ := Prod.mk.inj hrest
  obtain ⟨⟨i, r⟩, hdeletion, hi⟩ := Option.map_eq_some_iff.mp hdeletion
  obtain rfl : i = 1 := hi
  exact ⟨log, crew, entry, crew', r, run_of_play hrun, hstatus, step_of_turn hstep, hdeletion,
    hgone⟩

end Crew

end EventRelay
