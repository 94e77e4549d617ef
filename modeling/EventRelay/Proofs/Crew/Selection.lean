import EventRelay.Proofs.Crew.Chart
import EventRelay.Proofs.Crew.Turns
import EventRelay.Proofs.Log

/-!
# Rows that were selected more than once

Several replayers have selected one row, each while it was due, and now replay it in any order.  A
replay does not go on from the row that was selected.  It makes the event anew and looks under its
key again, and so a replay that comes late may find the row with its next retry planned, and try it
at once.

`transition_once_iff` says when of all the replays a single one changes the row: exactly if no
replay that looked after an accepted write has a write of its own accepted.  The accepted writes
have the versions that follow the selected one, without a gap (`Replays.order`), and a write of a
later version was made by a replay that looked late (`Replays.late`).
-/

namespace EventRelay

/-- A worker looked under a key after a write had been accepted. -/
def LooksLate (key : Key) (log : List Entry) (i : Nat) : Prop :=
  ∃ before found since, log = before ++ .asked i (.find key) (.ok found) :: since ∧
    writes before ≠ []

theorem looksLate_concat {key : Key} {log : List Entry} {e : Entry} {i : Nat} :
    LooksLate key (log ++ [e]) i ↔
      LooksLate key log i ∨
        (∃ found, e = .asked i (.find key) (.ok found)) ∧ writes log ≠ [] := by
  constructor
  · rintro ⟨before, found, since, hlog, hbefore⟩
    rcases concat_eq_append_cons.mp hlog with ⟨-, rfl, he⟩ | ⟨since', -, hlog'⟩
    · exact .inr ⟨⟨found, he.symm⟩, hbefore⟩
    · exact .inl ⟨before, found, since', hlog', hbefore⟩
  · rintro (⟨before, found, since, rfl, hbefore⟩ | ⟨⟨found, rfl⟩, hlog⟩)
    · exact ⟨before, found, since ++ [e], by simp, hbefore⟩
    · exact ⟨log, found, [], rfl, hlog⟩

def Faulted (log : List Entry) (i : Nat) : Prop :=
  ∃ (request : Request) (reply : request.Reply) (e : Error),
    Entry.asked i request reply ∈ log ∧ request.Fails reply e

/-! ### Replays of one row -/

section Replays

variable {selected : Record} {log : List Entry} {chart chart' : Chart} {entry : Entry}

def Replaying (selected : Record) (log : List Entry) (i : Nat) : Post → Prop
  | .delivery c event (.seeking again) =>
    again = true ∧ c.key event.id = selected.key ∧ ∀ r, (i, r) ∉ writes log
  | .delivery _ _ (.holding r _) =>
    r.key = selected.key ∧ r.status = .retrying ∧ (∀ r', (i, r') ∉ writes log) ∧
      (selected.version < r.version → LooksLate selected.key log i) ∧
        (r.retryTimes : Int) ≤ selected.retryTimes + (r.version - selected.version)
  | .delivery _ _ (.notifying _) => ∃ r, (i, r) ∈ writes log
  | .delivery _ _ (.ended outcome) =>
    (∃ r, (i, r) ∈ writes log) ∨ (∃ status, outcome = .ok (.skipped status)) ∨
      outcome = .ok .conflict ∨ Faulted log i
  | .crashed => True
  | _ => False

/-- A row that is being replayed, and its replays. -/
structure Replays (selected : Record) (log : List Entry) (chart : Chart) : Prop where
  row : ∃ row, chart.store.find? selected.key = some row ∧ row.status ≠ .created ∧
    row.version = selected.version + (writes log).length ∧
      row.retryTimes ≤ selected.retryTimes + (writes log).length
  posts : ∀ (i : Nat) post, chart.posts[i]? = some post → Replaying selected log i post
  keys : ∀ w ∈ writes log, w.2.key = selected.key
  /-- The versions of the accepted writes follow each other. -/
  order : ∀ (k : Nat) w, (writes log)[k]? = some w → w.2.version = selected.version + k
  /-- Later versions are written by replays that looked late, -/
  late : ∀ w ∈ writes log, selected.version < w.2.version → LooksLate selected.key log w.1
  /-- which is later than the write of somebody else. -/
  others : ∀ i, LooksLate selected.key log i → ∃ w ∈ writes log, w.1 ≠ i

theorem Replaying.mono {i : Nat} {post : Post} (h : Replaying selected log i post)
    (hentry : ∀ r, entry.update? ≠ some (i, r)) : Replaying selected (log ++ [entry]) i post := by
  have hwrites : ∀ r, (i, r) ∈ writes (log ++ [entry]) ↔ (i, r) ∈ writes log := by
    intro r
    rw [writes_concat, List.mem_append, Option.mem_toList]
    exact or_iff_left (hentry r)
  have hlate : LooksLate selected.key log i → LooksLate selected.key (log ++ [entry]) i :=
    fun h => looksLate_concat.mpr (.inl h)
  have hfault : Faulted log i → Faulted (log ++ [entry]) i := by
    rintro ⟨request, reply, e, hmem, hfails⟩
    exact ⟨request, reply, e, List.mem_append_left _ hmem, hfails⟩
  unfold Replaying at h ⊢
  split at h
  · simp only [hwrites]
    exact h
  · simp only [hwrites]
    exact ⟨h.1, h.2.1, h.2.2.1, fun hv => hlate (h.2.2.2.1 hv), h.2.2.2.2⟩
  · simp only [hwrites]
    exact h
  · simp only [hwrites]
    rcases h with h | h | h | h
    · exact .inl h
    · exact .inr (.inl h)
    · exact .inr (.inr (.inl h))
    · exact .inr (.inr (.inr (hfault h)))
  · trivial
  · exact h

theorem Replays.pass (h : Replays selected log chart) (hupdate : entry.update? = none)
    (hstore : chart'.store = chart.store)
    (hlook : ∀ i found, entry = .asked i (.find selected.key) (.ok found) →
      ∀ r, (i, r) ∉ writes log)
    (hposts : ∀ (i : Nat) post, chart'.posts[i]? = some post → chart.posts[i]? = some post ∨
      Replaying selected (log ++ [entry]) i post) :
    Replays selected (log ++ [entry]) chart' := by
  have hwrites : writes (log ++ [entry]) = writes log := by
    rw [writes_concat, hupdate]
    exact List.append_nil _
  refine ⟨?_, ?_, ?_, ?_, ?_, ?_⟩
  · rw [hwrites, hstore]
    exact h.row
  · intro i post hpost
    rcases hposts i post hpost with hold | hnew
    · exact (h.posts i post hold).mono fun r hr => by rw [hupdate] at hr; cases hr
    · exact hnew
  · rw [hwrites]
    exact h.keys
  · rw [hwrites]
    exact h.order
  · rw [hwrites]
    exact fun w hw hv => looksLate_concat.mpr (.inl (h.late w hw hv))
  · intro i hlate
    rw [hwrites]
    rcases looksLate_concat.mp hlate with hlate | ⟨⟨found, hentry⟩, hne⟩
    · exact h.others i hlate
    · obtain ⟨w, hw⟩ := List.exists_mem_of_ne_nil _ hne
      refine ⟨w, hw, fun hi => ?_⟩
      exact hlook i found hentry w.2 (hi ▸ hw)

theorem Replays.accept (h : Replays selected log chart) {i : Nat} {next : Record}
    (hnext : entry.update? = some (i, next)) (hkey : next.key = selected.key)
    (hversion : next.version = selected.version + (writes log).length)
    (hstatus : next.status ≠ .created)
    (hretry : next.retryTimes ≤ selected.retryTimes + ((writes log).length + 1))
    (hlate : selected.version < next.version → LooksLate selected.key log i)
    (hstore : chart'.store = chart.store.replace next.revised)
    (hposts : ∀ (j : Nat) post, chart'.posts[j]? = some post →
      (j ≠ i ∧ chart.posts[j]? = some post) ∨ Replaying selected (log ++ [entry]) j post) :
    Replays selected (log ++ [entry]) chart' := by
  have hwrites : writes (log ++ [entry]) = writes log ++ [(i, next)] := by
    rw [writes_concat, hnext]
    rfl
  have hlength : (writes (log ++ [entry])).length = (writes log).length + 1 := by
    rw [hwrites, List.length_append, List.length_singleton]
  have hlook : ∀ j, LooksLate selected.key (log ++ [entry]) j ↔ LooksLate selected.key log j := by
    intro j
    rw [looksLate_concat]
    refine or_iff_left ?_
    rintro ⟨⟨found, rfl⟩, -⟩
    cases hnext
  refine ⟨?_, ?_, ?_, ?_, ?_, ?_⟩
  · obtain ⟨row, hfind, -⟩ := h.row
    refine ⟨next.revised, ?_, hstatus, ?_, ?_⟩
    · rw [hstore]
      exact Store.find?_replace_of_eq hfind hkey
    · rw [hlength, Record.version_revised, hversion]
      push_cast
      omega
    · rw [hlength]
      exact hretry
  · intro j post hpost
    rcases hposts j post hpost with ⟨hj, hold⟩ | hnew
    · refine (h.posts j post hold).mono fun r hr => ?_
      rw [hnext] at hr
      cases hr
      exact hj rfl
    · exact hnew
  · intro w hw
    rw [hwrites, List.mem_append, List.mem_singleton] at hw
    rcases hw with hw | rfl
    · exact h.keys w hw
    · exact hkey
  · intro k w hk
    rw [hwrites] at hk
    by_cases hlt : k < (writes log).length
    · rw [List.getElem?_append_left hlt] at hk
      exact h.order k w hk
    · rw [List.getElem?_append_right (Nat.le_of_not_lt hlt), List.getElem?_singleton] at hk
      split at hk
      · cases hk
        rw [hversion]
        have : k = (writes log).length := by omega
        rw [this]
      · cases hk
  · intro w hw hv
    rw [hlook]
    rw [hwrites, List.mem_append, List.mem_singleton] at hw
    rcases hw with hw | rfl
    · exact h.late w hw hv
    · exact hlate hv
  · intro j hj
    obtain ⟨w, hw, hne⟩ := h.others j ((hlook j).mp hj)
    exact ⟨w, by rw [hwrites]; exact List.mem_append_left _ hw, hne⟩

theorem Replays.goOn (h : Replays selected log chart) {i : Nat} {s' : Store} {post : Post}
    {request : Request} {reply : request.Reply} (hreply : chart.store.Replies request reply s')
    (hsilent : (Entry.asked i request reply).update? = none ∧
      (Entry.asked i request reply).creation? = none ∧
        (Entry.asked i request reply).cleared? = none)
    (hlook : ∀ found, Entry.asked i request reply = .asked i (.find selected.key) (.ok found) →
      ∀ r, (i, r) ∉ writes log)
    (hpost : Replaying selected (log ++ [.asked i request reply]) i post) :
    Replays selected (log ++ [.asked i request reply]) ⟨s', chart.posts.set i post⟩ := by
  obtain ⟨hupdate, hcreation, hcleared⟩ := hsilent
  refine h.pass hupdate (hreply.effect.eq hupdate hcreation hcleared) ?_ fun j post' hpost' => ?_
  · intro j found hentry
    have hj : i = j := by cases hentry; rfl
    subst hj
    exact hlook found hentry
  · rcases getElem?_set_cases hpost' with ⟨rfl, rfl⟩ | ⟨-, hold⟩
    · exact .inr hpost
    · exact .inl hold

theorem Replays.settle (h : Replays selected log chart) {i : Nat} {c : Consumer} {event : Event}
    {r next : Record} {attempt : Consumer.Attempt} {t : Transition} {outcome : Consumer.Outcome}
    {now : Instant} {s' : Store} {post : Post}
    (hold : Replaying selected log i (.delivery c event (.holding r attempt)))
    (hsettles : Consumer.Settles c event r attempt t outcome)
    (hnext : r.transition t now = .ok next)
    (hreply : chart.store.Replies (.update next) (.ok true) s')
    (hpost : Replaying selected (log ++ [.asked i (.update next) (.ok true)]) i post) :
    Replays selected (log ++ [.asked i (.update next) (.ok true)])
      ⟨s', chart.posts.set i post⟩ := by
  obtain ⟨hkey, hstatus, -, hlate, hretry⟩ := hold
  obtain ⟨row, hrow, -, hrowversion, -⟩ := h.row
  have hnextkey : next.key = selected.key := (Record.key_transition hnext).trans hkey
  have hnextversion : next.version = r.version := Record.version_transition hnext
  obtain ⟨stored, hfind, hversion, -, rfl⟩ := (hreply.effect (i := i)).of_update
  rw [hnextkey, hrow] at hfind
  obtain rfl := Option.some.inj hfind
  refine h.accept rfl hnextkey (hversion.symm.trans hrowversion)
    (Record.status_ne_created_of_transition hnext) ?_ (fun hv => hlate (hnextversion ▸ hv)) rfl ?_
  · have hcount : next.retryTimes ≤ r.retryTimes + 1 := by
      rcases hsettles.writes hnext with ⟨hn, -⟩ | ⟨hn, -⟩
      · omega
      · omega
    omega
  · intro j post' hpost'
    rcases getElem?_set_cases hpost' with ⟨rfl, rfl⟩ | ⟨hij, hold⟩
    · exact .inr hpost
    · exact .inl ⟨Ne.symm hij, hold⟩

theorem Replays.move (h : Replays selected log chart) {i : Nat} {c : Consumer} {event : Event}
    {stage stage' : Consumer.Stage} {s' : Store} {request : Request} {reply : request.Reply}
    (hold : Replaying selected log i (.delivery c event stage))
    (hreply : chart.store.Replies request reply s')
    (hmove : Consumer.Moves c event stage request reply stage') :
    Replays selected (log ++ [.asked i request reply])
      ⟨s', chart.posts.set i (.delivery c event stage')⟩ := by
  -- what is known of the worker is still known after a move that is no write
  have hsame : (Entry.asked i request reply).update? = none →
      Replaying selected (log ++ [.asked i request reply]) i (.delivery c event stage) :=
    fun hupdate => hold.mono fun r hr => by rw [hupdate] at hr; cases hr
  obtain ⟨row, hrow, hrowstatus, hrowversion, hrowretry⟩ := h.row
  cases hmove with
  | missing =>
    have hfound := hreply.found.1
    rw [hold.2.1, hrow] at hfound
    cases hfound
  | unknown => cases hold.1
  | reopened hfailed => cases hold.1
  | @resumed r hretrying =>
    obtain ⟨-, hkey, hnone⟩ := hold
    rw [hkey] at hreply ⊢
    have hfound := hreply.found.1
    rw [hrow] at hfound
    obtain rfl := Option.some.inj hfound
    refine h.goOn hreply ⟨rfl, rfl, rfl⟩ (fun _ _ => hnone) ?_
    refine ⟨Store.key_of_find? hrow, hretrying, ?_, fun hv => ?_, by omega⟩
    · rw [writes_concat]
      exact fun r' hr' => hnone r' (by simpa [Entry.update?] using hr')
    · refine looksLate_concat.mpr (.inr ⟨⟨_, rfl⟩, fun hnil => ?_⟩)
      rw [hnil] at hrowversion
      simp at hrowversion
      omega
  | met hcreated =>
    have hfound := hreply.found.1
    rw [hold.2.1, hrow] at hfound
    rw [Option.some.inj hfound] at hcreated
    exact absurd hcreated hrowstatus
  | passed hcreated hfailed hretrying =>
    exact h.goOn hreply ⟨rfl, rfl, rfl⟩ (fun _ _ => hold.2.2) (.inr (.inl ⟨_, rfl⟩))
  | created | second | beaten | freed | kept | claimed | unclaimed => exact hold.elim
  | questioned | handled =>
    exact h.goOn hreply ⟨rfl, rfl, rfl⟩ (fun _ h => by cases h) (hsame rfl)
  | concluded hsettles hfailed hnext =>
    exact h.settle hold hsettles hnext hreply (.inl ⟨_, mem_writes_concat⟩)
  | gaveUp hsettles hnext =>
    exact h.settle hold hsettles hnext hreply ⟨_, mem_writes_concat⟩
  | refused hsettles hnext =>
    exact h.goOn hreply ⟨rfl, rfl, rfl⟩ (fun _ h => by cases h) (.inr (.inr (.inl rfl)))
  | consulted | notified =>
    exact h.goOn hreply ⟨rfl, rfl, rfl⟩ (fun _ h => by cases h) (hsame rfl)
  | clock htick =>
    refine h.goOn hreply ⟨rfl, rfl, rfl⟩ (fun _ h => by cases h) ?_
    have hkept := hsame rfl
    rcases Consumer.Stage.tick_cases htick with ⟨r, verdict, rfl, rfl⟩ | rfl
    · exact hkept
    · exact hkept
  | @fault s request reply e hfails hs =>
    refine h.goOn hreply (hfails.silent i) (fun found hentry => ?_) ?_
    · cases hentry
      cases hfails
    · refine .inr (.inr (.inr ⟨request, reply, e, ?_, hfails⟩))
      exact List.mem_append_right _ (List.mem_singleton_self _)

theorem Replays.step (h : Replays selected log chart) (hstep : chart.Step entry chart')
    (hbegan : ∀ errand, entry ≠ .began errand) : Replays selected (log ++ [entry]) chart' := by
  cases hstep with
  | began errand => exact absurd rfl (hbegan errand)
  | handedOut hpost => exact (h.posts _ _ hpost).elim
  | @asked s s' posts i post post' request reply hpost hreply hmove =>
    have hold := h.posts i post hpost
    cases hmove with
    | delivery hmove => exact h.move hold hreply hmove
    | publication hmove => exact hold.elim
    | clock => exact hold.elim
    | selected => exact hold.elim
  | @crashed s s' posts i post request o hpost hover hmove =>
    have hold := h.posts i post hpost
    have hstore : s' = s := by
      rcases hover.request_cases with ⟨r, -, hs⟩ | ⟨r, now, rfl⟩
      · exact hs
      · -- a deletion is not among what these workers ask for
        obtain ⟨post', hmove⟩ := hmove (.ok true)
        obtain ⟨c, event, rfl⟩ := Post.reopening_of_moves hmove
        exact hold.elim
    refine h.pass rfl hstore (fun _ _ h => by cases h) fun j post' hpost' => ?_
    rcases getElem?_set_cases hpost' with ⟨rfl, rfl⟩ | ⟨-, hold⟩
    · exact .inr trivial
    · exact .inl hold

theorem Replays.run (h : Replays selected [] chart) (hrun : chart.Run log chart')
    (hbegan : ∀ errand, Entry.began errand ∉ log) : Replays selected log chart' := by
  induction hrun with
  | start => exact h
  | step prior hstep ih =>
    refine (ih fun errand hmem => ?_).step hstep fun errand hentry => ?_
    · exact hbegan errand (List.mem_append_left _ hmem)
    · exact hbegan errand (List.mem_append_right _ (List.mem_singleton.mpr hentry.symm))

theorem replays_start {s : Store} {ps : List Replayer} {now : Instant}
    (hfind : s.find? selected.key = some selected) (hdue : selected.isDue now = true)
    (howner : ∀ p ∈ ps, p.consumer.config.ownerGroup = selected.ownerGroup) :
    Replays selected [] ⟨s, (ps.map fun p => Errand.replay p selected).map Errand.post⟩ := by
  obtain ⟨hmarker, haction, hretrying, -⟩ := Record.isDue_iff.mp hdue
  refine ⟨⟨selected, hfind, ?_, ?_, ?_⟩, ?_, ?_, ?_, ?_, ?_⟩
  · rw [hretrying]
    decide
  · exact (Int.add_zero _).symm
  · exact Nat.le_refl _
  · intro i post hpost
    rw [List.map_map] at hpost
    obtain ⟨p, hp, rfl⟩ := List.mem_map.mp (List.mem_of_getElem? hpost)
    show Replaying selected [] i (Errand.replay p selected).post
    cases hrebuild : p.rebuild selected with
    | ok event =>
      rw [Errand.post_replay hrebuild]
      refine ⟨rfl, ?_, fun r hr => absurd hr List.not_mem_nil⟩
      rw [(Replayer.rebuild_eq_ok hrebuild).1]
      simp [Consumer.key, Key.active, Record.key, howner p hp, hmarker, haction]
    | error e =>
      rw [Errand.post_replay_error hrebuild]
      exact ⟨rfl, hretrying, fun r hr => absurd hr List.not_mem_nil,
        fun hv => absurd hv (Int.lt_irrefl _), by omega⟩
  · exact fun w hw => absurd hw List.not_mem_nil
  · intro k w hk
    cases hk
  · exact fun w hw => absurd hw List.not_mem_nil
  · rintro i ⟨before, found, since, hlog, -⟩
    cases before <;> cases hlog

/-! ### The exact condition -/

theorem Replays.length_le_one_iff (h : Replays selected log chart) :
    (writes log).length ≤ 1 ↔
      ∀ i, LooksLate selected.key log i → ∀ r, (i, r) ∉ writes log := by
  constructor
  · intro hlength i hlate r hmem
    obtain ⟨w, hw, hne⟩ := h.others i hlate
    obtain ⟨w', hw'⟩ : ∃ w', writes log = [w'] := by
      match hwrites : writes log with
      | [] =>
        rw [hwrites] at hw
        exact absurd hw List.not_mem_nil
      | [w'] => exact ⟨w', rfl⟩
      | _ :: _ :: _ =>
        rw [hwrites] at hlength
        simp at hlength
    rw [hw', List.mem_singleton] at hw hmem
    rw [hw, ← hmem] at hne
    exact hne rfl
  · intro hlate
    by_contra hlength
    have hlt : 1 < (writes log).length := by omega
    have hsecond := h.order 1 _ (List.getElem?_eq_getElem hlt)
    have hmem : (writes log)[1] ∈ writes log := List.getElem_mem hlt
    exact hlate _ (h.late _ hmem (by omega)) _ hmem

theorem Replays.report (h : Replays selected log chart) {crew : Crew}
    (hcharted : crew.Charted chart) {i : Nat} {report : Report}
    (hjob : crew.jobs[i]? = some (.done report)) :
    (∃ r, (i, r) ∈ writes log) ∨ (∃ status, report = .delivery (.ok (.skipped status))) ∨
      report = .delivery (.ok .conflict) ∨ Faulted log i := by
  obtain ⟨post, hpost, hends⟩ := hcharted.post hjob
  have hknown := h.posts i post hpost
  cases hends with
  | delivery hends =>
    cases hends with
    | ended =>
      rcases hknown with hknown | ⟨status, rfl⟩ | rfl | hknown
      · exact .inl hknown
      · exact .inr (.inl ⟨status, rfl⟩)
      · exact .inr (.inr (.inl rfl))
      · exact .inr (.inr (.inr hknown))
    | unwritable => exact hknown.elim
    | barredJoin => exact hknown.elim
    | @barred r _ t now _ hbarred =>
      obtain ⟨next, hnext⟩ := Record.transition_of_retrying hknown.2.1 t now
      rw [hnext] at hbarred
      cases hbarred
    | notified => exact .inl hknown
  | publication => exact hknown.elim
  | selected => exact hknown.elim

end Replays

/-- **When one selection makes one transition.**  All writes of the replays of a row are about that
row.  At most one of them is accepted, so that at most one retry is counted and every other replay
that ends has skipped the row, met a conflict or failed on the ledger, exactly if no replay that
looked for the row after an accepted write has a write of its own accepted. -/
theorem transition_once_iff {s : Store} {selected : Record} {ps : List Replayer} {now : Instant}
    {log : List Entry} {crew : Crew} (hfind : s.find? selected.key = some selected)
    (hdue : selected.isDue now = true)
    (howner : ∀ p ∈ ps, p.consumer.config.ownerGroup = selected.ownerGroup)
    (hrun : (Crew.waiting s (ps.map fun p => .replay p selected)).Run log crew)
    (hbegan : ∀ errand, Entry.began errand ∉ log) :
    (∀ w ∈ writes log, w.2.key = selected.key) ∧
    (((writes log).length ≤ 1 ∧
        (∀ row, crew.store.find? selected.key = some row →
          row.retryTimes ≤ selected.retryTimes + 1) ∧
        ∀ i report, crew.jobs[i]? = some (.done report) → (∃ r, (i, r) ∈ writes log) ∨
          (∃ status, report = .delivery (.ok (.skipped status))) ∨
            report = .delivery (.ok .conflict) ∨ Faulted log i) ↔
      ∀ i, LooksLate selected.key log i → ∀ r, (i, r) ∉ writes log) := by
  obtain ⟨chart, hchart, hcharted⟩ := hrun.charted (Crew.charted_waiting s _)
  have h := (replays_start hfind hdue howner).run hchart hbegan
  refine ⟨h.keys, ?_⟩
  rw [← h.length_le_one_iff]
  refine ⟨fun hall => hall.1, fun hlength => ⟨hlength, ?_, fun i report => h.report hcharted⟩⟩
  intro row hrow
  obtain ⟨row', hrow', -, -, hretry⟩ := h.row
  rw [hcharted.store, hrow] at hrow'
  rw [Option.some.inj hrow']
  omega

namespace Crew

/-! ### Two replays of one row -/

def dueRow : Record where
  id := 1
  eventId := "e"
  action := .consume
  ownerGroup := "g"
  ownerName := "n"
  eventType := "t"
  status := .retrying
  payload := some []
  message := none
  retryTimes := 0
  maxRetryTimes := 3
  nextRetryTime := some default
  version := 0
  deleteMarker := 0
  createTime := default
  updateTime := default

/-- Two replayers of the same group, for events without a payload. -/
def couriers : List Replayer :=
  List.replicate 2 ⟨{}, clerk 3, ⟨fun _ => .ok [], fun _ _ => .ok .null⟩⟩

def twice : Crew :=
  waiting ⟨[dueRow], 1⟩ (couriers.map fun p => .replay p dueRow)

theorem owner_couriers : ∀ p ∈ couriers, p.consumer.config.ownerGroup = dueRow.ownerGroup := by
  intro p hp
  rw [List.eq_of_mem_replicate hp]
  rfl

/-- When both look before one of them writes, the second write is refused. -/
theorem transition_once_together :
    ∃ log crew, twice.Run log crew ∧ crew.jobs.map Work.outcome? =
        [some .conflict, some (.rescheduled 1 default)] ∧
      ∀ i, LooksLate dueRow.key log i → ∀ r, (i, r) ∉ writes log := by
  have hplay : (twice.play (turns 1 0 (.failed "x") ++ turns 6 1 (.failed "x") ++
      turns 5 0 (.failed "x"))).map (fun p => ((writes p.1).map (·.1),
        (p.2.store.find? dueRow.key).map (·.retryTimes), p.2.jobs.map Work.outcome?)) =
      some ([1], some 1, [some .conflict, some (.rescheduled 1 default)]) := by decide
  obtain ⟨⟨log, crew⟩, hrun, heq⟩ := Option.map_eq_some_iff.mp hplay
  obtain ⟨hwriters, heq⟩ := Prod.mk.inj heq
  obtain ⟨hretry, houtcomes⟩ := Prod.mk.inj heq
  refine ⟨log, crew, run_of_play hrun, houtcomes, ?_⟩
  refine (transition_once_iff (by decide) (by decide : dueRow.isDue default = true) owner_couriers
    (run_of_play hrun) (not_began_of_play hrun)).2.mp ⟨?_, fun row hrow => ?_, ?_⟩
  · rw [← List.length_map (·.1), hwriters]
    decide
  · rw [hrow] at hretry
    exact Nat.le_of_eq (Option.some.inj hretry)
  · intro i report hjob
    have houtcome : (crew.jobs.map Work.outcome?)[i]? = some (Work.done report).outcome? := by
      rw [List.getElem?_map, hjob]
      rfl
    rw [houtcomes] at houtcome
    match i with
    | 0 =>
      have hconflict := Work.outcome?_eq_some.mp (Option.some.inj houtcome).symm
      exact .inr (.inr (.inl (Work.done.inj hconflict)))
    | 1 =>
      refine .inl ?_
      have hone : 1 ∈ (writes log).map (·.1) := by rw [hwriters]; decide
      obtain ⟨w, hw, hone⟩ := List.mem_map.mp hone
      exact ⟨w.2, hone ▸ hw⟩
    | i + 2 => cases houtcome

/-- **A late look.**  The first replay plans another attempt.  The second one then looks under the
key, finds the planned attempt and makes it at once. -/
theorem transition_twice :
    ∃ log crew, dueRow.isDue default = true ∧ twice.Run log crew ∧
      (writes log).map (fun w => (w.1, w.2.key)) = [(0, dueRow.key), (1, dueRow.key)] ∧
      (crew.store.find? dueRow.key).map (·.retryTimes) = some (dueRow.retryTimes + 2) ∧
      crew.jobs.map Work.outcome? =
        [some (.rescheduled 1 default), some (.rescheduled 2 default)] := by
  have hplay : (twice.play (turns 6 0 (.failed "x") ++ turns 6 1 (.failed "x"))).map (fun p =>
      ((writes p.1).map (fun w => (w.1, w.2.key)),
        (p.2.store.find? dueRow.key).map (·.retryTimes), p.2.jobs.map Work.outcome?)) =
      some ([(0, dueRow.key), (1, dueRow.key)], some (dueRow.retryTimes + 2),
        [some (.rescheduled 1 default), some (.rescheduled 2 default)]) := by decide
  obtain ⟨⟨log, crew⟩, hrun, heq⟩ := Option.map_eq_some_iff.mp hplay
  obtain ⟨hwrites, heq⟩ := Prod.mk.inj heq
  obtain ⟨hretry, houtcomes⟩ := Prod.mk.inj heq
  exact ⟨log, crew, by decide, run_of_play hrun, hwrites, hretry, houtcomes⟩

end Crew

end EventRelay
