import Mathlib.Data.List.Perm.Subperm
import EventRelay.Proofs.Crew.Lifecycle
import EventRelay.Proofs.Crew.Roster

/-!
# Owners of rows

A first delivery that creates the row of its event owns the row: it is the one that may call a
handler, and everybody else finds the row taken.  A second owner comes only with another row, and
another row only after the first one has failed and was deleted.

Scans are the other way to a row, and a row is created with a lease, before the end of which no scan
takes it for due.  `first_delivery_owned` says both of any crew: what first deliveries do by
themselves, and until when that stays so when there are scans.
-/

namespace EventRelay

/-! ### What a log tells of a key -/

def Request.deletes (key : Key) : (request : Request) → request.Reply → Bool
  | .tombstone r _, .ok true => r.key = key
  | _, _ => false

abbrev deleters (key : Key) (log : List Entry) : List Nat :=
  doers (Request.deletes key) log

def FailedOnce (key : Key) (log : List Entry) : Prop :=
  ∃ w ∈ writesTo key log, w.2.status = .failed

def Unselected (key : Key) (log : List Entry) : Prop :=
  ∀ i now limit rows, Entry.asked i (.due now limit) (.ok rows) ∈ log → ∀ r ∈ rows, r.key ≠ key

/-- No scan was made after the end of the lease with which a row under a key was created. -/
def WithinLease (key : Key) (log : List Entry) : Prop :=
  ∀ e r lease, e ∈ log → e.creation? = some r → r.key = key → r.nextRetryTime = some lease →
    ∀ i now limit reply, Entry.asked i (.due now limit) reply ∈ log → now < lease

section Log

variable {key : Key} {log : List Entry}

theorem FailedOnce.concat (h : FailedOnce key log) (entry : Entry) :
    FailedOnce key (log ++ [entry]) := by
  obtain ⟨w, hw, hfailed⟩ := h
  refine ⟨w, ?_, hfailed⟩
  rw [writesTo_concat]
  exact List.mem_append_left _ hw

theorem failedOnce_concat {i : Nat} {next : Record} (hkey : next.key = key)
    (hfailed : next.status = .failed) :
    FailedOnce key (log ++ [.asked i (.update next) (.ok true)]) :=
  ⟨(i, next), mem_writesTo_concat hkey, hfailed⟩

end Log

theorem doer?_creates {key : Key} {entry : Entry} {i : Nat}
    (h : entry.doer? (Request.creates key) = some i) :
    ∃ draft r, entry = .asked i (.create draft) (.ok (.created r)) ∧ draft.key = key := by
  obtain ⟨request, reply, rfl, hacts⟩ := eq_of_doer? h
  obtain ⟨draft, r, hkey, hasked⟩ := eq_of_creates hacts
  cases hasked
  exact ⟨draft, r, rfl, hkey⟩

theorem doer?_deletes {key : Key} {entry : Entry} {i : Nat}
    (h : entry.doer? (Request.deletes key) = some i) :
    ∃ r now, entry = .asked i (.tombstone r now) (.ok true) ∧ r.key = key := by
  obtain ⟨request, reply, rfl, hacts⟩ := eq_of_doer? h
  unfold Request.deletes at hacts
  split at hacts
  · exact ⟨_, _, rfl, of_decide_eq_true hacts⟩
  · cases hacts

theorem Instant.not_le_of_lt {a b : Instant} (h : a < b) : ¬ b ≤ a := by
  rintro (hle | ⟨hle, hfraction⟩)
  · rcases h with hlt | ⟨hlt, -⟩ <;> omega
  · rcases h with hlt | ⟨-, hlt⟩ <;> omega

/-! ### What owners know -/

/-- What a delivery reports that has not created a row: it passes the event over, or something
failed. -/
def Consumer.Passed (key : Key) (log : List Entry) : Except Error Consumer.Outcome → Prop
  | .ok outcome => ∃ status, outcome = .skipped status ∧ status ≠ .created ∧
      (status = .failed → FailedOnce key log)
  | .error _ => True

/-- What a first delivery knows: whoever holds a row has created it, and not written it. -/
def Consumer.Stage.Owned (key : Key) (log : List Entry) (i : Nat) : Consumer.Stage → Prop
  | .seeking again => again = false
  | .founding => True
  | .reopening r => r.version = 1 ∧ FailedOnce key log
  | .joining _ => False
  | .holding r _ => r.version = 0 ∧ i ∈ creators key log
  | .notifying _ => i ∈ creators key log
  | .ended outcome => i ∈ creators key log ∨ Consumer.Passed key log outcome

/-- What workers know of the row under a key.  First deliveries concern that row, and where there
are scans other deliveries concern other events. -/
def Post.Owned (scans : Prop) (key : Key) (log : List Entry) (i : Nat) : Post → Prop
  | .delivery c event stage =>
    c.config.ownerGroup = key.ownerGroup ∧ (∀ r, stage.copy? = some r → r.key = c.key event.id) ∧
      (event.id = key.eventId → stage.Owned key log i) ∧ (event.id ≠ key.eventId → scans)
  | .publication _ _ _ => False
  | .selecting p _ => scans ∧ p.consumer.config.ownerGroup = key.ownerGroup
  | .selected p rows => scans ∧ p.consumer.config.ownerGroup = key.ownerGroup ∧
      ∀ l, rows = .ok l → ∀ r ∈ l, r.key = p.consumer.key r.eventId ∧ r.eventId ≠ key.eventId
  | .crashed => i ∈ creators key log ∨ scans

/-- What the row under a key can be like. -/
structure Record.Owned (key : Key) (log : List Entry) (row : Record) : Prop where
  status : row.status ≠ .created
  version : row.version = 0 ∨ row.version = 1
  failed : row.status = .failed → row.version = 1 ∧ FailedOnce key log

/-- Errands that are first deliveries under a key, or scans for its owner group. -/
def Errand.Concerns (scans : Prop) (key : Key) : Errand → Prop
  | .deliver c event => c.key event.id = key
  | .scan p _ => scans ∧ p.consumer.config.ownerGroup = key.ownerGroup
  | .redeliver _ _ | .publish _ _ | .replay _ _ => False

section Knowledge

variable {scans : Prop} {key : Key} {log : List Entry} {i : Nat}

theorem Consumer.Passed.concat {outcome : Except Error Consumer.Outcome}
    (h : Consumer.Passed key log outcome) (entry : Entry) :
    Consumer.Passed key (log ++ [entry]) outcome := by
  cases outcome with
  | ok outcome =>
    obtain ⟨status, houtcome, hcreated, hfailed⟩ := h
    exact ⟨status, houtcome, hcreated, fun hs => (hfailed hs).concat entry⟩
  | error e => trivial

theorem Consumer.Stage.Owned.concat {stage : Consumer.Stage} (h : stage.Owned key log i)
    (entry : Entry) : stage.Owned key (log ++ [entry]) i := by
  cases stage with
  | seeking again => exact h
  | founding => trivial
  | reopening r => exact ⟨h.1, h.2.concat entry⟩
  | joining r => exact h
  | holding r attempt => exact ⟨h.1, mem_doers_concat h.2 entry⟩
  | notifying stored => exact mem_doers_concat h entry
  | ended outcome =>
    exact h.imp (fun hmem => mem_doers_concat hmem entry) fun hpassed => hpassed.concat entry

theorem Post.Owned.concat {post : Post} (h : post.Owned scans key log i) (entry : Entry) :
    post.Owned scans key (log ++ [entry]) i := by
  cases post with
  | delivery c event stage =>
    obtain ⟨hgroup, hcopy, hown, hother⟩ := h
    exact ⟨hgroup, hcopy, fun hid => (hown hid).concat entry, hother⟩
  | publication p event stage => exact h
  | selecting p batch => exact h
  | selected p rows => exact h
  | crashed => exact h.imp_left fun hmem => mem_doers_concat hmem entry

theorem Record.Owned.concat {row : Record} (h : row.Owned key log) (entry : Entry) :
    row.Owned key (log ++ [entry]) where
  status := h.status
  version := h.version
  failed hfailed := ⟨(h.failed hfailed).1, (h.failed hfailed).2.concat entry⟩

theorem Consumer.key_eq {c : Consumer} (hkey : key = .active key.eventId .consume key.ownerGroup)
    (hgroup : c.config.ownerGroup = key.ownerGroup) {eventId : String} :
    c.key eventId = key ↔ eventId = key.eventId := by
  constructor
  · intro h
    exact congrArg Key.eventId h
  · rintro rfl
    rw [hkey, Consumer.key, hgroup]
    rfl

section Move

variable {s s' : Store} {request : Request} {reply : request.Reply}

theorem Consumer.Stage.Owned.move {c : Consumer} {event : Event} {stage stage' : Consumer.Stage}
    (h : stage.Owned key log i) (hkey : c.key event.id = key)
    (hrow : ∀ row, s.find? key = some row → row.Owned key log)
    (hreply : s.Replies request reply s')
    (hmove : Consumer.Moves c event stage request reply stage') :
    stage'.Owned key (log ++ [.asked i request reply]) i := by
  subst hkey
  cases hmove with
  | missing => cases h
  | resumed hretrying => cases h
  | unknown | freed => trivial
  | reopened hfailed =>
    have hfound := hrow _ hreply.found.1.symm
    exact ⟨(hfound.failed hfailed).1, (hfound.failed hfailed).2.concat _⟩
  | met hcreated => exact (hrow _ hreply.found.1.symm).status hcreated
  | passed hcreated hfailed hretrying =>
    refine .inr ⟨_, rfl, hcreated, fun hs => ?_⟩
    exact absurd ((hfailed hs).symm.trans h) (by decide)
  | @created payload now r hpayload =>
    rcases hreply.creation with ⟨winner, hcreation, -⟩ | hcreation
    · cases hcreation
    · cases hcreation
      exact ⟨rfl, mem_doers_self (decide_eq_true rfl)⟩
  | second hpayload hcreated =>
    rcases hreply.creation with ⟨winner, hcreation, hfind⟩ | hcreation
    · cases hcreation
      exact (hrow _ hfind).status hcreated
    · cases hcreation
  | beaten hpayload hcreated =>
    rcases hreply.creation with ⟨winner, hcreation, hfind⟩ | hcreation
    · cases hcreation
      have hfound := hrow _ hfind
      exact .inr ⟨_, rfl, hcreated, fun hs => (hfound.failed hs).2.concat _⟩
    · cases hcreation
  | kept => exact .inr ⟨_, rfl, by decide, fun _ => h.2.concat _⟩
  | claimed | unclaimed => exact h.elim
  | questioned | handled => exact ⟨h.1, mem_doers_concat h.2 _⟩
  | concluded | refused => exact .inl (mem_doers_concat h.2 _)
  | gaveUp => exact mem_doers_concat h.2 _
  | consulted | notified => exact mem_doers_concat h _
  | clock htick =>
    rcases Consumer.Stage.tick_cases htick with ⟨r, verdict, rfl, rfl⟩ | rfl
    · exact ⟨h.1, mem_doers_concat h.2 _⟩
    · exact h.concat _
  | fault hfails hs => exact .inr trivial

/-- **What a move preserves**, unless a scan finds the row due. -/
theorem Post.Owned.move {post post' : Post} (h : post.Owned scans key log i)
    (hkey : key = .active key.eventId .consume key.ownerGroup)
    (hrow : ∀ row, s.find? key = some row → row.Owned key log)
    (hgroup : scans → ∀ r ∈ s.rows, r.action = .consume → r.ownerGroup = key.ownerGroup)
    (hfree : scans → Unselected key [.asked i request reply])
    (hreply : s.Replies request reply s') (hmove : post.Moves request reply post') :
    post'.Owned scans key (log ++ [.asked i request reply]) i := by
  cases hmove with
  | delivery hmove =>
    obtain ⟨howner, hcopy, hown, hother⟩ := h
    refine ⟨howner, hmove.copy_key hreply hcopy, fun hid => ?_, hother⟩
    exact (hown hid).move ((Consumer.key_eq hkey howner).mpr hid) hrow hreply hmove
  | publication hmove => exact h.elim
  | clock => exact h
  | @selected p batch now found =>
    obtain ⟨hscans, howner⟩ := h
    refine ⟨hscans, howner, fun l hl r hr => ?_⟩
    subst hl
    have hne := hfree hscans i now batch l (List.mem_singleton_self _) r hr
    rcases hreply with ⟨hdue, -⟩ | ⟨⟨e, hfails⟩, -⟩
    · rw [Except.ok.inj hdue] at hr
      obtain ⟨hmem, hdue⟩ := Store.mem_due hr
      obtain ⟨-, haction, -, -⟩ := Record.isDue_iff.mp hdue
      have hrkey : r.key = p.consumer.key r.eventId := by
        rw [Record.key_of_isDue hdue, hgroup hscans r hmem haction, Consumer.key, howner]
      refine ⟨hrkey, fun hid => hne ?_⟩
      rw [hrkey]
      exact (Consumer.key_eq hkey howner).mpr hid
    · cases hfails

/-- Whoever writes a row writes that of its event, and if it is the row under the key has created
it. -/
theorem Post.Owned.of_update {post post' : Post} {next : Record}
    (h : post.Owned scans key log i) (hmove : post.Moves (.update next) (.ok true) post') :
    ∃ c : Consumer, ∃ event : Event, c.config.ownerGroup = key.ownerGroup ∧
      next.key = c.key event.id ∧
        (event.id = key.eventId → next.version = 0 ∧ i ∈ creators key log) ∧
          (event.id ≠ key.eventId → scans) := by
  cases hmove with
  | @delivery c event _ _ _ _ hmove =>
    obtain ⟨hgroup, hcopy, hown, hother⟩ := h
    cases hmove with
    | claimed hnext =>
      exact ⟨c, event, hgroup, (Record.key_transition hnext).trans (hcopy _ rfl),
        fun hid => (hown hid).elim, hother⟩
    | concluded hsettles hfailed hnext | gaveUp hsettles hnext =>
      refine ⟨c, event, hgroup, (Record.key_transition hnext).trans (hcopy _ rfl), ?_, hother⟩
      intro hid
      rw [Record.version_transition hnext]
      exact hown hid
    | fault hfails hs => cases hfails
  | publication hmove => exact h.elim

end Move

theorem Errand.Concerns.owned {errand : Errand} (h : errand.Concerns scans key) :
    errand.post.Owned scans key log i := by
  cases errand with
  | deliver c event =>
    refine ⟨congrArg Key.ownerGroup h, fun r hr => (by cases hr), fun _ => rfl, fun hid => ?_⟩
    exact absurd (congrArg Key.eventId h) hid
  | scan p batch => exact h
  | redeliver c event => exact h.elim
  | publish p event => exact h.elim
  | replay p r => exact h.elim

theorem Post.owned_replay {p : Replayer} {r : Record} (hscans : scans)
    (howner : p.consumer.config.ownerGroup = key.ownerGroup)
    (hr : r.key = p.consumer.key r.eventId) (hne : r.eventId ≠ key.eventId) :
    (Errand.replay p r).post.Owned scans key log i := by
  cases hrebuild : p.rebuild r with
  | ok event =>
    rw [Errand.post_replay hrebuild]
    refine ⟨howner, fun r hr => (by cases hr), fun hid => ?_, fun _ => hscans⟩
    exact absurd ((Replayer.rebuild_eq_ok hrebuild).1.symm.trans hid) hne
  | error e =>
    rw [Errand.post_replay_error hrebuild]
    refine ⟨howner, fun copy hcopy => ?_, fun hid => absurd hid hne, fun _ => hscans⟩
    obtain rfl := Option.some.inj hcopy
    exact hr

end Knowledge

namespace Chart

variable {scans : Prop} {key : Key} {chart chart' : Chart} {entry : Entry} {log : List Entry}

/-- **What is so of the row under a key** in the hands of first deliveries. -/
structure Owned (scans : Prop) (key : Key) (log : List Entry) (chart : Chart) : Prop where
  posts : ∀ (i : Nat) post, chart.posts[i]? = some post → post.Owned scans key log i
  row : ∀ row, chart.store.find? key = some row → row.Owned key log
  group : scans → ∀ r ∈ chart.store.rows, r.action = .consume → r.ownerGroup = key.ownerGroup
  balance : (creators key log).length =
    (deleters key log).length + if (chart.store.find? key).isSome then 1 else 0
  deleted : deleters key log ≠ [] → FailedOnce key log
  handled : Throughout (fun before e => ∀ i slot event verdict,
    e = .asked i (.handle slot event) verdict → event.id = key.eventId → i ∈ creators key before) log

theorem Owned.writer (h : Owned scans key log chart) {i : Nat} {next : Record}
    (hstep : chart.Step (.asked i (.update next) (.ok true)) chart') :
    ∃ c : Consumer, ∃ event : Event, c.config.ownerGroup = key.ownerGroup ∧
      next.key = c.key event.id ∧
        (event.id = key.eventId → next.version = 0 ∧ i ∈ creators key log) := by
  obtain ⟨post, post', hpost, -, -, hmove⟩ := hstep.of_asked
  obtain ⟨c, event, hgroup, hnext, hown, -⟩ := (h.posts i post hpost).of_update hmove
  exact ⟨c, event, hgroup, hnext, hown⟩

theorem Owned.deleter (h : Owned scans key log chart) {i : Nat} {r : Record} {now : Instant}
    (hstep : chart.Step entry chart') (hr : r.key = key)
    (hentry : entry = .asked i (.tombstone r now) (.ok true) ∨
      entry = .crashed i (.tombstone r now)) :
    r.version = 1 ∧ FailedOnce key log := by
  obtain ⟨c, event, hpost⟩ := hstep.reopening hentry
  obtain ⟨hgroup, hcopy, hown, -⟩ := h.posts i _ hpost
  exact hown (congrArg Key.eventId ((hcopy r rfl).symm.trans hr))

theorem Owned.not_lost (h : Owned scans key log chart) {i : Nat} {r : Record} {now : Instant}
    (hstep : chart.Step (.crashed i (.tombstone r now)) chart') : r.key ≠ key := by
  intro hr
  have hversion := (h.deleter hstep hr (.inr rfl)).1
  obtain ⟨stored, -, hstored, hrange⟩ := hstep.of_lost
  unfold leastInt64 greatestInt64 at hrange
  omega

theorem Step.fresh (h : chart.Step entry chart') {r : Record} (hcreation : entry.creation? = some r)
    (haction : r.action = .consume) :
    ∃ i c event payload start, ∃ id : Int,
      entry = .asked i (.create (c.freshRecord event payload start)) (.ok (.created r)) ∧
        r = { c.freshRecord event payload start with id := id } ∧
          chart.posts[i]? = some (.delivery c event .founding) ∧
            c.codec.encode event.payload = .ok payload := by
  obtain ⟨i, draft, rfl⟩ := Entry.eq_of_creation? hcreation
  obtain ⟨post, post', hpost, -, hreply, hmove⟩ := h.of_asked
  rcases hreply.creation with ⟨winner, hwinner, -⟩ | hr
  · cases hwinner
  · cases hmove with
    | delivery hmove =>
      cases hmove with
      | @created payload now _ hpayload =>
        exact ⟨i, _, _, payload, now, _, rfl, by injection hr, hpost, hpayload⟩
      | fault hfails hs => cases hfails
    | publication hmove =>
      cases hmove with
      | created =>
        injection hr with hr
        rw [hr] at haction
        cases haction

theorem Owned.crashed_step (h : Owned scans key log chart)
    (hkey : key = .active key.eventId .consume key.ownerGroup) {i : Nat} {request : Request}
    (hstep : chart.Step (.crashed i request) chart') :
    Post.Owned scans key (log ++ [.crashed i request]) i .crashed := by
  by_cases hscans : scans
  · exact .inr hscans
  · obtain ⟨post, o, hpost, hover, hmove⟩ := hstep.of_crashed
    rcases hover.request_cases with ⟨next, rfl, -⟩ | ⟨r, now, rfl⟩
    · obtain ⟨post', hmove⟩ := hmove (.ok true)
      obtain ⟨c, event, -, -, hown, hother⟩ := (h.posts i post hpost).of_update hmove
      exact .inl (mem_doers_concat (hown (not_imp_comm.mp hother hscans)).2 _)
    · obtain ⟨c, event, hpost⟩ := hstep.reopening (.inr rfl)
      obtain ⟨hgroup, hcopy, -, hother⟩ := h.posts i _ hpost
      have hid : event.id = key.eventId := not_imp_comm.mp hother hscans
      exact absurd ((hcopy r rfl).trans ((Consumer.key_eq hkey hgroup).mpr hid))
        (h.not_lost hstep)

theorem Owned.posts_step (h : Owned scans key log chart)
    (hkey : key = .active key.eventId .consume key.ownerGroup) (hstep : chart.Step entry chart')
    (hbegan : ∀ errand, entry = .began errand → errand.Concerns scans key)
    (hfree : scans → Unselected key [entry]) :
    ∀ (i : Nat) post, chart'.posts[i]? = some post → post.Owned scans key (log ++ [entry]) i := by
  intro i post hpost
  cases hstep.came hpost with
  | stayed hold hentry => exact (h.posts i post hold).concat entry
  | moved hentry hold hreply hmove =>
    subst hentry
    exact (h.posts i _ hold).move hkey h.row h.group hfree hreply hmove
  | joined hpost hentry hj => exact hpost ▸ (hbegan _ hentry).owned
  | handed hpost hentry hsel hr hj =>
    obtain ⟨hscans, howner, hrows⟩ := h.posts _ _ hsel
    obtain ⟨hrkey, hne⟩ := hrows _ rfl _ hr
    exact hpost ▸ Post.owned_replay hscans howner hrkey hne
  | emptied hpost hentry hsel =>
    obtain ⟨hscans, howner, -⟩ := h.posts _ _ hsel
    refine hpost ▸ ⟨hscans, howner, fun l hl r hr => ?_⟩
    cases hl
    cases hr
  | @crashed request _ hpost hentry =>
    subst hpost hentry
    exact h.crashed_step hkey hstep

theorem Owned.row_step (h : Owned scans key log chart)
    (hkey : key = .active key.eventId .consume key.ownerGroup) (hstep : chart.Step entry chart') :
    ∀ row, chart'.store.find? key = some row → row.Owned key (log ++ [entry]) := by
  intro row hrow
  have hmarker : key.deleteMarker = 0 := congrArg Key.deleteMarker hkey
  have heffect := hstep.effect
  generalize hs : chart'.store = s' at heffect hrow
  cases heffect with
  | unchanged hupdate hcreation hcleared => exact (h.row row hrow).concat entry
  | @created i draft hfree =>
    rw [Store.find?_append] at hrow
    rcases Option.or_eq_some_iff.mp hrow with hold | ⟨-, hnew⟩
    · exact (h.row row hold).concat _
    · split at hnew
      · rename_i hdraft
        obtain rfl := Option.some.inj hnew
        have haction : draft.action = .consume :=
          (congrArg Key.action hdraft).trans (congrArg Key.action hkey)
        obtain ⟨_, c, event, payload, start, id, -, hfresh, -⟩ := hstep.fresh rfl haction
        rw [hfresh]
        exact ⟨by simp [Consumer.freshRecord], .inl rfl, fun hfailed => by cases hfailed⟩
      · cases hnew
  | @updated i next stored hfind hversion hactive =>
    rw [Store.find?_replace] at hrow
    obtain ⟨old, hold, heq⟩ := Option.map_eq_some_iff.mp hrow
    by_cases hnext : next.key = key
    · rw [Record.key_revised, if_pos hnext] at heq
      subst heq
      obtain ⟨c, event, hgroup, hwritten, hown⟩ := h.writer hstep
      have hversion := (hown (congrArg Key.eventId (hwritten.symm.trans hnext))).1
      have hone : next.revised.version = 1 := by rw [Record.version_revised, hversion]; rfl
      exact ⟨hstep.status_written, .inr hone, fun hfailed => ⟨hone, failedOnce_concat hnext hfailed⟩⟩
    · rw [Record.key_revised, if_neg hnext] at heq
      exact heq ▸ (h.row old hold).concat _
  | @deleted i r stored now hfind hversion =>
    rw [Store.find?_refile, if_neg (stored.key_deleted_ne now hmarker)] at hrow
    split at hrow
    · cases hrow
    · exact (h.row row hrow).concat _
  | lost hfind hversion =>
    rw [Store.find?_erase] at hrow
    split at hrow
    · cases hrow
    · exact (h.row row hrow).concat _

theorem Owned.group_step (h : Owned scans key log chart) (hstep : chart.Step entry chart') :
    scans → ∀ r ∈ chart'.store.rows, r.action = .consume → r.ownerGroup = key.ownerGroup := by
  intro hscans r hr haction
  have heffect := hstep.effect
  generalize hs : chart'.store = s' at heffect hr
  cases heffect with
  | unchanged hupdate hcreation hcleared => exact h.group hscans r hr haction
  | created hfree =>
    rcases List.mem_append.mp hr with hr | hr
    · exact h.group hscans r hr haction
    · rw [List.mem_singleton.mp hr] at haction ⊢
      obtain ⟨j, c, event, payload, start, id, -, hfresh, hpost, -⟩ := hstep.fresh rfl haction
      rw [hfresh]
      exact (h.posts j _ hpost).1
  | updated hfind hversion hactive =>
    rcases Store.mem_replace hr with rfl | ⟨hr, -⟩
    · obtain ⟨c, event, hgroup, hwritten, -⟩ := h.writer hstep
      exact (congrArg Key.ownerGroup hwritten).trans hgroup
    · exact h.group hscans r hr haction
  | @deleted i copy stored now hfind hversion =>
    rcases Store.mem_refile hr with rfl | ⟨hr, -, -⟩
    · exact h.group hscans stored (Store.mem_of_find? hfind) haction
    · exact h.group hscans r hr haction
  | lost hfind hversion => exact h.group hscans r (Store.mem_erase.mp hr).1 haction

theorem Owned.isSome_kept (h : Owned scans key log chart) (hmarker : key.deleteMarker = 0)
    (hstep : chart.Step entry chart') (hcreates : entry.doer? (Request.creates key) = none)
    (hdeletes : entry.doer? (Request.deletes key) = none) :
    (chart'.store.find? key).isSome = (chart.store.find? key).isSome := by
  cases hfind : chart.store.find? key with
  | none =>
    rw [hstep.effect.find_none hmarker hfind]
    intro r hcreation hr
    obtain ⟨i, draft, rfl⟩ := Entry.eq_of_creation? hcreation
    have hdraft := hstep.effect.key_of_creation rfl
    cases hcreates.symm.trans (doer?_asked (decide_eq_true (hdraft.symm.trans hr)))
  | some row =>
    have hcleared : entry.cleared? ≠ some key := by
      intro hcleared
      obtain ⟨i, r, now, hr, rfl | rfl⟩ := Entry.of_cleared? hcleared
      · cases hdeletes.symm.trans (doer?_asked (decide_eq_true hr))
      · exact h.not_lost hstep hr
    rcases hstep.effect.find_next hmarker hfind hcleared with
      ⟨i, next, -, -, -, -, hnext⟩ | ⟨-, hkept⟩
    · rw [hnext]
      rfl
    · rw [hkept]

theorem Owned.balance_step (h : Owned scans key log chart) (hmarker : key.deleteMarker = 0)
    (hstep : chart.Step entry chart') :
    (creators key (log ++ [entry])).length = (deleters key (log ++ [entry])).length +
      if (chart'.store.find? key).isSome then 1 else 0 := by
  have hbalance := h.balance
  cases hcreates : entry.doer? (Request.creates key) with
  | some i =>
    obtain ⟨draft, r, rfl, hdraft⟩ := doer?_creates hcreates
    obtain ⟨hfree, hfind⟩ := hstep.effect.of_creation rfl
    rw [(hstep.effect.key_of_creation rfl).trans hdraft] at hfree hfind
    have hone : creators key (log ++ [.asked i (.create draft) (.ok (.created r))]) =
        creators key log ++ [i] := doers_concat_self (decide_eq_true hdraft)
    have hnone : deleters key (log ++ [.asked i (.create draft) (.ok (.created r))]) =
        deleters key log := doers_concat_other rfl
    rw [hone, hnone, hfind, List.length_append, hbalance, hfree]
    rfl
  | none =>
    have hnone : creators key (log ++ [entry]) = creators key log := doers_concat_other hcreates
    rw [hnone]
    cases hdeletes : entry.doer? (Request.deletes key) with
    | some i =>
      obtain ⟨r, now, rfl, hr⟩ := doer?_deletes hdeletes
      obtain ⟨stored, hfind, -, hstore⟩ := hstep.effect.of_deletion
      rw [hr] at hfind
      have hone : deleters key (log ++ [.asked i (.tombstone r now) (.ok true)]) =
          deleters key log ++ [i] := doers_concat_self (decide_eq_true hr)
      rw [hone, hstore, Store.find?_refile, if_neg (stored.key_deleted_ne now hmarker),
        if_pos (Store.key_of_find? hfind), hbalance, hfind, List.length_append]
      rfl
    | none =>
      have hnone : deleters key (log ++ [entry]) = deleters key log := doers_concat_other hdeletes
      rw [hnone, h.isSome_kept hmarker hstep hcreates hdeletes]
      exact hbalance

theorem Owned.deleted_step (h : Owned scans key log chart) (hstep : chart.Step entry chart') :
    deleters key (log ++ [entry]) ≠ [] → FailedOnce key (log ++ [entry]) := by
  intro hne
  cases hdeletes : entry.doer? (Request.deletes key) with
  | none =>
    have hnone : deleters key (log ++ [entry]) = deleters key log := doers_concat_other hdeletes
    exact (h.deleted (hnone ▸ hne)).concat entry
  | some i =>
    obtain ⟨r, now, rfl, hr⟩ := doer?_deletes hdeletes
    exact (h.deleter hstep hr (.inl rfl)).2.concat _

theorem Owned.handled_step (h : Owned scans key log chart) (hstep : chart.Step entry chart')
    {i slot : Nat} {event : Event} {verdict : Verdict}
    (hentry : entry = .asked i (.handle slot event) verdict) (hid : event.id = key.eventId) :
    i ∈ creators key log := by
  subst hentry
  obtain ⟨post, post', hpost, -, -, hmove⟩ := hstep.of_asked
  cases hmove with
  | delivery hmove =>
    cases hmove with
    | handled hslot => exact ((h.posts i _ hpost).2.2.1 hid).2
    | fault hfails hs => exact hfails.elim
  | publication hmove => cases hmove

/-- **What a step preserves**, unless a scan finds the row due. -/
theorem Owned.step (h : Owned scans key log chart)
    (hkey : key = .active key.eventId .consume key.ownerGroup) (hstep : chart.Step entry chart')
    (hbegan : ∀ errand, entry = .began errand → errand.Concerns scans key)
    (hfree : scans → Unselected key [entry]) : Owned scans key (log ++ [entry]) chart' where
  posts := h.posts_step hkey hstep hbegan hfree
  row := h.row_step hkey hstep
  group := h.group_step hstep
  balance := h.balance_step (congrArg Key.deleteMarker hkey) hstep
  deleted := h.deleted_step hstep
  handled := throughout_concat.mpr
    ⟨h.handled, fun _ _ _ _ hentry hid => h.handled_step hstep hentry hid⟩

/-- **Along a run the row under a key is in the hands of its creator**, as long as no scan has found
it due. -/
theorem owned_run {s : Store} {errands : List Errand}
    (hkey : key = .active key.eventId .consume key.ownerGroup) (hfree : s.find? key = none)
    (hgroup : scans → ∀ r ∈ s.rows, r.action = .consume → r.ownerGroup = key.ownerGroup)
    (hrun : (Chart.mk s (errands.map Errand.post)).Run log chart)
    (herrands : ∀ errand, Errand.TakenOn errands log errand → errand.Concerns scans key)
    (hunselected : scans → Unselected key log) : Owned scans key log chart := by
  induction hrun with
  | start =>
    refine ⟨fun i post hpost => ?_, fun row hrow => ?_, hgroup, ?_, fun hne => absurd rfl hne,
      throughout_nil⟩
    · obtain ⟨errand, herrand, rfl⟩ := List.mem_map.mp (List.mem_of_getElem? hpost)
      exact (herrands errand (.inl herrand)).owned
    · rw [hfree] at hrow
      cases hrow
    · rw [hfree]
      rfl
  | @step log _ _ entry prior hstep ih =>
    have hprior := ih (fun errand herrand => herrands errand (herrand.concat entry))
      fun hscans i now limit rows hmem => hunselected hscans i now limit rows
        (List.mem_append_left _ hmem)
    refine hprior.step hkey hstep (fun errand hentry => ?_)
      fun hscans i now limit rows hmem => hunselected hscans i now limit rows
        (List.mem_append_right _ hmem)
    exact herrands errand (.inr (List.mem_append_right _ (List.mem_singleton.mpr hentry.symm)))

/-! ### Where rows come from -/

/-- A row is as it was created, with a lease, or as it was written. -/
def Sourced (key : Key) (log : List Entry) (r : Record) : Prop :=
  (∃ w ∈ writesTo key log, r = w.2.revised) ∨
    ∃ i c event payload start,
      Entry.asked i (.create (Consumer.freshRecord c event payload start)) (.ok (.created r)) ∈ log ∧
        r.nextRetryTime = some (c.leaseUntil start)

theorem Sourced.concat {r : Record} (h : Sourced key log r) (entry : Entry) :
    Sourced key (log ++ [entry]) r := by
  rcases h with ⟨w, hw, hr⟩ | ⟨i, c, event, payload, start, hmem, hlease⟩
  · refine .inl ⟨w, ?_, hr⟩
    rw [writesTo_concat]
    exact List.mem_append_left _ hw
  · exact .inr ⟨i, c, event, payload, start, List.mem_append_left _ hmem, hlease⟩

/-- **Rows under a key are as they were created or written.** -/
theorem sourced_run {s : Store} {posts : List Post} (haction : key.action = .consume)
    (hmarker : key.deleteMarker = 0) (hfree : s.find? key = none)
    (hrun : (Chart.mk s posts).Run log chart) :
    ∀ r ∈ chart.store.rows, r.key = key → Sourced key log r := by
  induction hrun with
  | start => exact fun r hr hrkey => absurd hrkey (Store.find?_eq_none_iff.mp hfree r hr)
  | @step log chart chart' entry prior hstep ih =>
    intro r hr hrkey
    have heffect := hstep.effect
    generalize hs : chart'.store = s' at heffect hr
    cases heffect with
    | unchanged hupdate hcreation hcleared => exact (ih r hr hrkey).concat entry
    | created hfree =>
      rcases List.mem_append.mp hr with hr | hr
      · exact (ih r hr hrkey).concat _
      · obtain rfl := List.mem_singleton.mp hr
        obtain ⟨i, c, event, payload, start, id, hentry, hfresh, -⟩ :=
          hstep.fresh rfl ((congrArg Key.action hrkey).trans haction)
        refine .inr ⟨i, c, event, payload, start, ?_, ?_⟩
        · exact List.mem_append_right _ (List.mem_singleton.mpr hentry.symm)
        · rw [hfresh]
          rfl
    | @updated i next stored hfind hversion hactive =>
      rcases Store.mem_replace hr with rfl | ⟨hr, -⟩
      · exact .inl ⟨(i, next), mem_writesTo_concat hrkey, rfl⟩
      · exact (ih r hr hrkey).concat _
    | @deleted i copy stored now hfind hversion =>
      rcases Store.mem_refile hr with rfl | ⟨hr, -, -⟩
      · exact absurd hrkey (stored.key_deleted_ne now hmarker)
      · exact (ih r hr hrkey).concat _
    | lost hfind hversion => exact (ih r (Store.mem_erase.mp hr).1 hrkey).concat _

end Chart

/-! ### Ownership -/

/-- **Each row has one owner**: it is its creator that calls a handler, once, and another row is
created only when one was deleted. -/
structure OwnedByCreator (key : Key) (log : List Entry) : Prop where
  handled : (handlers key.eventId log).Nodup
  created : (creators key log).Nodup
  owner : ∀ before i slot event verdict after,
    log = before ++ .asked i (.handle slot event) verdict :: after → event.id = key.eventId →
      i ∈ creators key before
  bounded : (creators key log).length ≤ 1 + (deleters key log).length
  single : ¬ FailedOnce key log →
    (creators key log).length ≤ 1 ∧ (handlers key.eventId log).length ≤ 1

theorem Chart.Owned.byCreator {scans : Prop} {key : Key} {log : List Entry} {chart : Chart}
    (h : Owned scans key log chart) (haction : key.action = .consume) {s : Store}
    {posts : List Post} (hrun : (Chart.mk s posts).Run log chart) : OwnedByCreator key log where
  handled := (Done.run (Consumer.once_handles key.eventId) hrun).nodup
  created := (Done.run (Consumer.once_creates haction) hrun).nodup
  owner before i slot event verdict after hlog hid :=
    h.handled before _ after hlog i slot event verdict rfl hid
  bounded := by
    rw [h.balance]
    split <;> omega
  single hfailed := by
    have hdeleters : deleters key log = [] := not_imp_comm.mp h.deleted hfailed
    have hcreators : (creators key log).length ≤ 1 := by
      rw [h.balance, hdeleters]
      split <;> simp
    refine ⟨hcreators, Nat.le_trans ?_ hcreators⟩
    refine ((Done.run (Consumer.once_handles key.eventId) hrun).nodup.subperm fun i hi => ?_).length_le
    obtain ⟨request, reply, hmem, hhandles⟩ := mem_doers hi
    obtain ⟨slot, event, rfl, hid⟩ := handles_iff.mp hhandles
    obtain ⟨before, after, hlog⟩ := List.append_of_mem hmem
    have hbefore := h.handled before _ after hlog i slot event reply rfl hid
    rw [hlog, creators, doers, List.filterMap_append]
    exact List.mem_append_left _ hbefore

namespace Crew

variable {s : Store} {errands : List Errand} {log : List Entry} {crew : Crew} {key : Key}

theorem Run.selected (hrun : (waiting s errands).Run log crew) (haction : key.action = .consume)
    (hmarker : key.deleteMarker = 0) (hfree : s.find? key = none) {before after : List Entry}
    {i limit : Nat} {now : Instant} {rows : List Record} {r : Record}
    (hlog : log = before ++ .asked i (.due now limit) (.ok rows) :: after) (hr : r ∈ rows)
    (hrkey : r.key = key) : Chart.Sourced key before r ∧ r.isDue now = true := by
  rw [hlog] at hrun
  obtain ⟨mid, mid', hprior, hscan, -⟩ := hrun.cut
  rcases hscan.replies with ⟨hdue, -⟩ | ⟨⟨e, hfails⟩, -⟩
  · rw [Except.ok.inj hdue] at hr
    obtain ⟨hmem, hdue⟩ := Store.mem_due hr
    obtain ⟨chart, hchart, hcharted⟩ := hprior.charted (charted_waiting s errands)
    exact ⟨Chart.sourced_run haction hmarker hfree hchart r (hcharted.store ▸ hmem) hrkey, hdue⟩
  · cases hfails

theorem Run.unselected (hrun : (waiting s errands).Run log crew) (haction : key.action = .consume)
    (hmarker : key.deleteMarker = 0) (hfree : s.find? key = none)
    (hwrites : ∀ w ∈ writesTo key log, w.2.status ≠ .retrying)
    (hlease : WithinLease key log) : Unselected key log := by
  intro i now limit rows hmem r hr hrkey
  obtain ⟨before, after, hlog⟩ := List.append_of_mem hmem
  obtain ⟨hsourced, hdue⟩ := hrun.selected haction hmarker hfree hlog hr hrkey
  obtain ⟨-, -, hretrying, t, htime, hdue⟩ := Record.isDue_iff.mp hdue
  rcases hsourced with ⟨w, hw, rfl⟩ | ⟨j, c, event, payload, start, hcreation, -⟩
  · refine hwrites w ?_ hretrying
    rw [hlog, writesTo, writes, List.filterMap_append, List.filter_append]
    exact List.mem_append_left _ hw
  · have hcreation := hlog ▸ List.mem_append_left _ hcreation
    exact Instant.not_le_of_lt (hlease _ r t hcreation rfl hrkey htime i now limit _ hmem) hdue

/-- How a delivery looks that has not created a row, while no row has failed: it goes on, it has
passed the event over, or something has failed. -/
theorem Charted.passed {chart : Chart} (h : crew.Charted chart)
    (howned : Chart.Owned False key log chart) (hblamed : Chart.Blamed errands log chart)
    (hfailed : ¬ FailedOnce key log) {i : Nat} {w : Work Report} (hjob : crew.jobs[i]? = some w)
    (hi : i ∉ creators key log) :
    (∃ request next, w = .ask request next) ∨
      (∃ status, w = .done (.delivery (.ok (.skipped status))) ∧
        (status = .retrying ∨ status = .success)) ∨
      ∃ e, w = .done (.delivery (.error e)) ∧ (Chart.FailedWith log i e ∨
        ∃ c event, Errand.TakenOn errands log (.deliver c event) ∧
          c.codec.encode event.payload = .error e) := by
  obtain ⟨post, hpost, hfollows⟩ := h.post hjob
  have hknown := howned.posts i post hpost
  have hown {c : Consumer} {event : Event} {stage : Consumer.Stage}
      (hknown : (Post.delivery c event stage).Owned False key log i) : stage.Owned key log i :=
    hknown.2.2.1 (not_imp_comm.mp hknown.2.2.2 not_false)
  cases w with
  | ask request next => exact .inl ⟨request, next, rfl⟩
  | crash text =>
    cases hfollows with
    | delivery hcrash =>
      cases hcrash with
      | questioning => exact absurd (hown hknown).2 hi
      | counting hallows hover => exact absurd (hown hknown).2 hi
      | planning htime => exact absurd (hown hknown).2 hi
      | consulting => exact absurd (hown hknown) hi
    | crashed => exact (hknown.elim hi not_false).elim
  | done report =>
    cases hfollows with
    | publication hend => exact hknown.elim
    | selected => exact hknown.1.elim
    | @delivery c event stage outcome hend =>
      cases hend with
      | ended =>
        rcases hown hknown with hmem | hpassed
        · exact absurd hmem hi
        · cases outcome with
          | error e => exact .inr (.inr ⟨e, rfl, .inl (hblamed.ended i c event e hpost)⟩)
          | ok outcome =>
            obtain ⟨status, rfl, hcreated, hstatus⟩ := hpassed
            refine .inr (.inl ⟨status, rfl, ?_⟩)
            cases status with
            | created => exact absurd rfl hcreated
            | retrying => exact .inl rfl
            | success => exact .inr rfl
            | failed => exact absurd (hstatus rfl) hfailed
      | unwritable hpayload =>
        exact .inr (.inr ⟨_, rfl, .inr ⟨c, event, hblamed.founds i c event _ hpost trivial, hpayload⟩⟩)
      | barredJoin hbarred => exact (hown hknown).elim
      | barred hbarred => exact absurd (hown hknown).2 hi
      | notified => exact absurd (hown hknown) hi

/-- **First deliveries.**  Let any crew make first deliveries of events with one id for one owner
group, on a ledger without a row for it.  A handler is called by the creator of a row only, and once;
and there is one row more than were deleted, at most.  As long as no row has failed there is one row
and one call of a handler at most, and everybody else passes the event over, unless a call to the
ledger or the codec failed.

Let there be scans as well, and only that group in the ledger.  Then the same is so as long as no
scan has found a row for the event.  A row that a scan finds is due, and as it was created, with its
lease, or as it was written; hence no scan finds one as long as no lease has ended and no retry was
planned. -/
theorem first_delivery_owned (haction : key.action = .consume) (hmarker : key.deleteMarker = 0)
    (hfree : s.find? key = none) (hrun : (waiting s errands).Run log crew) :
    ((∀ errand, Errand.TakenOn errands log errand → errand.Concerns False key) →
      OwnedByCreator key log ∧
        (¬ FailedOnce key log → ∀ i w, crew.jobs[i]? = some w → i ∉ creators key log →
          (∃ request next, w = .ask request next) ∨
            (∃ status, w = .done (.delivery (.ok (.skipped status))) ∧
              (status = .retrying ∨ status = .success)) ∨
            ∃ e, w = .done (.delivery (.error e)) ∧ (Chart.FailedWith log i e ∨
              ∃ c event, Errand.TakenOn errands log (.deliver c event) ∧
                c.codec.encode event.payload = .error e))) ∧
    ((∀ errand, Errand.TakenOn errands log errand → errand.Concerns True key) →
      (∀ r ∈ s.rows, r.action = .consume → r.ownerGroup = key.ownerGroup) →
        (Unselected key log → OwnedByCreator key log) ∧
        (∀ before i now limit rows after r,
          log = before ++ .asked i (.due now limit) (.ok rows) :: after → r ∈ rows → r.key = key →
            Chart.Sourced key before r ∧ r.isDue now = true) ∧
        ((∀ w ∈ writesTo key log, w.2.status ≠ .retrying) → WithinLease key log →
          Unselected key log)) := by
  have hkey : key = .active key.eventId .consume key.ownerGroup := by
    rw [Key.active, ← haction, ← hmarker]
  obtain ⟨chart, hchart, hcharted⟩ := hrun.charted (charted_waiting s errands)
  refine ⟨fun herrands => ?_, fun herrands hgroup => ⟨fun hunselected => ?_, ?_, ?_⟩⟩
  · have howned := Chart.owned_run hkey hfree False.elim hchart herrands False.elim
    exact ⟨howned.byCreator haction hchart, fun hfailed i w hjob hi =>
      hcharted.passed howned (Chart.blamed_run hchart) hfailed hjob hi⟩
  · exact (Chart.owned_run hkey hfree (fun _ => hgroup) hchart herrands
      fun _ => hunselected).byCreator haction hchart
  · intro before i now limit rows after r hlog hr hrkey
    exact hrun.selected haction hmarker hfree hlog hr hrkey
  · exact hrun.unselected haction hmarker hfree

/-- Two first deliveries at once, of which one creates the row and the other one passes the event
over. -/
theorem first_delivery_owned_twice :
    ∃ log crew, (waiting .empty (List.replicate 2 (.deliver (clerk 3) parcel))).Run log crew ∧
      handlers parcel.id log = [0] ∧ creators ((clerk 3).key parcel.id) log = [0] ∧
      crew.jobs[1]? = some (.done (.delivery (.ok (.skipped .success)))) ∧
      OwnedByCreator ((clerk 3).key parcel.id) log := by
  have hplay : ((waiting .empty (List.replicate 2 (.deliver (clerk 3) parcel))).play
      (turns 1 0 .ok ++ turns 1 1 .ok ++ turns 6 0 .ok ++ turns 2 1 .ok)).map (fun p =>
        (handlers parcel.id p.1, creators ((clerk 3).key parcel.id) p.1,
          (p.2.jobs[1]?).bind Work.outcome?)) =
      some ([0], [0], some (.skipped .success)) := by decide
  obtain ⟨⟨log, crew⟩, hrun, hlog⟩ := Option.map_eq_some_iff.mp hplay
  obtain ⟨hhandlers, hrest⟩ := Prod.mk.inj hlog
  obtain ⟨hcreators, hjob⟩ := Prod.mk.inj hrest
  obtain ⟨w, hw, houtcome⟩ := Option.bind_eq_some_iff.mp hjob
  rw [Work.outcome?_eq_some.mp houtcome] at hw
  refine ⟨log, crew, run_of_play hrun, hhandlers, hcreators, hw, ?_⟩
  refine ((first_delivery_owned rfl rfl rfl (run_of_play hrun)).1 fun errand herrand => ?_).1
  rcases herrand with herrand | hbegan
  · rw [List.eq_of_mem_replicate herrand]
    rfl
  · exact absurd hbegan (not_began_of_play hrun errand)

end Crew

end EventRelay
