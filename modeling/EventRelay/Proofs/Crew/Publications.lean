import EventRelay.Proofs.Crew.Habits
import EventRelay.Proofs.Crew.Turns
import EventRelay.Proofs.Producer.Account

/-!
# Publications by several workers

Workers of one owner group that publish events over a ledger which begins empty, the same event or
different ones.  They go on from one row with copies of their own, send in any order, and nobody looks
at what the ledger says to the note in the end.  Still there is one row for an event, its `success` is
the note of a worker whose sending worked, and nothing is written on it any more: the ledger takes no
copy for a finished row, and none of these workers deletes one (`Chart.Publishing`).

What a single worker gives follows from its own history alone (`Producer.Gave`), whatever the others do.
-/

namespace EventRelay

def Errand.Publishes (group : String) : Errand → Prop
  | .publish p _ => p.config.ownerGroup = group
  | .deliver _ _ | .redeliver _ _ | .scan _ _ | .replay _ _ => False

theorem Errand.Publishes.cases {group : String} {errand : Errand} (h : errand.Publishes group) :
    ∃ p event, errand = .publish p event ∧ p.config.ownerGroup = group := by
  cases errand with
  | publish p event => exact ⟨p, event, rfl, h⟩
  | deliver | redeliver | scan | replay => exact h.elim

theorem Store.Overflows.of_update {s s' : Store} {r : Record} {o : Overflow}
    (h : s.Overflows (.update r) o s') :
    ∃ stored, s.find? r.key = some stored ∧ stored.version = r.version ∧ ¬ r.Revisable := by
  have hupdate : s.update r = (.error o, s') := h
  unfold Store.update at hupdate
  split at hupdate
  · cases hupdate
  · rename_i stored hfind
    split at hupdate
    · rename_i hguard
      refine ⟨stored, hfind, hguard.1, fun hrevisable => ?_⟩
      rw [Record.revise_of_revisable hrevisable] at hupdate
      cases hupdate
    · cases hupdate

/-! ### The ledger of publications -/

def Delivered (log : List Entry) (eventId : String) : Prop :=
  ∃ i event, Entry.asked i (.send event) (.ok ()) ∈ log ∧ event.id = eventId

theorem Delivered.concat {log : List Entry} {eventId : String} (h : Delivered log eventId)
    (entry : Entry) : Delivered (log ++ [entry]) eventId := by
  obtain ⟨i, event, hmem, hid⟩ := h
  exact ⟨i, event, List.mem_append_left _ hmem, hid⟩

/-- The rows of a ledger that is used for publishing only. -/
structure Store.Published (group : String) (log : List Entry) (s : Store) : Prop where
  keyed : s.Keyed
  keys : ∀ r ∈ s.rows, r.key = .active r.eventId .publish group
  delivered : ∀ r ∈ s.rows, r.status = .success → Delivered log r.eventId
  counted : ∀ r ∈ s.rows, 0 ≤ r.version ∧ r.version ≤ log.length

def Post.Publishes (group : String) (log : List Entry) : Post → Prop
  | .publication p event stage =>
    p.config.ownerGroup = group ∧ (∀ r, stage.copy? = some r → r.key = p.key event.id) ∧
      ∀ r outcome, stage = .noting r .succeeded outcome → Delivered log event.id
  | .crashed => greatestInt64 ≤ log.length
  | .delivery _ _ _ | .selecting _ _ | .selected _ _ => False

theorem Post.Publishes.concat {group : String} {log : List Entry} {post : Post}
    (h : post.Publishes group log) (entry : Entry) : post.Publishes group (log ++ [entry]) := by
  cases post with
  | publication p event stage =>
    exact ⟨h.1, h.2.1, fun r outcome hstage => (h.2.2 r outcome hstage).concat entry⟩
  | crashed =>
    have h : greatestInt64 ≤ log.length := h
    show greatestInt64 ≤ ((log ++ [entry]).length : Nat)
    rw [List.length_append]
    omega
  | delivery | selecting | selected => exact h.elim

theorem Errand.Publishes.post {group : String} {errand : Errand} (h : errand.Publishes group)
    (log : List Entry) : errand.post.Publishes group log := by
  obtain ⟨p, event, rfl, hgroup⟩ := h.cases
  refine ⟨hgroup, fun r hr => ?_, fun r outcome hstage => ?_⟩
  · cases hr
  · cases hstage

theorem Producer.Moves.copy_key {s s' : Store} {p : Producer} {event : Event}
    {stage stage' : Stage} {request : Request} {reply : request.Reply}
    (h : Moves p event stage request reply stage') (hreply : s.Replies request reply s')
    (hcopy : ∀ r, stage.copy? = some r → r.key = p.key event.id) :
    ∀ r, stage'.copy? = some r → r.key = p.key event.id := by
  intro r hr
  cases h with
  | duplicate | unable | noted | sentUnrecorded | clock => cases hr
  | created =>
    obtain rfl := Option.some.inj hr
    rcases hreply.creation with ⟨winner, hcreation, -⟩ | hcreation
    · cases hcreation
    · cases hcreation
      rfl
  | known hother =>
    obtain rfl := Option.some.inj hr
    rcases hreply.creation with ⟨winner, hcreation, hfind⟩ | hcreation
    · cases hcreation
      exact Store.key_of_find? hfind
    · cases hcreation
  | sent | deferred | clockNoting => exact hcopy r hr

namespace Chart

/-- Workers that publish, and their ledger. -/
structure Publishing (group : String) (log : List Entry) (chart : Chart) : Prop where
  store : chart.store.Published group log
  posts : ∀ (i : Nat) post, chart.posts[i]? = some post → post.Publishes group log

variable {group : String} {log log' : List Entry} {chart chart' : Chart} {entry : Entry}

theorem Publishing.of_update (h : Publishing group log chart) {i : Nat} {next : Record}
    {reply : Except Error Bool} (hstep : chart.Step (.asked i (.update next) reply) chart') :
    ∃ p event r t outcome now, p.config.ownerGroup = group ∧ r.key = p.key event.id ∧
      r.transition t now = .ok next ∧ (t = .succeeded → Delivered log event.id) ∧
        chart.posts[i]? = some (.publication p event (.noting r t outcome)) := by
  obtain ⟨post, post', hpost, -, -, hmove⟩ := hstep.of_asked
  have hknown := h.posts i post hpost
  cases hmove with
  | delivery => exact hknown.elim
  | @publication p event stage stage' _ _ hmove =>
    obtain ⟨hgroup, hcopy, hdelivered⟩ := hknown
    cases hmove with
    | noted hnext =>
      exact ⟨p, event, _, _, _, _, hgroup, hcopy _ rfl, hnext,
        fun ht => hdelivered _ _ (by rw [ht]), hpost⟩

theorem Publishing.not_cleared (h : Publishing group log chart) (hstep : chart.Step entry chart') :
    entry.cleared? = none := by
  cases hcleared : entry.cleared? with
  | none => rfl
  | some key =>
    have hnobody : ∀ {i : Nat} {post post' : Post} {r : Record} {now : Instant},
        chart.posts[i]? = some post → ¬ post.Moves (.tombstone r now) (.ok true) post' := by
      intro i post post' r now hpost hmove
      obtain ⟨c, event, rfl⟩ := Post.reopening_of_moves hmove
      exact h.posts i _ hpost
    obtain ⟨i, r, now, -, rfl | rfl⟩ := Entry.of_cleared? hcleared
    · obtain ⟨post, post', hpost, -, -, hmove⟩ := hstep.of_asked
      exact absurd hmove (hnobody hpost)
    · obtain ⟨post, o, hpost, -, hmove⟩ := hstep.of_crashed
      obtain ⟨post', hmove⟩ := hmove (.ok true)
      exact absurd hmove (hnobody hpost)

theorem Publishing.store_step (h : Publishing group log chart) (hstep : chart.Step entry chart') :
    chart'.store.Published group (log ++ [entry]) := by
  have heffect := hstep.effect
  have hclear := h.not_cleared hstep
  have hkeyed := heffect.keyed h.store.keyed
  have hlength : ((log ++ [entry]).length : Int) = log.length + 1 := by simp
  -- what was known of a row is still known of it
  have hold : ∀ r ∈ chart.store.rows, r.key = .active r.eventId .publish group ∧
      (r.status = .success → Delivered (log ++ [entry]) r.eventId) ∧
        0 ≤ r.version ∧ r.version ≤ (log ++ [entry]).length := by
    intro r hr
    have hcounted := h.store.counted r hr
    exact ⟨h.store.keys r hr, fun hsuccess => (h.store.delivered r hr hsuccess).concat entry,
      hcounted.1, by omega⟩
  suffices hrows : ∀ r ∈ chart'.store.rows, r.key = .active r.eventId .publish group ∧
      (r.status = .success → Delivered (log ++ [entry]) r.eventId) ∧
        0 ≤ r.version ∧ r.version ≤ (log ++ [entry]).length from
    ⟨hkeyed, fun r hr => (hrows r hr).1, fun r hr => (hrows r hr).2.1, fun r hr => (hrows r hr).2.2⟩
  intro r hr
  generalize hs : chart'.store = s' at heffect hr
  cases heffect with
  | unchanged => exact hold r hr
  | @created i draft hfree =>
    rcases List.mem_append.mp hr with hr | hr
    · exact hold r hr
    · obtain rfl := List.mem_singleton.mp hr
      obtain ⟨post, post', hpost, -, -, hmove⟩ := hstep.of_asked
      have hknown := h.posts i post hpost
      cases hmove with
      | delivery => exact hknown.elim
      | publication hmove =>
        cases hmove with
        | created =>
          refine ⟨congrArg (Key.active _ .publish) hknown.1, fun hsuccess => ?_, Int.le_refl 0,
            Int.natCast_nonneg _⟩
          cases hsuccess
  | @updated i next stored hfind hversion hopen =>
    rcases Store.mem_replace hr with rfl | ⟨hr, -⟩
    · obtain ⟨p, event, row, t, outcome, now, hgroup, hkey, hnext, hdelivered, -⟩ :=
        h.of_update hstep
      have hnextkey : next.key = p.key event.id := (Record.key_transition hnext).trans hkey
      have heventId : next.eventId = event.id := congrArg Key.eventId hnextkey
      have hcounted := h.store.counted stored (Store.mem_of_find? hfind)
      refine ⟨?_, fun hsuccess => ?_, ?_⟩
      · show next.key = .active next.eventId .publish group
        rw [hnextkey, heventId, ← hgroup]
        rfl
      · have hstatus : t.status = .success := (Record.status_transition hnext).symm.trans hsuccess
        have ht : t = .succeeded := by
          cases t <;> first | rfl | cases hstatus
        show Delivered _ next.eventId
        rw [heventId]
        exact (hdelivered ht).concat _
      · show 0 ≤ next.version + 1 ∧ next.version + 1 ≤ _
        omega
    · exact hold r hr
  | deleted | lost => cases hclear

theorem Publishing.posts_step (h : Publishing group log chart) (hstep : chart.Step entry chart')
    (hbegan : ∀ errand, entry = .began errand → errand.Publishes group) :
    ∀ (i : Nat) post, chart'.posts[i]? = some post → post.Publishes group (log ++ [entry]) := by
  intro i post hpost
  cases hstep.came hpost with
  | stayed hold => exact (h.posts i post hold).concat entry
  | @moved old _ request reply hentry hold hreply hmove =>
    have hknown := h.posts i old hold
    cases hmove with
    | delivery | clock | selected => exact hknown.elim
    | publication hmove =>
      obtain ⟨hgroup, hcopy, hdelivered⟩ := hknown
      refine ⟨hgroup, hmove.copy_key hreply hcopy, fun r outcome hstage => ?_⟩
      cases hmove with
      | sent =>
        exact ⟨i, _, List.mem_append_right _ (List.mem_singleton.mpr hentry.symm), rfl⟩
      | clockNoting => exact (hdelivered r outcome hstage).concat entry
      | created | duplicate | known | unable | deferred | noted | sentUnrecorded | clock =>
        cases hstage
  | joined hpost hentry => exact hpost ▸ (hbegan _ hentry).post _
  | handed hpost hentry hold | emptied hpost hentry hold => exact (h.posts _ _ hold).elim
  | @crashed request _ hpost hentry =>
    subst hpost hentry
    obtain ⟨old, o, hold, hover, hmove⟩ := hstep.of_crashed
    have hlength : ((log ++ [Entry.crashed i request]).length : Int) = log.length + 1 := by simp
    show greatestInt64 ≤ _
    rcases hover.request_cases with ⟨r, rfl, -⟩ | ⟨r, now, rfl⟩
    · -- the version of the row was counted up to its bound
      obtain ⟨stored, hfind, hversion, hrevisable⟩ := hover.of_update
      have hcounted := h.store.counted stored (Store.mem_of_find? hfind)
      unfold Record.Revisable leastInt64 at hrevisable
      omega
    · have hclear := h.not_cleared hstep
      cases hclear

theorem Publishing.step (h : Publishing group log chart) (hstep : chart.Step entry chart')
    (hbegan : ∀ errand, entry = .began errand → errand.Publishes group) :
    Publishing group (log ++ [entry]) chart' :=
  ⟨h.store_step hstep, h.posts_step hstep hbegan⟩

/-- **What a run preserves**, and that a row which says that its event was sent stays as it is. -/
theorem Publishing.run (h : Publishing group log chart) (hrun : chart.Run log' chart')
    (hbegan : ∀ errand, Entry.began errand ∈ log' → errand.Publishes group) :
    Publishing group (log ++ log') chart' ∧
      ∀ key r, chart.store.find? key = some r → r.status = .success →
        chart'.store.find? key = some r := by
  induction hrun with
  | start => exact ⟨(List.append_nil log).symm ▸ h, fun key r hfind _ => hfind⟩
  | @step log' mid chart' entry prior hstep ih =>
    obtain ⟨hmid, hkept⟩ := ih fun errand hmem => hbegan errand (List.mem_append_left _ hmem)
    refine ⟨?_, fun key r hfind hsuccess => ?_⟩
    · rw [← List.append_assoc]
      exact hmid.step hstep fun errand hentry =>
        hbegan errand (List.mem_append_right _ (List.mem_singleton.mpr hentry.symm))
    · have hfind' := hkept key r hfind hsuccess
      have hmarker : key.deleteMarker = 0 := by
        have hkey := hmid.store.keys r (Store.mem_of_find? hfind')
        rw [← Store.key_of_find? hfind', hkey]
        rfl
      have hcleared : entry.cleared? ≠ some key := by
        rw [hmid.not_cleared hstep]
        nofun
      rcases hstep.effect.find_next hmarker hfind' hcleared with
        ⟨i, next, -, -, -, hopen, -⟩ | ⟨-, hsame⟩
      · rw [hsuccess] at hopen
        cases hopen
      · exact hsame

theorem publishing_start {errands : List Errand}
    (herrands : ∀ errand ∈ errands, errand.Publishes group) :
    Publishing group [] ⟨.empty, errands.map Errand.post⟩ where
  store := ⟨Store.keyed_empty, List.forall_mem_nil _, List.forall_mem_nil _, List.forall_mem_nil _⟩
  posts i post hpost := by
    obtain ⟨errand, hmem, rfl⟩ := List.mem_map.mp (List.mem_of_getElem? hpost)
    exact (herrands errand hmem).post []

end Chart

theorem Store.Published.length_le {group : String} {log : List Entry} {s : Store}
    (h : s.Published group log) (eventId : String) :
    (s.rows.filter fun r => r.action = .publish ∧ r.eventId = eventId).length ≤ 1 := by
  have hrows : s.rows.Nodup := List.Nodup.of_map _ h.keyed
  refine length_le_one_of_nodup (hrows.filter _) fun x hx y hy => ?_
  obtain ⟨hx, hxid⟩ := List.mem_filter.mp hx
  obtain ⟨hy, hyid⟩ := List.mem_filter.mp hy
  refine h.keyed.eq_of_key hx hy ?_
  rw [h.keys x hx, h.keys y hy, (of_decide_eq_true hxid).2, (of_decide_eq_true hyid).2]

/-! ### What a worker gives -/

theorem Producer.within_note (r : Record) (t : Transition) (outcome : Outcome) :
    ((r.write t).bind fun _ => .done outcome).Within 2 := by
  intro now
  show (Work.bind (match r.transition t now with | _ => _) _).Within 1
  cases r.transition t now with
  | error e => trivial
  | ok next =>
    intro reply
    match reply with
    | .ok true => trivial
    | .ok false => trivial
    | .error e => trivial

theorem Producer.within_send (event : Event) (r : Record) : (send event r).Within 3 := by
  intro reply
  match reply with
  | .ok () => exact within_note r _ _
  | .error e => exact within_note r _ _

/-- **A publication takes five requests at most.** -/
theorem Producer.within_publish (p : Producer) (event : Event) : (p.publish event).Within 5 := by
  intro now reply
  match reply with
  | .ok (.created r) => exact within_send event r
  | .ok (.existing r) =>
    show (if r.status = .success then Work.done Outcome.duplicate else send event r).Within 3
    split
    · trivial
    · exact within_send event r
  | .error e => exact fun sent => trivial

namespace Crew

/-- Where a publication has come to by its history, and that it goes on from there or has crashed on
the way. -/
def Publishing (errand : Errand) (history : List Asked) (w : Work Report) : Prop :=
  ∀ p event, errand = .publish p event →
    ∃ stage, Producer.Told event (creations history) (sends history) stage ∧
      (w.Follows Post.course Post.Ends (.publication p event stage) ∨
        (∃ text, w = .crash text) ∧ ∀ outcome, stage ≠ .ended outcome)

theorem habit_publishing : Habit Publishing where
  start errand p event herrand := by
    subst herrand
    exact ⟨.recording, .recording, .inl (Errand.follows _)⟩
  ask {errand history request next} h reply p event herrand := by
    obtain ⟨stage, htold, hfollows | ⟨⟨text, hcrash⟩, -⟩⟩ := h p event herrand
    · obtain ⟨post', hmove, hnext⟩ := hfollows reply
      cases hmove with
      | publication hmove => exact ⟨_, htold.move hmove, .inl hnext⟩
    · cases hcrash
  crash {errand history request next} h text p event herrand := by
    obtain ⟨stage, htold, hfollows | ⟨⟨text', hcrash⟩, -⟩⟩ := h p event herrand
    · refine ⟨stage, htold, .inr ⟨⟨text, rfl⟩, ?_⟩⟩
      rintro outcome rfl
      obtain ⟨post', hmove, -⟩ := hfollows request.answer
      cases hmove with
      | publication hmove => cases hmove
    · cases hcrash
  emptied {errand history q rows} h p event herrand := by
    obtain ⟨stage, htold, hfollows | ⟨⟨text, hcrash⟩, -⟩⟩ := h p event herrand
    · cases hfollows
    · cases hcrash

theorem done_of_ended {p : Producer} {event : Event} {outcome : Producer.Outcome} {w : Work Report}
    (h : w.Follows Post.course Post.Ends (.publication p event (.ended outcome))) :
    w = .done (.publication outcome) := by
  cases w with
  | done report =>
    cases h with
    | publication h =>
      cases h
      rfl
  | crash text => cases h
  | ask request next =>
    obtain ⟨post', hmove, -⟩ := h request.answer
    cases hmove with
    | publication hmove => cases hmove

/-- **Publications by several workers agree.**  For any number of workers of one owner group, whatever
the transport and a faulty ledger answer, and wherever the run stops: there is one row for an event at
most.  A row says that its event was sent only when a worker has sent it, and then it stays as it is.
Each worker hands its event to the transport once at most.  It is done with a duplicate as soon as it
is given a row that says so, and whenever it ends otherwise it has handed its event over once; it
reports that nothing was recorded exactly if it could not create a row.  It is over after five
requests, unless the version of a row cannot be counted up, which takes the greatest number of steps. -/
theorem publications_agree {group : String} {errands : List Errand} {log : List Entry} {crew : Crew}
    (herrands : ∀ errand ∈ errands, errand.Publishes group)
    (hbegan : ∀ errand, Entry.began errand ∈ log → errand.Publishes group)
    (hrun : (waiting .empty errands).Run log crew) :
    (∀ eventId, (crew.store.rows.filter fun r =>
      r.action = .publish ∧ r.eventId = eventId).length ≤ 1) ∧
    (∀ r ∈ crew.store.rows, r.action = .publish → r.status = .success →
      (∃ i event, Entry.asked i (.send event) (.ok ()) ∈ log ∧ event.id = r.eventId) ∧
      ∀ log' crew', crew.Run log' crew' →
        (∀ errand, Entry.began errand ∈ log' → errand.Publishes group) → r ∈ crew'.store.rows) ∧
    ∀ (i : Nat) p event w, (roster errands log)[i]? = some (.publish p event) →
      crew.jobs[i]? = some w →
      (sends (asksOf i log)).length ≤ 1 ∧
      (∀ r, .ok (.existing r) ∈ creations (asksOf i log) → r.status = .success →
        w = .done (.publication .duplicate) ∧ sends (asksOf i log) = []) ∧
      (∀ report, w = .done report → ∃ outcome, report = .publication outcome ∧
        (outcome = .duplicate ↔
          ∃ r, .ok (.existing r) ∈ creations (asksOf i log) ∧ r.status = .success) ∧
        (outcome ≠ .duplicate → ∃ reply, sends (asksOf i log) = [(event, reply)]) ∧
        ((∃ delivered, outcome = .unrecorded delivered) ↔
          ∃ e, .error e ∈ creations (asksOf i log))) ∧
      (asksOf i log).length ≤ 5 ∧ ∀ text, w = .crash text → greatestInt64 ≤ log.length := by
  obtain ⟨chart, hchart, hcharted⟩ := hrun.charted (charted_waiting .empty errands)
  obtain ⟨hpublishing, -⟩ := (Chart.publishing_start herrands).run hchart hbegan
  rw [List.nil_append] at hpublishing
  have hstore := hpublishing.store
  rw [hcharted.store] at hstore
  refine ⟨hstore.length_le, fun r hr _ hsuccess => ⟨hstore.delivered r hr hsuccess, ?_⟩, ?_⟩
  · intro log' crew' hrun' hbegan'
    obtain ⟨chart', hchart', hcharted'⟩ := hrun'.charted hcharted
    obtain ⟨-, hkept⟩ := hpublishing.run hchart' hbegan'
    have hfind := hkept r.key r (by rw [hcharted.store]; exact hstore.keyed.find? hr) hsuccess
    rw [hcharted'.store] at hfind
    exact Store.mem_of_find? hfind
  · intro i p event w herrand hjob
    obtain ⟨stage, htold, hleft⟩ := habit_publishing.run hrun i _ w herrand hjob p event rfl
    obtain ⟨left, hlength, -⟩ := (habit_within 5).run hrun i _ w herrand hjob
      ((Producer.within_publish p event).map _)
    refine ⟨htold.length_le, fun r hr hsuccess => ?_, fun report hdone => ?_, ?_, ?_⟩
    · obtain ⟨rfl, hsent⟩ := htold.known hr hsuccess
      rcases hleft with hends | ⟨-, hopen⟩
      · exact ⟨done_of_ended hends, hsent⟩
      · exact absurd rfl (hopen .duplicate)
    · subst hdone
      rcases hleft with hends | ⟨⟨text, hcrash⟩, -⟩
      · cases hends with
        | publication hends =>
          have hgave := htold.gave hends
          exact ⟨_, rfl, hgave.eq_duplicate_iff, hgave.sent_of_ne_duplicate, hgave.unrecorded_iff⟩
      · cases hcrash
    · exact Nat.le_trans (Nat.le_add_right _ left) hlength
    · rintro text rfl
      obtain ⟨post, hpost, hfollows⟩ := hcharted.post hjob
      have hknown := hpublishing.posts i post hpost
      cases hfollows with
      | delivery hcrash => exact hknown.elim
      | crashed => exact hknown

/-- A producer of events without a payload. -/
def herald : Producer := ⟨{ ownerGroup := "g" }, ⟨fun _ => .ok [], fun _ _ => .ok .null⟩⟩

/-- Two workers have the row of one event, and the first one has sent it.  Whatever the transport
tells the second one, the row stays as the first has left it. -/
theorem publications_agree_second :
    ∃ log crew row, (waiting .empty (List.replicate 2 (.publish herald parcel))).Run log crew ∧
      crew.store.rows = [row] ∧ row.status = .success ∧ sends (asksOf 1 log) = [] ∧
      ∀ later crew', crew.Run later crew' →
        (∀ errand, Entry.began errand ∈ later → errand.Publishes "g") → row ∈ crew'.store.rows := by
  have hplay : ((waiting .empty (List.replicate 2 (.publish herald parcel))).play
      (turns 2 0 .ok ++ turns 2 1 .ok ++ turns 3 0 .ok)).map (fun p =>
        (p.2.store.rows.map fun r => (r.status, r.action), (sends (asksOf 1 p.1)).length)) =
      some ([(.success, .publish)], 0) := by decide
  obtain ⟨⟨log, crew⟩, hrun, heq⟩ := Option.map_eq_some_iff.mp hplay
  obtain ⟨hrows, hnone⟩ := Prod.mk.inj heq
  obtain ⟨row, hrow, hcolumns⟩ := List.map_eq_singleton_iff.mp hrows
  obtain ⟨hsuccess, haction⟩ := Prod.mk.inj hcolumns
  have herrands : ∀ errand ∈ List.replicate 2 (Errand.publish herald parcel),
      errand.Publishes "g" := fun errand herrand => List.eq_of_mem_replicate herrand ▸ rfl
  obtain ⟨-, hkept, -⟩ := publications_agree herrands
    (fun errand hmem => absurd hmem (not_began_of_play hrun errand)) (run_of_play hrun)
  exact ⟨log, crew, row, run_of_play hrun, hrow, hsuccess, List.length_eq_zero_iff.mp hnone,
    (hkept row (by rw [hrow]; exact List.mem_singleton_self _) haction hsuccess).2⟩

end Crew

end EventRelay
