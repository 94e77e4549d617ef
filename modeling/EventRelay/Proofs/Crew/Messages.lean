import EventRelay.Proofs.Crew.Dispatches
import EventRelay.Proofs.Ledger.Truncation

/-!
# How long stored messages are

Errors of handlers, panics and errors of the transport are texts of any length, and all of them are
cut before they are stored.  What stands on a row is such a cut text, perhaps behind one of two fixed
beginnings, and so of at most 536 characters (`Message.Composed.length_le`).  One message is made in
another way: a row of an event that no handler takes names the type of the event in full.

`Chart.Worded` follows this along runs: which types are named is told from the events that workers
deliver, and these come from outside or are made again from rows.  `Crew.messages_bounded_iff` draws
the line.
-/

namespace EventRelay

/-! ### Messages -/

/-- A cut text, or one behind a fixed beginning. -/
inductive Message.Composed : String → Prop
  | cut (text : String) : Composed (truncate text)
  | exhausted (text : String) : Composed (Consumer.exhausted ++ truncate text)
  | aborted (text : String) : Composed ("replay aborted: " ++ truncate text)

namespace Message

/-- **Composed messages are bounded.**  The longest beginning has 22 characters, a text is cut after
500, and the marker has 14. -/
theorem Composed.length_le {m : String} (h : Composed m) : m.length ≤ 22 + 500 + 14 := by
  have hcut (text : String) : (truncate text).length ≤ 500 + 14 := length_truncate_le text
  cases h with
  | cut text => exact Nat.le_trans (hcut text) (by decide)
  | exhausted text =>
    rw [String.length_append, Nat.add_assoc]
    exact Nat.add_le_add (show Consumer.exhausted.length ≤ 22 by decide) (hcut text)
  | aborted text =>
    rw [String.length_append, Nat.add_assoc]
    exact Nat.add_le_add (by decide) (hcut text)

end Message

/-- What is stored about an event of a type that no handler takes. -/
def Consumer.unmatched (type : String) : String :=
  "no handler matched event type " ++ type

theorem Consumer.length_unmatched (type : String) :
    (unmatched type).length = 30 + type.length :=
  String.length_append _ _

/-- A message is composed, or the row has failed with it as no handler took its event, the type of
which is one of `Q`. -/
def Message.Worded (Q : String → Prop) (status : Status) (m : String) : Prop :=
  Composed m ∨ status = .failed ∧ ∃ type, Q type ∧ m = Consumer.unmatched type

def Transition.message? : Transition → Option String
  | .succeeded | .claimed _ => none
  | .retryScheduled _ _ message | .deliveryDeferred message | .failed message => some message

def Transition.Worded (Q : String → Prop) (t : Transition) : Prop :=
  ∀ m, t.message? = some m → Message.Worded Q t.status m

/-- What is known of the message of a row, and of the type that a message about it might name. -/
structure Record.Worded (Q : String → Prop) (r : Record) : Prop where
  message : ∀ m, r.message = some m → Message.Worded Q r.status m
  type : r.action = .consume → Q r.eventType

section Worded

variable {Q : String → Prop} {r next : Record} {t : Transition}

theorem Record.Worded.of_fresh (hmessage : r.message = none)
    (htype : r.action = .consume → Q r.eventType) : r.Worded Q where
  message m hm := by
    rw [hmessage] at hm
    cases hm
  type := htype

/-- A message that a transition leaves is not that of a failed row, which makes no transition. -/
theorem Record.Worded.transition {now : Instant} (h : r.Worded Q) (ht : t.Worded Q)
    (hnext : r.transition t now = .ok next) : next.Worded Q where
  message m hm := by
    obtain ⟨hstep, rfl⟩ := transition_cases hnext
    cases t with
    | succeeded => cases hm
    | claimed lease =>
      rcases h.message m hm with hcomposed | ⟨hfailed, -⟩
      · exact .inl hcomposed
      · rw [hfailed] at hstep
        cases hstep
    | retryScheduled n time message | deliveryDeferred message | failed message => exact ht m hm
  type haction := by
    have horigin := origin_transition hnext
    have htype : next.eventType = r.eventType := congrArg Origin.eventType horigin
    rw [htype]
    exact h.type ((congrArg Origin.action horigin).symm.trans haction)

theorem Record.Worded.deleted (h : r.Worded Q) (now : Instant) : (r.deleted now).Worded Q :=
  ⟨h.message, h.type⟩

theorem Record.Worded.revised (h : r.Worded Q) : r.revised.Worded Q :=
  ⟨h.message, h.type⟩

theorem Transition.worded_claimed (lease : Instant) : (Transition.claimed lease).Worded Q := by
  intro m hm
  cases hm

/-- **What an attempt is concluded with.**  All texts are cut, except for the type of an event that
nobody takes. -/
theorem Consumer.Settles.worded {c : Consumer} {event : Event} {attempt : Attempt}
    {outcome : Outcome} (h : Settles c event r attempt t outcome) (htype : Q event.eventType) :
    t.Worded Q := by
  intro m hm
  cases h with
  | unhandled =>
    cases hm
    exact .inr ⟨rfl, event.eventType, htype, rfl⟩
  | succeeded hverdict => cases hm
  | rescheduled hverdict hallows hcount htime =>
    cases hm
    exact .inl (.cut _)
  | exhausted hverdict hallows =>
    cases hm
    exact .inl (.exhausted _)
  | abandoned =>
    cases hm
    exact .inl (.aborted _)

end Worded

/-! ### Workers -/

/-- What a worker may write is worded, and so are the copies that it writes it on. -/
def Post.Worded (Q : String → Prop) : Post → Prop
  | .delivery _ event stage => Q event.eventType ∧ ∀ r, stage.copy? = some r → r.Worded Q
  | .publication _ _ (.sending r) => r.Worded Q
  | .publication _ _ (.noting r t _) => r.Worded Q ∧ t.Worded Q
  | .selected _ (.ok rows) => ∀ r ∈ rows, r.Worded Q ∧ r.action = .consume
  | _ => True

/-- What comes from outside, delivering only events of such types. -/
def Errand.Within (Q : String → Prop) : Errand → Prop
  | .deliver _ event | .redeliver _ event => Q event.eventType
  | .publish _ _ | .scan _ _ => True
  | .replay _ _ => False

theorem Replayer.eventType_of_rebuild {p : Replayer} {r : Record} {event : Event}
    (h : p.rebuild r = .ok event) : event.eventType = r.eventType := by
  unfold rebuild at h
  split at h
  · cases h
  · rename_i bytes _
    cases hdecode : p.codec.decode bytes r.eventType with
    | error e =>
      rw [hdecode] at h
      cases h
    | ok payload =>
      rw [hdecode] at h
      cases h
      rfl

section Posts

variable {Q : String → Prop} {s s' : Store} {request : Request} {reply : request.Reply}

theorem Errand.Within.worded {errand : Errand} (h : errand.Within Q) : errand.post.Worded Q := by
  cases errand with
  | deliver c event | redeliver c event => exact ⟨h, fun r hr => by cases hr⟩
  | publish p event | scan p batch => trivial
  | replay p r => exact h.elim

theorem Record.Worded.replay {r : Record} (h : r.Worded Q) (haction : r.action = .consume)
    (p : Replayer) : (Errand.replay p r).post.Worded Q := by
  cases hrebuild : p.rebuild r with
  | ok event =>
    rw [Errand.post_replay hrebuild]
    refine ⟨?_, fun copy hcopy => by cases hcopy⟩
    rw [Replayer.eventType_of_rebuild hrebuild]
    exact h.type haction
  | error e =>
    rw [Errand.post_replay_error hrebuild]
    refine ⟨h.type haction, fun copy hcopy => ?_⟩
    obtain rfl := Option.some.inj hcopy
    exact h

theorem Consumer.Moves.worded {c : Consumer} {event : Event} {stage stage' : Consumer.Stage}
    (hmove : Consumer.Moves c event stage request reply stage') (htype : Q event.eventType)
    (hcopies : ∀ r, stage.copy? = some r → r.Worded Q) (hs : ∀ r ∈ s.rows, r.Worded Q)
    (hreply : s.Replies request reply s') : ∀ r, stage'.copy? = some r → r.Worded Q := by
  intro r hr
  cases hmove with
  | missing | unknown | passed | beaten | freed | kept | unclaimed | concluded | gaveUp | refused
  | consulted | notified | fault => cases hr
  | reopened | resumed | met =>
    obtain rfl := Option.some.inj hr
    exact hs _ (Store.mem_of_find? hreply.found.1.symm)
  | created hpayload =>
    obtain rfl := Option.some.inj hr
    rcases hreply.creation with ⟨winner, hcreation, -⟩ | hcreation
    · cases hcreation
    · cases hcreation
      exact .of_fresh rfl fun _ => htype
  | second hpayload hcreated =>
    obtain rfl := Option.some.inj hr
    rcases hreply.creation with ⟨winner, hcreation, hfind⟩ | hcreation
    · cases hcreation
      exact hs _ (Store.mem_of_find? hfind)
    · cases hcreation
  | claimed hnext =>
    obtain rfl := Option.some.inj hr
    exact ((hcopies _ rfl).transition (Transition.worded_claimed _) hnext).revised
  | questioned | handled => exact hcopies r hr
  | clock htick =>
    rcases Consumer.Stage.tick_cases htick with ⟨copy, verdict, rfl, rfl⟩ | rfl
    · exact hcopies r hr
    · exact hcopies r hr

theorem Post.Worded.move {post post' : Post} (h : post.Worded Q)
    (hs : ∀ r ∈ s.rows, r.Worded Q) (hreply : s.Replies request reply s')
    (hmove : post.Moves request reply post') : post'.Worded Q := by
  cases hmove with
  | delivery hmove => exact ⟨h.1, hmove.worded h.1 h.2 hs hreply⟩
  | publication hmove =>
    cases hmove with
    | duplicate | unable | noted | sentUnrecorded | clock => trivial
    | created =>
      rcases hreply.creation with ⟨winner, hcreation, -⟩ | hcreation
      · cases hcreation
      · cases hcreation
        exact .of_fresh rfl fun haction => by cases haction
    | known hstatus =>
      rcases hreply.creation with ⟨winner, hcreation, hfind⟩ | hcreation
      · cases hcreation
        exact hs _ (Store.mem_of_find? hfind)
      · cases hcreation
    | sent => exact ⟨h, fun m hm => by cases hm⟩
    | deferred =>
      refine ⟨h, fun m hm => ?_⟩
      cases hm
      exact .inl (.cut _)
    | clockNoting => exact h
  | clock => trivial
  | @selected p batch now reply =>
    cases reply with
    | error e => trivial
    | ok rows =>
      intro r hr
      rcases hreply with ⟨hdue, -⟩ | ⟨⟨e, hfails⟩, -⟩
      · rw [Except.ok.inj hdue] at hr
        obtain ⟨hmem, hisdue⟩ := Store.mem_due hr
        exact ⟨hs r hmem, (Record.isDue_iff.mp hisdue).2.1⟩
      · cases hfails

theorem Post.Worded.update {post post' : Post} {next : Record} (h : post.Worded Q)
    (hmove : post.Moves (.update next) (.ok true) post') : next.Worded Q := by
  cases hmove with
  | delivery hmove =>
    cases hmove with
    | claimed hnext => exact (h.2 _ rfl).transition (Transition.worded_claimed _) hnext
    | concluded hsettles hfailed hnext | gaveUp hsettles hnext =>
      exact (h.2 _ rfl).transition (hsettles.worded h.1) hnext
    | fault hfails hs => cases hfails
  | publication hmove =>
    cases hmove with
    | noted hnext => exact h.1.transition h.2 hnext

theorem Post.Worded.create {post post' : Post} {draft r : Record} (h : post.Worded Q)
    (hmove : post.Moves (.create draft) (.ok (.created r)) post') : draft.Worded Q := by
  cases hmove with
  | delivery hmove =>
    cases hmove with
    | created hpayload => exact .of_fresh rfl fun _ => h.1
    | fault hfails hs => cases hfails
  | publication hmove =>
    cases hmove with
    | created => exact .of_fresh rfl fun haction => by cases haction

end Posts

/-! ### Runs -/

namespace Chart

variable {Q : String → Prop} {chart chart' : Chart} {entry : Entry} {log : List Entry}

structure Worded (Q : String → Prop) (chart : Chart) : Prop where
  rows : ∀ r ∈ chart.store.rows, r.Worded Q
  posts : ∀ (i : Nat) post, chart.posts[i]? = some post → post.Worded Q

theorem Worded.rows_step (h : Worded Q chart) (hstep : chart.Step entry chart') :
    ∀ r ∈ chart'.store.rows, r.Worded Q := by
  have heffect := hstep.effect
  intro r hr
  generalize chart'.store = s' at heffect hr
  cases heffect with
  | unchanged hupdate hcreation hcleared => exact h.rows r hr
  | @created i draft hfree =>
    rcases List.mem_append.mp hr with hr | hr
    · exact h.rows r hr
    · rw [List.mem_singleton.mp hr]
      obtain ⟨post, post', hpost, -, -, hmove⟩ := hstep.of_asked
      obtain ⟨hmessage, htype⟩ := (h.posts i post hpost).create hmove
      exact ⟨hmessage, htype⟩
  | @updated i next stored hfind hversion hactive =>
    rcases Store.mem_replace hr with rfl | ⟨hr, -⟩
    · obtain ⟨post, post', hpost, -, -, hmove⟩ := hstep.of_asked
      exact ((h.posts i post hpost).update hmove).revised
    · exact h.rows r hr
  | @deleted i copy stored now hfind hversion =>
    rcases Store.mem_refile hr with rfl | ⟨hr, -, -⟩
    · exact ((h.rows stored (Store.mem_of_find? hfind)).deleted now).revised
    · exact h.rows r hr
  | lost hfind hversion => exact h.rows r (Store.mem_erase.mp hr).1

theorem Worded.posts_step (h : Worded Q chart) (hstep : chart.Step entry chart')
    (hbegan : ∀ errand, entry = .began errand → errand.Within Q) :
    ∀ (i : Nat) post, chart'.posts[i]? = some post → post.Worded Q := by
  intro i post hpost
  cases hstep.came hpost with
  | stayed hold hentry => exact h.posts i post hold
  | moved hentry hold hreply hmove => exact (h.posts i _ hold).move h.rows hreply hmove
  | joined hpost hentry hj => exact hpost ▸ (hbegan _ hentry).worded
  | @handed j p rows r _ hpost hentry hsel hr hj =>
    obtain ⟨hworded, haction⟩ := h.posts j _ hsel r hr
    exact hpost ▸ hworded.replay haction p
  | emptied hpost hentry hsel =>
    exact hpost ▸ fun r hr => absurd hr List.not_mem_nil
  | crashed hpost hentry => exact hpost ▸ trivial

/-- **Along a run nothing else is written on rows.** -/
theorem Worded.run (h : Worded Q chart) (hrun : chart.Run log chart')
    (hbegan : ∀ errand, Entry.began errand ∈ log → errand.Within Q) : Worded Q chart' := by
  induction hrun with
  | start => exact h
  | step prior hstep ih =>
    have hprior := ih fun errand hmem => hbegan errand (List.mem_append_left _ hmem)
    refine ⟨hprior.rows_step hstep, hprior.posts_step hstep fun errand hentry => ?_⟩
    exact hbegan errand (List.mem_append_right _ (List.mem_singleton.mpr hentry.symm))

theorem worded_start {errands : List Errand} (herrands : ∀ errand ∈ errands, errand.Within Q) :
    Worded Q ⟨.empty, errands.map Errand.post⟩ where
  rows r hr := absurd hr List.not_mem_nil
  posts i post hpost := by
    obtain ⟨errand, herrand, rfl⟩ := List.mem_map.mp (List.mem_of_getElem? hpost)
    exact (herrands errand herrand).worded

end Chart

namespace Crew

variable {errands : List Errand} {log : List Entry} {crew : Crew}

/-- Some dispatched event is of this type. -/
def TypeDispatched (errands : List Errand) (log : List Entry) (type : String) : Prop :=
  ∃ event, Dispatched errands log event ∧ event.eventType = type

theorem within_of_takenOn {errand : Errand} (htaken : errand.TakenOn errands log)
    (houtside : errand.FromOutside) : errand.Within (TypeDispatched errands log) := by
  cases errand with
  | deliver c event => exact ⟨event, ⟨c, .inl htaken⟩, rfl⟩
  | redeliver c event => exact ⟨event, ⟨c, .inr htaken⟩, rfl⟩
  | publish p event | scan p batch => trivial
  | replay p r => exact houtside.elim

theorem rows_worded (herrands : ∀ errand ∈ errands, errand.FromOutside)
    (hbegan : ∀ errand, Entry.began errand ∈ log → errand.FromOutside)
    (hrun : (waiting .empty errands).Run log crew) :
    ∀ r ∈ crew.store.rows, r.Worded (TypeDispatched errands log) := by
  obtain ⟨chart, hchart, hcharted⟩ := hrun.charted (charted_waiting .empty errands)
  have hstart : Chart.Worded (TypeDispatched errands log) ⟨.empty, errands.map Errand.post⟩ :=
    Chart.worded_start fun errand herrand =>
      within_of_takenOn (.inl herrand) (herrands errand herrand)
  have hworded := hstart.run hchart fun errand hmem =>
    within_of_takenOn (.inr hmem) (hbegan errand hmem)
  rw [← hcharted.store]
  exact hworded.rows

/-- **Which stored messages are bounded.**  Let any crew deliver, publish and scan on a ledger that
begins empty, where calls to the ledger may fail, handlers, the transport and events may come with
texts of any length, and workers may stop anywhere.  A message has at most 536 characters unless it
names the type of a dispatched event that no handler took, and that type has more than 506.  Only a
failed row has such a message, and any other is a text that was cut after 500 characters, perhaps
behind a fixed beginning. -/
theorem messages_bounded_iff (herrands : ∀ errand ∈ errands, errand.FromOutside)
    (hbegan : ∀ errand, Entry.began errand ∈ log → errand.FromOutside)
    (hrun : (waiting .empty errands).Run log crew) :
    ∀ r ∈ crew.store.rows, ∀ m, r.message = some m →
      (m.length ≤ 22 + 500 + 14 ↔ ∀ event, Dispatched errands log event →
        m = Consumer.unmatched event.eventType → event.eventType.length ≤ 506) ∧
      (22 + 500 + 14 < m.length → r.status = .failed ∧
        ∃ event, Dispatched errands log event ∧ m = Consumer.unmatched event.eventType) ∧
      (Message.Composed m ∨
        ∃ event, Dispatched errands log event ∧ m = Consumer.unmatched event.eventType) := by
  intro r hr m hm
  have hlong : ∀ event : Event, m = Consumer.unmatched event.eventType →
      m.length = 30 + event.eventType.length := by
    rintro event rfl
    exact Consumer.length_unmatched _
  rcases (rows_worded herrands hbegan hrun r hr).message m hm with
    hcomposed | ⟨hfailed, type, ⟨event, hevent, rfl⟩, hunmatched⟩
  · have hle := hcomposed.length_le
    refine ⟨⟨fun _ event hevent hunmatched => ?_, fun _ => hle⟩, fun hlt => by omega,
      .inl hcomposed⟩
    have := hlong event hunmatched
    omega
  · refine ⟨⟨fun hle event hevent hunmatched => ?_, fun hshort => ?_⟩,
      fun _ => ⟨hfailed, event, hevent, hunmatched⟩, .inr ⟨event, hevent, hunmatched⟩⟩
    · have := hlong event hunmatched
      omega
    · have := hlong event hunmatched
      have := hshort event hevent hunmatched
      omega

/-! ### A type in full -/

def idle : Consumer :=
  { clerk 3 with routes := .empty }

def labelled (count : Nat) : Event :=
  { parcel with eventType := String.ofList (List.replicate count 'x') }

theorem length_labelled (count : Nat) : (labelled count).eventType.length = count := by
  rw [labelled, String.length_ofList, List.length_replicate]

/-- **The type of an event that no handler takes is stored as it is**, however long. -/
theorem play_idle (count : Nat) :
    ((waiting .empty [.deliver idle (labelled count)]).play (turns 5 0 .ok)).map
        (fun p => p.2.store.rows.map fun r => (r.status, r.message)) =
      some [(.failed, some (Consumer.unmatched (labelled count).eventType))] := by
  rfl

theorem run_idle (count : Nat) :
    ∃ log crew, (waiting .empty [.deliver idle (labelled count)]).Run log crew ∧
      (∀ errand, Entry.began errand ∉ log) ∧
      ∃ r, crew.store.rows = [r] ∧ r.status = .failed ∧
        r.message = some (Consumer.unmatched (labelled count).eventType) := by
  obtain ⟨⟨log, crew⟩, hrun, hrows⟩ := Option.map_eq_some_iff.mp (play_idle count)
  obtain ⟨r, hr, hcolumns⟩ := List.map_eq_singleton_iff.mp hrows
  obtain ⟨hstatus, hmessage⟩ := Prod.mk.inj hcolumns
  exact ⟨log, crew, run_of_play hrun, not_began_of_play hrun, r, hr, hstatus, hmessage⟩

/-- A type of 506 characters is just short enough. -/
theorem messages_bounded_labelled :
    ∃ log crew, (waiting .empty [.deliver idle (labelled 506)]).Run log crew ∧
      ∃ r ∈ crew.store.rows, ∃ m, r.message = some m ∧ m.length = 536 ∧ m.length ≤ 22 + 500 + 14 := by
  obtain ⟨log, crew, hrun, hbegan, r, hrows, hstatus, hmessage⟩ := run_idle 506
  have hr : r ∈ crew.store.rows := by
    rw [hrows]
    exact List.mem_singleton_self r
  have houtside : ∀ errand ∈ [Errand.deliver idle (labelled 506)], errand.FromOutside := by
    intro errand herrand
    rw [List.mem_singleton.mp herrand]
    trivial
  obtain ⟨hbounded, -, -⟩ := messages_bounded_iff houtside
    (fun errand hmem => absurd hmem (hbegan errand)) hrun r hr _ hmessage
  refine ⟨log, crew, hrun, r, hr, _, hmessage, ?_, hbounded.mpr fun event hevent hunmatched => ?_⟩
  · rw [Consumer.length_unmatched, length_labelled]
  · have hlength := congrArg String.length hunmatched
    rw [Consumer.length_unmatched, Consumer.length_unmatched, length_labelled] at hlength
    omega

/-- A type of 507 characters is too long: the row of an event that nobody takes has a message of 537
characters. -/
theorem message_too_long :
    ∃ log crew, (waiting .empty [.deliver idle (labelled 507)]).Run log crew ∧
      ∃ r ∈ crew.store.rows, r.status = .failed ∧
        ∃ m, r.message = some m ∧ ¬ m.length ≤ 22 + 500 + 14 := by
  obtain ⟨log, crew, hrun, -, r, hrows, hstatus, hmessage⟩ := run_idle 507
  refine ⟨log, crew, hrun, r, ?_, hstatus, _, hmessage, ?_⟩
  · rw [hrows]
    exact List.mem_singleton_self r
  · rw [Consumer.length_unmatched, length_labelled]
    decide

end Crew

end EventRelay
