import EventRelay.Proofs.Consumer.Course
import EventRelay.Proofs.Crew.Basic
import EventRelay.Proofs.Log
import EventRelay.Proofs.Producer.Course

/-!
# Charts of crews

A chart keeps, in the place of each worker's work, the post that the worker has come to on the
course of its errand.  Every step of a crew is a step of its chart (`Crew.Step.charted`), and so
what holds along all runs of charts holds along all runs of crews (`Crew.Run.charted`).  A chart is a
list of stages and a ledger, and an invariant of it can be shown move by move.
-/

namespace EventRelay

inductive Post where
  | delivery (c : Consumer) (event : Event) (stage : Consumer.Stage)
  | publication (p : Producer) (event : Event) (stage : Producer.Stage)
  | selecting (p : Replayer) (batch : Nat)
  | selected (p : Replayer) (rows : Except Error (List Record))
  | crashed

namespace Post

inductive Moves : Post → (request : Request) → request.Reply → Post → Prop
  | delivery {c : Consumer} {event : Event} {s s' : Consumer.Stage} {request : Request}
      {reply : request.Reply} (h : Consumer.Moves c event s request reply s') :
      Moves (.delivery c event s) request reply (.delivery c event s')
  | publication {p : Producer} {event : Event} {s s' : Producer.Stage} {request : Request}
      {reply : request.Reply} (h : Producer.Moves p event s request reply s') :
      Moves (.publication p event s) request reply (.publication p event s')
  | clock {p : Replayer} {batch : Nat} {now : Instant} :
      Moves (.selecting p batch) .now now (.selecting p batch)
  | selected {p : Replayer} {batch : Nat} {now : Instant} {reply : Except Error (List Record)} :
      Moves (.selecting p batch) (.due now batch) reply (.selected p reply)

inductive Ends : Post → Report → Prop
  | delivery {c : Consumer} {event : Event} {s : Consumer.Stage}
      {outcome : Except Error Consumer.Outcome} (h : Consumer.Ends c event s outcome) :
      Ends (.delivery c event s) (.delivery outcome)
  | publication {p : Producer} {event : Event} {s : Producer.Stage} {outcome : Producer.Outcome}
      (h : Producer.Ends s outcome) : Ends (.publication p event s) (.publication outcome)
  | selected {p : Replayer} {rows : Except Error (List Record)} :
      Ends (.selected p rows) (.selection p rows)

inductive Crashes : Post → String → Prop
  | delivery {c : Consumer} {event : Event} {s : Consumer.Stage} {text : String}
      (h : Consumer.Crashes c s text) : Crashes (.delivery c event s) text
  | crashed {text : String} : Crashes .crashed text

def course : Course Post where
  moves := Moves
  crashes := Crashes

theorem not_moves_ended {c : Consumer} {event : Event} {outcome : Except Error Consumer.Outcome}
    {request : Request} {reply : request.Reply} {post' : Post} :
    ¬ Moves (.delivery c event (.ended outcome)) request reply post' := by
  intro h
  cases h with
  | delivery hmove => exact Consumer.not_moves_ended hmove

theorem reopening_of_moves {r : Record} {now : Instant} {post post' : Post}
    (h : post.Moves (.tombstone r now) (.ok true) post') :
    ∃ c event, post = .delivery c event (.reopening r) := by
  cases h with
  | @delivery c event s s' _ _ h =>
    cases h with
    | freed => exact ⟨c, event, rfl⟩
    | fault h hs => cases h
  | publication h => cases h

theorem done_of_ended {c : Consumer} {event : Event} {outcome : Except Error Consumer.Outcome}
    {w : Work Report} (h : w.Follows course Ends (.delivery c event (.ended outcome))) :
    w = .done (.delivery outcome) := by
  cases w with
  | done report =>
    cases h with
    | delivery h =>
      cases h
      rfl
  | crash text =>
    cases h with
    | delivery h => cases h
  | ask request next =>
    obtain ⟨post', hmove, -⟩ := h request.answer
    exact absurd hmove not_moves_ended

end Post

/-- Where the work of an errand begins. -/
def Errand.post : Errand → Post
  | .deliver c event => .delivery c event (.seeking false)
  | .redeliver c event => .delivery c event (.seeking true)
  | .publish p event => .publication p event .recording
  | .scan p batch => .selecting p batch
  | .replay p r =>
    match p.rebuild r with
    | .ok event => .delivery p.consumer event (.seeking true)
    | .error e => .delivery p.consumer (Consumer.remains r) (.holding r (.abandoned e.message))

theorem Errand.post_replay {p : Replayer} {r : Record} {event : Event}
    (h : p.rebuild r = .ok event) :
    (Errand.replay p r).post = .delivery p.consumer event (.seeking true) := by
  simp only [post, h]

theorem Errand.post_replay_error {p : Replayer} {r : Record} {e : Error}
    (h : p.rebuild r = .error e) :
    (Errand.replay p r).post =
      .delivery p.consumer (Consumer.remains r) (.holding r (.abandoned e.message)) := by
  simp only [post, h]

theorem Errand.post_replay_cases (p : Replayer) (r : Record) :
    (∃ event, (Errand.replay p r).post = .delivery p.consumer event (.seeking true)) ∨
      ∃ event reason,
        (Errand.replay p r).post = .delivery p.consumer event (.holding r (.abandoned reason)) := by
  cases hrebuild : p.rebuild r with
  | ok event => exact .inl ⟨event, post_replay hrebuild⟩
  | error e => exact .inr ⟨Consumer.remains r, e.message, post_replay_error hrebuild⟩

theorem follows_report {c : Consumer} {event : Event} {w : Work (Except Error Consumer.Outcome)}
    {s : Consumer.Stage} (hw : w.Follows (Consumer.course c event) (Consumer.Ends c event) s) :
    (w.bind fun outcome => .done (.delivery outcome)).Follows Post.course Post.Ends
      (.delivery c event s) := by
  refine Work.Follows.bind (m := fun post outcome => Post.Ends post (.delivery outcome)) ?_
    fun post outcome hend => hend
  exact hw.widen (Post.delivery c event) (fun _ _ _ _ h => Post.Moves.delivery h)
    (fun _ _ h => Post.Crashes.delivery h) fun _ _ h => Post.Ends.delivery h

/-- **The work of an errand keeps to its course.** -/
theorem Errand.follows (errand : Errand) :
    errand.work.Follows Post.course Post.Ends errand.post := by
  cases errand with
  | deliver c event => exact follows_report (Consumer.follows_deliver c event)
  | redeliver c event => exact follows_report (Consumer.follows_redeliver c event)
  | publish p event =>
    refine Work.Follows.bind (m := fun post outcome => Post.Ends post (.publication outcome)) ?_
      fun post outcome hend => hend
    exact (Producer.follows_publish p event).widen (Post.publication p event)
      (fun _ _ _ _ h => Post.Moves.publication h) (fun _ _ h => False.elim h)
      fun _ _ h => Post.Ends.publication h
  | scan p batch =>
    exact .ask fun now => ⟨_, .clock, .ask fun reply => ⟨_, .selected, .selected⟩⟩
  | replay p r =>
    simp only [work, post, Replayer.replay]
    cases p.rebuild r with
    | ok event => exact follows_report (Consumer.follows_redeliver p.consumer event)
    | error e => exact follows_report (Consumer.follows_abandon p.consumer r e.message)

theorem Replayer.rebuild_eq_ok {p : Replayer} {r : Record} {event : Event}
    (h : p.rebuild r = .ok event) :
    event.id = r.eventId ∧ event.maxRetryOverride = some r.maxRetryTimes := by
  unfold rebuild at h
  split at h
  · cases h
  · rename_i bytes _
    cases hdecode : p.codec.decode bytes r.eventType with
    | error e =>
      rw [hdecode] at h
      cases h
    | ok payload =>
      rw [hdecode] at h
      cases h
      exact ⟨rfl, rfl⟩

theorem Errand.stage_cases {errand : Errand} {c : Consumer} {event : Event} {s : Consumer.Stage}
    (h : errand.post = .delivery c event s) :
    (∃ again, s = .seeking again) ∨ ∃ r reason, s = .holding r (.abandoned reason) := by
  cases errand with
  | deliver c' event' =>
    cases h
    exact .inl ⟨false, rfl⟩
  | redeliver c' event' =>
    cases h
    exact .inl ⟨true, rfl⟩
  | publish p event' => cases h
  | scan p batch => cases h
  | replay p r =>
    rcases post_replay_cases p r with ⟨event', hpost⟩ | ⟨event', reason, hpost⟩
    · rw [hpost] at h
      cases h
      exact .inl ⟨true, rfl⟩
    · rw [hpost] at h
      cases h
      exact .inr ⟨r, reason, rfl⟩

theorem Errand.post_ne_reopening {errand : Errand} {c : Consumer} {event : Event} {r : Record} :
    errand.post ≠ .delivery c event (.reopening r) := by
  intro h
  rcases stage_cases h with ⟨again, hs⟩ | ⟨r', reason, hs⟩
  · cases hs
  · cases hs

theorem Errand.post_ne_ended {errand : Errand} {c : Consumer} {event : Event}
    {outcome : Except Error Consumer.Outcome} :
    errand.post ≠ .delivery c event (.ended outcome) := by
  intro h
  rcases stage_cases h with ⟨again, hs⟩ | ⟨r', reason, hs⟩
  · cases hs
  · cases hs

/-- The copy of a row that a delivery goes on with. -/
def Consumer.Stage.copy? : Stage → Option Record
  | .reopening r | .joining r | .holding r _ => some r
  | .seeking _ | .founding | .notifying _ | .ended _ => none

theorem Consumer.Moves.copy_key {s s' : Store} {c : Consumer} {event : Event}
    {stage stage' : Consumer.Stage} {request : Request} {reply : request.Reply}
    (h : Consumer.Moves c event stage request reply stage') (hreply : s.Replies request reply s')
    (hcopy : ∀ r, stage.copy? = some r → r.key = c.key event.id) :
    ∀ r, stage'.copy? = some r → r.key = c.key event.id := by
  intro r hr
  cases h with
  | missing | unknown | passed | beaten | freed | kept | unclaimed | concluded | gaveUp | refused
  | consulted | notified | fault => cases hr
  | reopened | resumed | met =>
    obtain rfl := Option.some.inj hr
    exact Store.key_of_find? hreply.found.1.symm
  | created hpayload =>
    obtain rfl := Option.some.inj hr
    rcases hreply.creation with ⟨winner, hcreation, -⟩ | hcreation
    · cases hcreation
    · cases hcreation
      rfl
  | second hpayload hcreated =>
    obtain rfl := Option.some.inj hr
    rcases hreply.creation with ⟨winner, hcreation, hfind⟩ | hcreation
    · cases hcreation
      exact Store.key_of_find? hfind
    · cases hcreation
  | claimed hnext =>
    obtain rfl := Option.some.inj hr
    exact (Record.key_transition hnext).trans (hcopy _ rfl)
  | questioned | handled => exact hcopy r hr
  | clock htick =>
    rcases Consumer.Stage.tick_cases htick with ⟨r', verdict, rfl, rfl⟩ | rfl
    · exact hcopy r hr
    · exact hcopy r hr

/-! ### Charts -/

/-- A ledger, and where its workers have come to. -/
structure Chart where
  store : Store
  posts : List Post

namespace Chart

inductive Step : Chart → Entry → Chart → Prop
  | began {s : Store} {posts : List Post} (errand : Errand) :
      Step ⟨s, posts⟩ (.began errand) ⟨s, posts ++ [errand.post]⟩
  | asked {s s' : Store} {posts : List Post} {i : Nat} {post post' : Post} {request : Request}
      {reply : request.Reply} (hpost : posts[i]? = some post) (h : s.Replies request reply s')
      (hmove : post.Moves request reply post') :
      Step ⟨s, posts⟩ (.asked i request reply) ⟨s', posts.set i post'⟩
  | crashed {s s' : Store} {posts : List Post} {i : Nat} {post : Post} {request : Request}
      {o : Overflow} (hpost : posts[i]? = some post) (h : s.Overflows request o s')
      (hmove : ∀ reply, ∃ post', post.Moves request reply post') :
      Step ⟨s, posts⟩ (.crashed i request) ⟨s', posts.set i .crashed⟩
  | handedOut {s : Store} {posts : List Post} {i : Nat} {p : Replayer} {rows : List Record}
      (hpost : posts[i]? = some (.selected p (.ok rows))) :
      Step ⟨s, posts⟩ (.handedOut i rows)
        ⟨s, posts.set i (.selected p (.ok [])) ++ rows.map fun r => (Errand.replay p r).post⟩

inductive Run (init : Chart) : List Entry → Chart → Prop
  | start : Run init [] init
  | step {log : List Entry} {chart chart' : Chart} {entry : Entry} (prior : Run init log chart)
      (h : Step chart entry chart') : Run init (log ++ [entry]) chart'

/-- How a worker came to its post in a step. -/
inductive Came (chart : Chart) (entry : Entry) (chart' : Chart) (j : Nat) : Post → Prop
  | stayed {post : Post} (h : chart.posts[j]? = some post)
      (hentry : ∀ request reply, entry ≠ .asked j request reply) : Came chart entry chart' j post
  | moved {post post' : Post} {request : Request} {reply : request.Reply}
      (hentry : entry = .asked j request reply) (h : chart.posts[j]? = some post)
      (hreply : chart.store.Replies request reply chart'.store)
      (hmove : post.Moves request reply post') : Came chart entry chart' j post'
  | joined {errand : Errand} {post : Post} (hpost : post = errand.post)
      (hentry : entry = .began errand) (hj : chart.posts.length = j) :
      Came chart entry chart' j post
  | handed {i : Nat} {p : Replayer} {rows : List Record} {r : Record} {post : Post}
      (hpost : post = (Errand.replay p r).post) (hentry : entry = .handedOut i rows)
      (h : chart.posts[i]? = some (.selected p (.ok rows))) (hr : r ∈ rows)
      (hj : chart.posts.length ≤ j) : Came chart entry chart' j post
  | emptied {p : Replayer} {rows : List Record} {post : Post} (hpost : post = .selected p (.ok []))
      (hentry : entry = .handedOut j rows) (h : chart.posts[j]? = some (.selected p (.ok rows))) :
      Came chart entry chart' j post
  | crashed {request : Request} {post : Post} (hpost : post = .crashed)
      (hentry : entry = .crashed j request) : Came chart entry chart' j post

section Step

variable {chart chart' : Chart} {entry : Entry}

/-- **All that a step can do to a post.** -/
theorem Step.came (h : chart.Step entry chart') {j : Nat} {post : Post}
    (hpost : chart'.posts[j]? = some post) : Came chart entry chart' j post := by
  cases h with
  | @began s posts errand =>
    by_cases hj : j < posts.length
    · refine .stayed ?_ fun _ _ h => by cases h
      rw [List.getElem?_append_left hj] at hpost
      exact hpost
    · rw [List.getElem?_append_right (Nat.le_of_not_lt hj), List.getElem?_singleton] at hpost
      split at hpost
      · cases hpost
        exact .joined rfl rfl (show posts.length = j by omega)
      · cases hpost
  | asked hold h hmove =>
    rcases getElem?_set_cases hpost with ⟨rfl, rfl⟩ | ⟨hij, hpost⟩
    · exact .moved rfl hold h hmove
    · exact .stayed hpost fun _ _ h => hij (by cases h; rfl)
  | crashed hold h hmove =>
    rcases getElem?_set_cases hpost with ⟨rfl, rfl⟩ | ⟨hij, hpost⟩
    · exact .crashed rfl rfl
    · exact .stayed hpost fun _ _ h => by cases h
  | @handedOut s posts i p rows hold =>
    by_cases hj : j < (posts.set i (.selected p (.ok []))).length
    · rw [List.getElem?_append_left hj] at hpost
      rcases getElem?_set_cases hpost with ⟨rfl, rfl⟩ | ⟨hij, hpost⟩
      · exact .emptied rfl rfl hold
      · exact .stayed hpost fun _ _ h => by cases h
    · rw [List.getElem?_append_right (Nat.le_of_not_lt hj), List.getElem?_map,
        Option.map_eq_some_iff] at hpost
      obtain ⟨r, hr, rfl⟩ := hpost
      rw [List.length_set] at hj
      exact .handed rfl rfl hold (List.mem_of_getElem? hr) (Nat.le_of_not_lt hj)

theorem Step.effect (h : chart.Step entry chart') : chart.store.Effect entry chart'.store := by
  cases h with
  | began errand => exact .unchanged rfl rfl rfl
  | asked hpost h hmove => exact h.effect
  | crashed hpost h hmove => exact h.effect
  | handedOut hpost => exact .unchanged rfl rfl rfl

theorem Step.of_asked {i : Nat} {request : Request} {reply : request.Reply}
    (h : chart.Step (.asked i request reply) chart') :
    ∃ post post', chart.posts[i]? = some post ∧ chart'.posts[i]? = some post' ∧
      chart.store.Replies request reply chart'.store ∧ post.Moves request reply post' := by
  cases h with
  | asked hpost h hmove =>
    have hlt := (List.getElem?_eq_some_iff.mp hpost).1
    exact ⟨_, _, hpost, List.getElem?_set_self hlt, h, hmove⟩

theorem Step.of_crashed {i : Nat} {request : Request} (h : chart.Step (.crashed i request) chart') :
    ∃ post o, chart.posts[i]? = some post ∧ chart.store.Overflows request o chart'.store ∧
      ∀ reply, ∃ post', post.Moves request reply post' := by
  cases h with
  | crashed hpost h hmove => exact ⟨_, _, hpost, h, hmove⟩

theorem Step.of_lost {i : Nat} {r : Record} {now : Instant}
    (h : chart.Step (.crashed i (.tombstone r now)) chart') :
    ∃ stored, chart.store.find? r.key = some stored ∧ stored.version = r.version ∧
      (stored.version + 1 < leastInt64 ∨ greatestInt64 < stored.version + 1) := by
  obtain ⟨post, o, -, hover, -⟩ := h.of_crashed
  rcases Store.tombstone_cases hover with
    ⟨stored, -, -, hdone, -⟩ | ⟨hdone, -⟩ | ⟨stored, o, hfind, hversion, -, hrange, -⟩
  · cases hdone
  · cases hdone
  · exact ⟨stored, hfind, hversion, hrange⟩

theorem Step.length_le (h : chart.Step entry chart') :
    chart.posts.length ≤ chart'.posts.length := by
  cases h with
  | began errand => simp
  | asked hpost h hmove => simp
  | crashed hpost h hmove => simp
  | handedOut hpost => simp

/-- **The frame of a step.**  Whoever is there stays, moves, crashes where it would have moved, or
gives its rows away. -/
theorem Step.fate (h : chart.Step entry chart') {i : Nat} {post : Post}
    (hpost : chart.posts[i]? = some post) :
    chart'.posts[i]? = some post ∨
      (∃ request reply post', entry = .asked i request reply ∧ post.Moves request reply post' ∧
        chart'.posts[i]? = some post') ∨
      (∃ request, (∀ reply, ∃ post', post.Moves request reply post') ∧
        chart'.posts[i]? = some .crashed) ∨
      ∃ p rows, post = .selected p (.ok rows) ∧
        chart'.posts[i]? = some (.selected p (.ok [])) := by
  have hlt := (List.getElem?_eq_some_iff.mp hpost).1
  cases h with
  | began errand => exact .inl ((List.getElem?_append_left hlt).trans hpost)
  | @asked s s' posts j old new request reply hj h hmove =>
    by_cases hij : j = i
    · subst hij
      obtain rfl := Option.some.inj (hj.symm.trans hpost)
      exact .inr (.inl ⟨request, reply, new, rfl, hmove, List.getElem?_set_self hlt⟩)
    · exact .inl ((List.getElem?_set_ne hij).trans hpost)
  | @crashed s s' posts j old request o hj h hmove =>
    by_cases hij : j = i
    · subst hij
      obtain rfl := Option.some.inj (hj.symm.trans hpost)
      exact .inr (.inr (.inl ⟨request, hmove, List.getElem?_set_self hlt⟩))
    · exact .inl ((List.getElem?_set_ne hij).trans hpost)
  | @handedOut s posts j p rows hj =>
    have hleft : (posts.set j (.selected p (.ok [])) ++
        rows.map fun r => (Errand.replay p r).post)[i]? =
          (posts.set j (.selected p (.ok [])))[i]? :=
      List.getElem?_append_left (by rw [List.length_set]; exact hlt)
    by_cases hij : j = i
    · subst hij
      obtain rfl := Option.some.inj (hj.symm.trans hpost)
      exact .inr (.inr (.inr ⟨p, rows, rfl, hleft.trans (List.getElem?_set_self hlt)⟩))
    · exact .inl (hleft.trans ((List.getElem?_set_ne hij).trans hpost))

theorem Step.ended (h : chart.Step entry chart') {i : Nat} {c : Consumer} {event : Event}
    {outcome : Except Error Consumer.Outcome}
    (hpost : chart.posts[i]? = some (.delivery c event (.ended outcome))) :
    chart'.posts[i]? = some (.delivery c event (.ended outcome)) := by
  rcases h.fate hpost with hsame | ⟨request, reply, post', -, hmove, -⟩ | ⟨request, hmove, -⟩ |
    ⟨p, rows, hselected, -⟩
  · exact hsame
  · exact absurd hmove Post.not_moves_ended
  · obtain ⟨post', hmove⟩ := hmove request.answer
    exact absurd hmove Post.not_moves_ended
  · cases hselected

theorem Step.to_reopening (h : chart.Step entry chart') {i : Nat} {c : Consumer} {event : Event}
    {r : Record} (hpost : chart'.posts[i]? = some (.delivery c event (.reopening r))) :
    chart.posts[i]? = some (.delivery c event (.reopening r)) ∨
      r.status = .failed ∧ r.key.deleteMarker = 0 ∧
        entry = .asked i (.find r.key) (.ok (some r)) ∧
        chart.store.find? r.key = some r ∧ chart'.store.find? r.key = some r := by
  cases h.came hpost with
  | stayed hold hentry => exact .inl hold
  | moved hentry hold hreply hmove =>
    cases hmove with
    | delivery hmove =>
      rcases hmove.to_reopening with rfl | ⟨rfl, hfailed, hfind⟩
      · exact .inl hold
      · cases hfind
        obtain ⟨hfound, hstore⟩ := hreply.found
        have hkey := Store.key_of_find? hfound.symm
        refine .inr ⟨hfailed, ?_, ?_, ?_, ?_⟩
        · rw [hkey]
          rfl
        · rw [hkey]
          exact hentry
        · rw [hkey]
          exact hfound.symm
        · rw [hkey, hstore]
          exact hfound.symm
  | joined hpost hentry hj => exact absurd hpost.symm Errand.post_ne_reopening
  | handed hpost hentry hsel hr hj => exact absurd hpost.symm Errand.post_ne_reopening
  | emptied hpost => cases hpost
  | crashed hpost => cases hpost

end Step

/-! ### Runs of charts -/

section Run

variable {init chart : Chart}

theorem Run.eq_of_nil (h : init.Run [] chart) : chart = init := by
  generalize hlog : [] = log at h
  cases h with
  | start => rfl
  | step prior hstep => simp at hlog

theorem Run.split {first second : List Entry} (h : init.Run (first ++ second) chart) :
    ∃ mid, init.Run first mid ∧ mid.Run second chart := by
  generalize hlog : first ++ second = log at h
  induction h generalizing second with
  | start =>
    obtain ⟨rfl, rfl⟩ := List.append_eq_nil_iff.mp hlog
    exact ⟨init, .start, .start⟩
  | @step log chart chart' entry prior hstep ih =>
    rcases List.eq_nil_or_concat second with rfl | ⟨second', last, rfl⟩
    · rw [List.append_nil] at hlog
      subst hlog
      exact ⟨chart', prior.step hstep, .start⟩
    · rw [List.concat_eq_append, ← List.append_assoc] at hlog
      obtain ⟨rfl, hlast⟩ := List.append_inj' hlog rfl
      obtain rfl := List.singleton_inj.mp hlast
      obtain ⟨mid, hfirst, hsecond⟩ := ih rfl
      rw [List.concat_eq_append]
      exact ⟨mid, hfirst, hsecond.step hstep⟩

end Run

end Chart

/-! ### Crews and their charts -/

namespace Crew

/-- The workers of a crew are where the chart has them. -/
structure Charted (crew : Crew) (chart : Chart) : Prop where
  store : chart.store = crew.store
  length : chart.posts.length = crew.jobs.length
  job : ∀ (i : Nat) w post, crew.jobs[i]? = some w → chart.posts[i]? = some post →
    w.Follows Post.course Post.Ends post

namespace Charted

variable {crew : Crew} {chart : Chart}

theorem post (h : crew.Charted chart) {i : Nat} {w : Work Report} (hjob : crew.jobs[i]? = some w) :
    ∃ post, chart.posts[i]? = some post ∧ w.Follows Post.course Post.Ends post := by
  have hlt : i < chart.posts.length := by
    rw [h.length]
    exact (List.getElem?_eq_some_iff.mp hjob).1
  exact ⟨_, List.getElem?_eq_getElem hlt, h.job i w _ hjob (List.getElem?_eq_getElem hlt)⟩

theorem work (h : crew.Charted chart) {i : Nat} {post : Post}
    (hpost : chart.posts[i]? = some post) :
    ∃ w, crew.jobs[i]? = some w ∧ w.Follows Post.course Post.Ends post := by
  have hlt : i < crew.jobs.length := by
    rw [← h.length]
    exact (List.getElem?_eq_some_iff.mp hpost).1
  exact ⟨_, List.getElem?_eq_getElem hlt, h.job i _ post (List.getElem?_eq_getElem hlt) hpost⟩

theorem set (h : crew.Charted chart) (s : Store) {i : Nat} {w : Work Report} {post : Post}
    (hw : w.Follows Post.course Post.Ends post) :
    Charted ⟨s, crew.jobs.set i w⟩ ⟨s, chart.posts.set i post⟩ where
  store := rfl
  length := by
    show (chart.posts.set i post).length = (crew.jobs.set i w).length
    rw [List.length_set, List.length_set, h.length]
  job j w' post' hjob hpost := by
    rcases getElem?_set_cases hjob with ⟨rfl, rfl⟩ | ⟨hij, hjob⟩
    · rcases getElem?_set_cases hpost with ⟨-, rfl⟩ | ⟨hij, -⟩
      · exact hw
      · exact absurd rfl hij
    · rcases getElem?_set_cases hpost with ⟨rfl, -⟩ | ⟨-, hpost⟩
      · exact absurd rfl hij
      · exact h.job j w' post' hjob hpost

theorem append (h : crew.Charted chart) (errands : List Errand) :
    Charted ⟨crew.store, crew.jobs ++ errands.map Errand.work⟩
      ⟨crew.store, chart.posts ++ errands.map Errand.post⟩ where
  store := rfl
  length := by simp [h.length]
  job j w post hjob hpost := by
    by_cases hj : j < crew.jobs.length
    · rw [List.getElem?_append_left hj] at hjob
      rw [List.getElem?_append_left (h.length.symm ▸ hj)] at hpost
      exact h.job j w post hjob hpost
    · rw [List.getElem?_append_right (Nat.le_of_not_lt hj), List.getElem?_map,
        Option.map_eq_some_iff] at hjob
      rw [List.getElem?_append_right (by rw [h.length]; exact Nat.le_of_not_lt hj), h.length,
        List.getElem?_map, Option.map_eq_some_iff] at hpost
      obtain ⟨errand, herrand, rfl⟩ := hjob
      obtain ⟨errand', herrand', rfl⟩ := hpost
      rw [herrand] at herrand'
      obtain rfl := Option.some.inj herrand'
      exact errand.follows

end Charted

/-- **Every step of a crew is one of its chart.** -/
theorem Step.charted {crew crew' : Crew} {entry : Entry} {chart : Chart} (h : Step crew entry crew')
    (hchart : crew.Charted chart) :
    ∃ chart', chart.Step entry chart' ∧ crew'.Charted chart' := by
  obtain ⟨s', posts⟩ := chart
  obtain rfl := hchart.store
  cases h with
  | began errand => exact ⟨_, .began errand, hchart.append [errand]⟩
  | asked hjob h =>
    obtain ⟨post, hpost, hfollows⟩ := hchart.post hjob
    obtain ⟨post', hmove, hnext⟩ := hfollows _
    exact ⟨_, .asked hpost h hmove, hchart.set _ hnext⟩
  | crashed hjob h =>
    obtain ⟨post, hpost, hfollows⟩ := hchart.post hjob
    refine ⟨_, .crashed hpost h fun reply => ?_, hchart.set _ .crashed⟩
    obtain ⟨post', hmove, -⟩ := hfollows reply
    exact ⟨post', hmove⟩
  | @handedOut s _ i p rows hjob =>
    obtain ⟨post, hpost, hfollows⟩ := hchart.post hjob
    cases hfollows
    have hend : (Work.done (.selection p (.ok []))).Follows Post.course Post.Ends
        (.selected p (.ok [])) := .selected
    have happend := (hchart.set s (i := i) hend).append (rows.map (Errand.replay p))
    rw [List.map_map, List.map_map] at happend
    exact ⟨_, .handedOut hpost, happend⟩

/-- **Every run of a crew is one of its chart.** -/
theorem Run.charted {init crew : Crew} {log : List Entry} {chart : Chart} (h : init.Run log crew)
    (hchart : init.Charted chart) :
    ∃ chart', chart.Run log chart' ∧ crew.Charted chart' := by
  induction h with
  | start => exact ⟨chart, .start, hchart⟩
  | step prior hstep ih =>
    obtain ⟨chart', hrun, hchart'⟩ := ih
    obtain ⟨chart'', hstep', hchart''⟩ := hstep.charted hchart'
    exact ⟨chart'', hrun.step hstep', hchart''⟩

/-- A crew whose workers have yet to begin. -/
def waiting (s : Store) (errands : List Errand) : Crew :=
  ⟨s, errands.map Errand.work⟩

theorem charted_waiting (s : Store) (errands : List Errand) :
    (waiting s errands).Charted ⟨s, errands.map Errand.post⟩ := by
  have h : Charted ⟨s, []⟩ ⟨s, []⟩ := ⟨rfl, rfl, fun i w post hjob => by simp at hjob⟩
  exact h.append errands

end Crew

end EventRelay
