import EventRelay.Proofs.Ledger.Keys
import EventRelay.Proofs.Crew.Selection
import EventRelay.Proofs.Crew.Solo

/-!
# Owner groups that share a ledger

A scan selects what is due, whoever owns it.  A selected row from which its event can be made again
is left alone, and the event goes to the row of the scan's own group, due or not.  A row from which
no event can be made is given up where it is found, in another group too.

`groups_apart_iff` says when the groups of a ledger stay apart in spite of that: when a scan leaves
the rows of the others as they are, when it calls handlers for those events alone whose own row is
due, and when it calls one handler for an event at most.
-/

namespace EventRelay

theorem Store.Replies.revisable {s s' : Store} {r : Record}
    (h : s.Replies (.update r) (.ok true) s') : r.Revisable := by
  rcases h with ⟨done, hupdate, hdone⟩ | ⟨⟨e, hfails⟩, -⟩
  · cases hdone
    exact Store.revisable_of_update hupdate
  · cases hfails

namespace Replayer

variable (p : Replayer) (s : Store) (now : Instant) (batch : Nat)

/-- Whether an event that is delivered again comes to a handler: there is one for its type, and the
row of the group can be resumed. -/
def Tries (event : Event) : Prop :=
  p.consumer.routes.candidates event.eventType ≠ [] ∧ s.Resumable (p.consumer.key event.id)

/-- The keys under which a scan may write: those of its own group, and those of the rows that it
gives up. -/
def Reaches (key : Key) : Prop :=
  key.ownerGroup = p.consumer.config.ownerGroup ∨
    ∃ r ∈ s.due now batch, r.key = key ∧ (∀ event, p.rebuild r ≠ .ok event) ∧ r.Revisable

/-- A scan of a ledger at some time, with nobody else at work. -/
structure Scans (log : List Entry) (crew : Crew) : Prop where
  run : (Crew.waiting s [.scan p batch]).Run log crew
  alone : ∀ errand, Entry.began errand ∉ log
  clock : ∀ t ∈ selections log, t = now

end Replayer

/-! ### What a scan does to the ledger -/

structure Replayer.Kept (p : Replayer) (s : Store) (now : Instant) (batch : Nat) (store : Store) :
    Prop where
  frame : ∀ key, ¬ p.Reaches s now batch key → store.find? key = s.find? key
  /-- Only rows that could be resumed have been written. -/
  finds : ∀ key, store.find? key = s.find? key ∨
    s.Resumable key ∧ ∀ row, store.find? key = some row → row.status ≠ .created

section Scan

variable {p : Replayer} {s : Store} {now : Instant} {batch : Nat} {store store' : Store}

theorem Replayer.kept_start : p.Kept s now batch s :=
  ⟨fun _ _ => rfl, fun _ => .inl rfl⟩

namespace Replayer.Kept

theorem resumable (h : p.Kept s now batch store) {key : Key} {row : Record}
    (hfind : store.find? key = some row) (hretrying : row.status = .retrying) :
    s.Resumable key := by
  rcases h.finds key with hsame | ⟨hrow, -⟩
  · exact ⟨row, hsame.symm.trans hfind, .inl hretrying⟩
  · exact hrow

theorem created (h : p.Kept s now batch store) {key : Key} {row : Record}
    (hfind : store.find? key = some row) (hcreated : row.status = .created) :
    s.find? key = some row := by
  rcases h.finds key with hsame | ⟨-, hwritten⟩
  · exact hsame.symm.trans hfind
  · exact absurd hcreated (hwritten row hfind)

theorem silent (h : p.Kept s now batch store) {request : Request} {reply : request.Reply}
    (hreply : store.Replies request reply store')
    (hsilent : (Entry.asked 0 request reply).update? = none ∧
      (Entry.asked 0 request reply).creation? = none ∧
        (Entry.asked 0 request reply).cleared? = none) : p.Kept s now batch store' := by
  obtain ⟨hupdate, hcreation, hcleared⟩ := hsilent
  rw [hreply.effect.eq hupdate hcreation hcleared]
  exact h

theorem write (h : p.Kept s now batch store) {next : Record}
    (hreply : store.Replies (.update next) (.ok true) store') (hstatus : next.status ≠ .created)
    (hreach : p.Reaches s now batch next.key) : p.Kept s now batch store' := by
  obtain ⟨stored, hfind, hversion, hopen, rfl⟩ := (hreply.effect (i := 0)).of_update
  refine ⟨fun key hkey => ?_, fun key => ?_⟩
  · have hne : next.revised.key ≠ key := fun hsame => hkey (hsame ▸ hreach)
    rw [Store.find?_replace_of_ne hne]
    exact h.frame key hkey
  · by_cases hkey : next.key = key
    · subst hkey
      refine .inr ⟨?_, fun row hrow => ?_⟩
      · rcases h.finds next.key with hsame | ⟨hrow, -⟩
        · exact Store.resumable_of_open (hsame.symm.trans hfind) hopen
            (Record.revisable_of_version hversion hreply.revisable)
        · exact hrow
      · have hnew := Store.find?_replace_of_eq hfind next.key_revised
        rw [← Option.some.inj (hnew.symm.trans hrow)]
        exact hstatus
    · rw [Store.find?_replace_of_ne (show next.revised.key ≠ key from hkey)]
      exact h.finds key

theorem move (h : p.Kept s now batch store) {c : Consumer} {event : Event}
    {stage stage' : Consumer.Stage} {request : Request} {reply : request.Reply}
    (hreply : store.Replies request reply store')
    (hmove : Consumer.Moves c event stage request reply stage') (hrow : ¬ stage.Rowless)
    (hcopy : ∀ r, stage.copy? = some r → r.Revisable → p.Reaches s now batch r.key) :
    p.Kept s now batch store' := by
  have hwrite : ∀ {r next : Record} {t : Transition} {now' : Instant}, stage.copy? = some r →
      r.transition t now' = .ok next → store.Replies (.update next) (.ok true) store' →
        p.Kept s now batch store' := by
    intro r next t now' hr hnext hreply
    refine h.write hreply (Record.status_ne_created_of_transition hnext) ?_
    rw [Record.key_transition hnext]
    exact hcopy r hr
      (Record.revisable_of_version (Record.version_transition hnext).symm hreply.revisable)
  cases hmove with
  | created | second | beaten | freed | kept => exact absurd trivial hrow
  | unknown | reopened => exact absurd rfl hrow
  | claimed hnext => exact hwrite rfl hnext hreply
  | concluded hsettles hfailed hnext => exact hwrite rfl hnext hreply
  | gaveUp hsettles hnext => exact hwrite rfl hnext hreply
  | missing | resumed | met | passed | unclaimed | questioned | handled | refused | consulted
  | notified | clock => exact h.silent hreply ⟨rfl, rfl, rfl⟩
  | fault hfails hs => exact h.silent hreply (hfails.silent 0)

end Replayer.Kept

/-! ### What the workers of a scan know -/

/-- A later delivery of an event whose row is under a key. -/
def Consumer.Stage.Resumes (s : Store) (key : Key) : Consumer.Stage → Prop
  | .seeking again => again = true
  | .joining r => s.find? key = some r ∧ r.status = .created
  | .holding r _ => r.key = key ∧ s.Resumable key
  | .notifying _ | .ended _ => True
  | .founding | .reopening _ => False

/-- A row is given up without an attempt. -/
def Consumer.Stage.Abandons (r : Record) : Consumer.Stage → Prop
  | .holding row (.abandoned _) => row = r
  | .notifying _ | .ended _ => True
  | .seeking _ | .founding | .reopening _ | .joining _ | .holding _ _ => False

theorem Consumer.Stage.Resumes.not_rowless {key : Key} {stage : Consumer.Stage}
    (h : stage.Resumes s key) : ¬ stage.Rowless := by
  intro hrow
  cases stage with
  | seeking again => exact Bool.false_ne_true (hrow.symm.trans h)
  | founding | reopening r => exact h.elim
  | joining r | holding r attempt | notifying stored | ended outcome => exact hrow.elim

theorem Consumer.Stage.Resumes.key_of_copy {key : Key} {stage : Consumer.Stage}
    (h : stage.Resumes s key) {r : Record} (hcopy : stage.copy? = some r) : r.key = key := by
  cases stage with
  | joining row =>
    obtain rfl := Option.some.inj hcopy
    exact Store.key_of_find? h.1
  | holding row attempt =>
    obtain rfl := Option.some.inj hcopy
    exact h.1
  | reopening row => exact h.elim
  | seeking again | founding | notifying stored | ended outcome => cases hcopy

theorem Consumer.Stage.Abandons.not_rowless {r : Record} {stage : Consumer.Stage}
    (h : stage.Abandons r) : ¬ stage.Rowless := by
  intro hrow
  cases stage with
  | seeking again | founding | reopening row => exact h.elim
  | joining row | holding row attempt | notifying stored | ended outcome => exact hrow.elim

theorem Consumer.Stage.Abandons.eq_of_copy {r row : Record} {stage : Consumer.Stage}
    (h : stage.Abandons r) (hcopy : stage.copy? = some row) : row = r := by
  cases stage with
  | holding held attempt =>
    obtain rfl := Option.some.inj hcopy
    cases attempt with
    | abandoned reason => exact h
    | pending | answered verdict | weighed verdict => exact h.elim
  | joining held | reopening held => exact h.elim
  | seeking again | founding | notifying stored | ended outcome => cases hcopy

theorem Consumer.Stage.Resumes.move {event : Event} {stage stage' : Consumer.Stage}
    {request : Request} {reply : request.Reply}
    (h : stage.Resumes s (p.consumer.key event.id)) (hkept : p.Kept s now batch store)
    (hreply : store.Replies request reply store')
    (hmove : Consumer.Moves p.consumer event stage request reply stage') :
    stage'.Resumes s (p.consumer.key event.id) := by
  cases hmove with
  | missing | passed | unclaimed | concluded | gaveUp | refused | consulted | notified | fault =>
    trivial
  | unknown | reopened => cases h
  | created | second | beaten | freed | kept => exact h.elim
  | resumed hretrying =>
    have hfind := hreply.found.1.symm
    exact ⟨Store.key_of_find? hfind, hkept.resumable hfind hretrying⟩
  | met hcreated => exact ⟨hkept.created hreply.found.1.symm hcreated, hcreated⟩
  | @claimed r next lease now' hnext =>
    obtain ⟨hfind, hcreated⟩ := h
    have hrevisable : r.Revisable :=
      Record.revisable_of_version (Record.version_transition hnext).symm hreply.revisable
    exact ⟨(Record.key_transition hnext).trans (Store.key_of_find? hfind), r, hfind,
      .inr ⟨hcreated, hrevisable⟩⟩
  | questioned | handled => exact h
  | clock htick =>
    rcases Consumer.Stage.tick_cases htick with ⟨r, verdict, rfl, rfl⟩ | rfl
    · exact h
    · exact h

theorem Consumer.Stage.Abandons.move {c : Consumer} {event : Event} {stage stage' : Consumer.Stage}
    {r : Record} {request : Request} {reply : request.Reply} (h : stage.Abandons r)
    (hmove : Consumer.Moves c event stage request reply stage') : stage'.Abandons r := by
  cases hmove with
  | gaveUp | refused | consulted | notified | fault | concluded => trivial
  | missing | unknown | reopened | resumed | met | passed | created | second | beaten | freed | kept
  | claimed | unclaimed | questioned | handled => exact h.elim
  | clock htick =>
    rcases Consumer.Stage.tick_cases htick with ⟨r, verdict, rfl, rfl⟩ | rfl
    · exact h.elim
    · exact h

/-! ### Scans -/

/-- What is known of a worker that replays a row. -/
def Replayer.Knows (p : Replayer) (s : Store) (r : Record) : Post → Prop
  | .delivery c event stage => c = p.consumer ∧
    (p.rebuild r = .ok event ∧ stage.Resumes s (c.key event.id) ∨
      (∀ made, p.rebuild r ≠ .ok made) ∧ stage.Abandons r)
  | .crashed => True
  | .publication _ _ _ | .selecting _ _ | .selected _ _ => False

/-- What is known of the worker that selects the rows: it is alone until it gives them away. -/
def Replayer.Selects (p : Replayer) (s : Store) (now : Instant) (batch : Nat) (chart : Chart) :
    Post → Prop
  | .selecting p' batch' => p' = p ∧ batch' = batch ∧ chart.posts.length = 1 ∧ chart.store = s
  | .selected p' rows => p' = p ∧
    ∀ l, rows = .ok l → l = [] ∨ l = s.due now batch ∧ chart.posts.length = 1
  | .crashed => True
  | .publication _ _ _ | .delivery _ _ _ => False

/-- Whom a scan may call a handler for: the event of the row that the worker replays. -/
def Replayer.Calls (p : Replayer) (s : Store) (now : Instant) (batch : Nat) (i : Nat)
    (event : Event) : Prop :=
  ∃ k r, i = k + 1 ∧ (s.due now batch)[k]? = some r ∧ p.rebuild r = .ok event ∧ p.Tries s event

structure Replayer.Scanning (p : Replayer) (s : Store) (now : Instant) (batch : Nat)
    (log : List Entry) (chart : Chart) : Prop where
  kept : p.Kept s now batch chart.store
  selector : ∀ post, chart.posts[0]? = some post → p.Selects s now batch chart post
  replays : ∀ (k : Nat) post, chart.posts[k + 1]? = some post →
    ∃ r, (s.due now batch)[k]? = some r ∧ p.Knows s r post
  calls : ∀ i slot event verdict, Entry.asked i (.handle slot event) verdict ∈ log →
    p.Calls s now batch i event

theorem Replayer.knows_start (r : Record) : p.Knows s r (Errand.replay p r).post := by
  cases hrebuild : p.rebuild r with
  | ok event =>
    rw [Errand.post_replay hrebuild]
    exact ⟨rfl, .inl ⟨hrebuild, rfl⟩⟩
  | error e =>
    rw [Errand.post_replay_error hrebuild]
    refine ⟨rfl, .inr ⟨fun made hmade => ?_, rfl⟩⟩
    rw [hrebuild] at hmade
    cases hmade

namespace Replayer.Scanning

variable {log : List Entry} {chart chart' : Chart} {posts : List Post} {entry : Entry}

theorem start : p.Scanning s now batch [] ⟨s, [.selecting p batch]⟩ where
  kept := kept_start
  selector post hpost := by
    cases hpost
    exact ⟨rfl, rfl, rfl, rfl⟩
  replays k post hpost := by cases hpost
  calls i slot event verdict hmem := absurd hmem List.not_mem_nil

theorem goOn (h : p.Scanning s now batch log ⟨store, posts⟩) {i : Nat} {post : Post}
    (hkept : p.Kept s now batch store')
    (hselects : ∀ first, (posts.set i post)[0]? = some first →
      p.Selects s now batch ⟨store', posts.set i post⟩ first)
    (hknows : ∀ k, i = k + 1 → ∃ r, (s.due now batch)[k]? = some r ∧ p.Knows s r post)
    (hcalls : ∀ j slot event verdict, entry = .asked j (.handle slot event) verdict →
      p.Calls s now batch j event) :
    p.Scanning s now batch (log ++ [entry]) ⟨store', posts.set i post⟩ where
  kept := hkept
  selector := hselects
  replays k post' hpost := by
    rcases getElem?_set_cases hpost with ⟨hi, rfl⟩ | ⟨-, hold⟩
    · exact hknows k hi
    · exact h.replays k post' hold
  calls j slot event verdict hmem := by
    rcases List.mem_append.mp hmem with hmem | hmem
    · exact h.calls j slot event verdict hmem
    · exact hcalls j slot event verdict (List.mem_singleton.mp hmem).symm

theorem selector_kept (h : p.Scanning s now batch log ⟨store, posts⟩) {k : Nat} {post post' : Post}
    (hpost : posts[k + 1]? = some post) {first : Post}
    (hfirst : (posts.set (k + 1) post')[0]? = some first) :
    p.Selects s now batch ⟨store', posts.set (k + 1) post'⟩ first := by
  have hlt : k + 1 < posts.length := (List.getElem?_eq_some_iff.mp hpost).1
  have hknown := h.selector first ((List.getElem?_set_ne (by omega)).symm.trans hfirst)
  cases first with
  | selecting p' batch' =>
    have hone : posts.length = 1 := hknown.2.2.1
    omega
  | selected p' rows =>
    refine ⟨hknown.1, fun l hl => ?_⟩
    rcases hknown.2 l hl with hnil | ⟨-, hone⟩
    · exact .inl hnil
    · have hone : posts.length = 1 := hone
      omega
  | crashed => trivial
  | delivery c event stage => exact hknown.elim
  | publication p' event stage => exact hknown.elim

theorem select (h : p.Scanning s now batch log ⟨store, posts⟩) {post post' : Post}
    {request : Request} {reply : request.Reply} (hpost : posts[0]? = some post)
    (hreply : store.Replies request reply store') (hmove : post.Moves request reply post')
    (hclock : ∀ t, (Entry.asked 0 request reply).selection? = some t → t = now) :
    p.Scanning s now batch (log ++ [.asked 0 request reply]) ⟨store', posts.set 0 post'⟩ := by
  have hknown := h.selector post hpost
  have hlt := (List.getElem?_eq_some_iff.mp hpost).1
  have hfirst : ∀ first, (posts.set 0 post')[0]? = some first → first = post' :=
    fun first hfirst => Option.some.inj (hfirst.symm.trans (List.getElem?_set_self hlt))
  cases hmove with
  | delivery hmove => exact hknown.elim
  | publication hmove => exact hknown.elim
  | clock =>
    obtain rfl : store' = store := (hreply.effect (i := 0)).eq rfl rfl rfl
    refine h.goOn h.kept (fun first hset => ?_) (fun k hk => by cases hk) fun _ _ _ _ he => by
      cases he
    rw [hfirst first hset]
    refine ⟨hknown.1, hknown.2.1, ?_, hknown.2.2.2⟩
    exact List.length_set.trans hknown.2.2.1
  | selected =>
    obtain rfl := hclock _ rfl
    obtain ⟨rfl, rfl, hone, rfl⟩ := hknown
    refine h.goOn (h.kept.silent hreply ?_) (fun first hset => ?_) (fun k hk => by cases hk)
      fun _ _ _ _ he => by cases he
    · exact ⟨rfl, rfl, rfl⟩
    · rw [hfirst first hset]
      refine ⟨rfl, fun l hl => .inr ⟨?_, List.length_set.trans hone⟩⟩
      subst hl
      rcases hreply with ⟨hrows, -⟩ | ⟨⟨e, hfails⟩, -⟩
      · exact Except.ok.inj hrows
      · cases hfails

theorem replay (h : p.Scanning s now batch log ⟨store, posts⟩) {k : Nat} {post post' : Post}
    {request : Request} {reply : request.Reply} (hpost : posts[k + 1]? = some post)
    (hreply : store.Replies request reply store') (hmove : post.Moves request reply post') :
    p.Scanning s now batch (log ++ [.asked (k + 1) request reply])
      ⟨store', posts.set (k + 1) post'⟩ := by
  obtain ⟨r, hr, hknown⟩ := h.replays k post hpost
  cases hmove with
  | publication hmove => exact hknown.elim
  | clock => exact hknown.elim
  | selected => exact hknown.elim
  | @delivery c event stage stage' _ _ hmove =>
    obtain ⟨rfl, hstage⟩ := hknown
    have hknows : p.Knows s r (.delivery p.consumer event stage') := by
      refine ⟨rfl, hstage.imp (fun ⟨hrebuild, hresumes⟩ => ⟨hrebuild, ?_⟩)
        fun ⟨hrebuild, habandons⟩ => ⟨hrebuild, habandons.move hmove⟩⟩
      exact hresumes.move h.kept hreply hmove
    have hkept : p.Kept s now batch store' := by
      rcases hstage with ⟨-, hresumes⟩ | ⟨hrebuild, habandons⟩
      · refine h.kept.move hreply hmove hresumes.not_rowless fun copy hcopy _ => .inl ?_
        rw [hresumes.key_of_copy hcopy]
        rfl
      · refine h.kept.move hreply hmove habandons.not_rowless fun copy hcopy hrevisable => ?_
        obtain rfl := habandons.eq_of_copy hcopy
        exact .inr ⟨copy, List.mem_of_getElem? hr, rfl, hrebuild, hrevisable⟩
    refine h.goOn hkept (fun first hfirst => h.selector_kept hpost hfirst)
      (fun k' hk' => by cases hk'; exact ⟨r, hr, hknows⟩) fun j slot event' verdict he => ?_
    cases he
    cases hmove with
    | handled hslot =>
      rcases hstage with ⟨hrebuild, -, hrow⟩ | ⟨-, hpending⟩
      · exact ⟨k, r, rfl, hr, hrebuild, List.ne_nil_of_mem hslot, hrow⟩
      · exact hpending.elim
    | fault hfails hs => exact hfails.elim

/-- A worker of a scan crashes where a version cannot be counted up, which changes nothing. -/
theorem crash (h : p.Scanning s now batch log ⟨store, posts⟩) {i : Nat} {post : Post}
    {request : Request} {o : Overflow} (hpost : posts[i]? = some post)
    (hover : store.Overflows request o store')
    (hmove : ∀ reply, ∃ post', post.Moves request reply post') :
    p.Scanning s now batch (log ++ [.crashed i request]) ⟨store', posts.set i .crashed⟩ := by
  have hsame : store' = store := by
    rcases hover.request_cases with ⟨r, -, hs⟩ | ⟨r, now', rfl⟩
    · exact hs
    · -- a deletion is not among what these workers ask for
      obtain ⟨post', hmove⟩ := hmove (.ok true)
      obtain ⟨c, event, rfl⟩ := Post.reopening_of_moves hmove
      cases i with
      | zero => exact (h.selector _ hpost).elim
      | succ k =>
        obtain ⟨r', -, -, hknown⟩ := h.replays k _ hpost
        exact (hknown.elim (·.2) (·.2)).elim
  subst hsame
  refine h.goOn h.kept (fun first hfirst => ?_) (fun k hk => ?_) fun _ _ _ _ he => by cases he
  · cases i with
    | zero =>
      have hlt := (List.getElem?_eq_some_iff.mp hpost).1
      rw [← Option.some.inj ((List.getElem?_set_self hlt).symm.trans hfirst)]
      trivial
    | succ k => exact h.selector_kept hpost hfirst
  · subst hk
    obtain ⟨r, hr, -⟩ := h.replays k post hpost
    exact ⟨r, hr, trivial⟩

theorem handOut (h : p.Scanning s now batch log ⟨store, posts⟩) {i : Nat} {p' : Replayer}
    {rows : List Record} (hpost : posts[i]? = some (.selected p' (.ok rows))) :
    p.Scanning s now batch (log ++ [.handedOut i rows])
      ⟨store, posts.set i (.selected p' (.ok [])) ++
        rows.map fun r => (Errand.replay p' r).post⟩ := by
  cases i with
  | succ k =>
    obtain ⟨r, -, hknown⟩ := h.replays k _ hpost
    exact hknown.elim
  | zero =>
    have hlt := (List.getElem?_eq_some_iff.mp hpost).1
    obtain ⟨rfl, hrows⟩ := h.selector _ hpost
    have hemptied : ∀ chart first, (posts.set 0 (.selected p' (.ok [])))[0]? = some first →
        p'.Selects s now batch chart first := by
      intro chart first hfirst
      rw [← Option.some.inj ((List.getElem?_set_self hlt).symm.trans hfirst)]
      exact ⟨rfl, fun l hl => .inl (Except.ok.inj hl).symm⟩
    rcases hrows rows rfl with rfl | ⟨rfl, hone⟩
    · rw [List.map_nil, List.append_nil]
      exact h.goOn h.kept (hemptied _) (fun k hk => by cases hk) fun _ _ _ _ he => by cases he
    · have hlength : (posts.set 0 (.selected p' (.ok []))).length = 1 := List.length_set.trans hone
      refine ⟨h.kept, fun first hfirst => ?_, fun k post hk => ?_, fun j slot event verdict he => ?_⟩
      · refine hemptied _ first ?_
        rw [← hfirst]
        exact (List.getElem?_append_left (by omega)).symm
      · rw [List.getElem?_append_right (by omega), hlength, List.getElem?_map,
          Option.map_eq_some_iff] at hk
        obtain ⟨r, hr, rfl⟩ := hk
        exact ⟨r, hr, knows_start r⟩
      · rcases List.mem_append.mp he with he | he
        · exact h.calls j slot event verdict he
        · cases List.mem_singleton.mp he

theorem step (h : p.Scanning s now batch log chart) (hstep : chart.Step entry chart')
    (halone : ∀ errand, entry ≠ .began errand)
    (hclock : ∀ t, entry.selection? = some t → t = now) :
    p.Scanning s now batch (log ++ [entry]) chart' := by
  cases hstep with
  | began errand => exact absurd rfl (halone errand)
  | @asked _ _ posts i post post' request reply hpost hreply hmove =>
    cases i with
    | zero => exact h.select hpost hreply hmove hclock
    | succ k => exact h.replay hpost hreply hmove
  | crashed hpost hover hmove => exact h.crash hpost hover hmove
  | handedOut hpost => exact h.handOut hpost

theorem run (hrun : (Chart.mk s [.selecting p batch]).Run log chart)
    (halone : ∀ errand, Entry.began errand ∉ log) (hclock : ∀ t ∈ selections log, t = now) :
    p.Scanning s now batch log chart := by
  induction hrun with
  | start => exact start
  | @step log chart chart' entry prior hstep ih =>
    rw [selections_append] at hclock
    refine (ih (fun errand hmem => ?_) fun t ht => ?_).step hstep (fun errand he => ?_)
      fun t ht => ?_
    · exact halone errand (List.mem_append_left _ hmem)
    · exact hclock t (List.mem_append_left _ ht)
    · exact halone errand (List.mem_append_right _ (List.mem_singleton.mpr he.symm))
    · exact hclock t (List.mem_append_right _ (List.mem_filterMap.mpr
        ⟨entry, List.mem_singleton_self _, ht⟩))

theorem of_handlers (h : p.Scanning s now batch log chart) {eventId : String} {i : Nat}
    (hi : i ∈ handlers eventId log) : ∃ event, event.id = eventId ∧ p.Calls s now batch i event := by
  obtain ⟨request, reply, hcall, hacts⟩ := mem_doers hi
  obtain ⟨slot, event, rfl, hid⟩ := handles_iff.mp hacts
  exact ⟨event, hid, h.calls i slot event reply hcall⟩

end Replayer.Scanning

/-! ### Scans as they may go -/

namespace Replayer

/-- The log of a scan that has given its rows away. -/
def selection (s : Store) (now : Instant) (batch : Nat) : List Entry :=
  [.asked 0 .now now, .asked 0 (.due now batch) (.ok (s.due now batch)),
    .handedOut 0 (s.due now batch)]

/-- The crew of a scan whose rows have yet to be replayed. -/
def selected (p : Replayer) (s : Store) (rows : List Record) : Crew :=
  ⟨s, .done (.selection p (.ok [])) :: rows.map fun r => (Errand.replay p r).work⟩

theorem scans_selected :
    p.Scans s now batch (selection s now batch) (p.selected s (s.due now batch)) where
  run := by
    have hnow : s.Replies .now now s := .inl rfl
    have hdue : s.Replies (.due now batch) (.ok (s.due now batch)) s := .inl ⟨rfl, rfl⟩
    exact ((Crew.Run.start.step (.asked rfl hnow)).step (.asked rfl hdue)).step (.handedOut rfl)
  alone errand hmem := by simp [selection] at hmem
  clock t ht := by
    cases List.mem_singleton.mp ht
    rfl

variable {log log' : List Entry} {crew crew' : Crew}

theorem Scans.append (h : p.Scans s now batch log crew) (hrun : crew.Run log' crew')
    (halone : ∀ errand, Entry.began errand ∉ log') (hselect : selections log' = []) :
    p.Scans s now batch (log ++ log') crew' where
  run := h.run.trans hrun
  alone errand hmem := (List.mem_append.mp hmem).elim (h.alone errand) (halone errand)
  clock t ht := by
    rw [selections_append, hselect, List.append_nil] at ht
    exact h.clock t ht

theorem Scans.solo {jobs : List (Work Report)} {i : Nat} {w w' : Work Report}
    (h : p.Scans s now batch log ⟨store, jobs⟩) (hjob : jobs[i]? = some w)
    (hsolo : Work.Solo i store w log' store' w') (hselect : selections log' = []) :
    p.Scans s now batch (log ++ log') ⟨store', jobs.set i w'⟩ := by
  refine h.append (hsolo.run hjob) (fun errand hmem => ?_) hselect
  obtain ⟨request, reply, he⟩ := hsolo.asked hmem
  cases he

theorem Scans.tries {jobs : List (Work Report)} {i : Nat} {r : Record} {event : Event}
    (h : p.Scans s now batch log ⟨store, jobs⟩) (hjob : jobs[i]? = some (Errand.replay p r).work)
    (hrebuild : p.rebuild r = .ok event) (htries : p.Tries store event) :
    ∃ log' store' w slot, p.Scans s now batch (log ++ log') ⟨store', jobs.set i w⟩ ∧
      handlers event.id log' = [i] ∧ Entry.asked i (.handle slot event) Verdict.ok ∈ log' ∧
        store'.Resumable (p.consumer.key event.id) := by
  have hwork : (Errand.replay p r).work =
      (p.consumer.redeliver event).bind fun outcome => .done (.delivery outcome) := by
    simp only [Errand.work, Replayer.replay, hrebuild]
  obtain ⟨before, store', w, slot, hsolo, hnobody, hselect, hrow⟩ := solo_redeliver (i := i)
    (fun outcome => .done (.delivery outcome)) htries.2 htries.1
  refine ⟨_, store', w, slot, h.solo (hwork ▸ hjob) hsolo ?_, ?_, ?_, hrow⟩
  · rw [selections_append, hselect]
    rfl
  · exact (doers_concat_self (handles_iff.mpr ⟨slot, event, rfl, rfl⟩)).trans
      (congrArg (· ++ [i]) hnobody)
  · exact List.mem_append_right _ (List.mem_singleton_self _)

theorem Scans.givesUp {jobs : List (Work Report)} {i : Nat} {r : Record} {e : Error}
    (h : p.Scans s now batch log ⟨store, jobs⟩) (hjob : jobs[i]? = some (Errand.replay p r).work)
    (hrebuild : p.rebuild r = .error e) (hfind : store.find? r.key = some r)
    (hretrying : r.status = .retrying) (hrevisable : r.Revisable) :
    ∃ log' crew' row, p.Scans s now batch (log ++ log') crew' ∧
      crew'.store.find? r.key = some row ∧ row.status = .failed := by
  have hwork : (Errand.replay p r).work =
      (p.consumer.abandon r e.message).bind fun outcome => .done (.delivery outcome) := by
    simp only [Errand.work, Replayer.replay, hrebuild]
  obtain ⟨log', w, next, hsolo, hselect, hkey, hfailed⟩ := solo_abandon (i := i)
    (fun outcome => .done (.delivery outcome)) hfind hretrying hrevisable e.message
  exact ⟨log', _, next.revised, h.solo (hwork ▸ hjob) hsolo hselect,
    Store.find?_replace_of_eq hfind hkey, hfailed⟩

theorem Scans.scanning (h : p.Scans s now batch log crew) :
    ∃ chart, (Chart.mk s [.selecting p batch]).Run log chart ∧ crew.Charted chart ∧
      p.Scanning s now batch log chart := by
  obtain ⟨chart, hrun, hcharted⟩ := h.run.charted (Crew.charted_waiting s _)
  exact ⟨chart, hrun, hcharted, .run hrun h.alone h.clock⟩

theorem job_selected (s : Store) {rows : List Record} {k : Nat} {r : Record}
    (hr : rows[k]? = some r) :
    (p.selected s rows).jobs[k + 1]? = some (Errand.replay p r).work := by
  show (rows.map fun r => (Errand.replay p r).work)[k]? = _
  rw [List.getElem?_map, hr]
  rfl

/-! ### When groups stay apart -/

/-- **When a scan leaves the rows of other groups alone**: when it has none of them to give up. -/
theorem groups_kept_iff (hkeys : (s.rows.map Record.key).Nodup) :
    (∀ log crew, p.Scans s now batch log crew →
        ∀ key, key.ownerGroup ≠ p.consumer.config.ownerGroup →
          crew.store.find? key = s.find? key) ↔
      ∀ r ∈ s.due now batch, r.ownerGroup ≠ p.consumer.config.ownerGroup →
        (∃ event, p.rebuild r = .ok event) ∨ ¬ r.Revisable := by
  constructor
  · intro hkept r hr hother
    cases hrebuild : p.rebuild r with
    | ok event => exact .inl ⟨event, rfl⟩
    | error e =>
      refine .inr fun hrevisable => ?_
      obtain ⟨hmem, hdue⟩ := Store.mem_due hr
      obtain ⟨-, -, hretrying, -⟩ := Record.isDue_iff.mp hdue
      have hfind := Store.Keyed.find? hkeys hmem
      obtain ⟨k, hk⟩ := List.getElem?_of_mem hr
      -- a row that is given up is not what it was
      obtain ⟨log, crew, row, hscan, hrow, hfailed⟩ :=
        scans_selected.givesUp (job_selected s hk) hrebuild hfind hretrying hrevisable
      rw [hkept _ _ hscan r.key hother, hfind] at hrow
      rw [← Option.some.inj hrow, hretrying] at hfailed
      cases hfailed
  · intro hdue log crew hscan key hother
    obtain ⟨chart, -, hcharted, hscanning⟩ := hscan.scanning
    rw [← hcharted.store]
    refine hscanning.kept.frame key fun hreaches => ?_
    rcases hreaches with hown | ⟨r, hr, rfl, hrebuild, hrevisable⟩
    · exact hother hown
    · rcases hdue r hr hother with ⟨event, hmade⟩ | hnot
      · exact hrebuild event hmade
      · exact hnot hrevisable

/-- **When a scan calls handlers for due events only**: when no row of another group stands for an
event whose own row can be resumed before it is due. -/
theorem own_due_iff :
    (∀ log crew, p.Scans s now batch log crew →
        ∀ i slot event verdict, Entry.asked i (.handle slot event) verdict ∈ log →
          ∃ row, s.find? (p.consumer.key event.id) = some row ∧ row.isDue now = true) ↔
      ∀ r ∈ s.due now batch, ∀ event, p.rebuild r = .ok event → p.Tries s event →
        ∃ row, s.find? (p.consumer.key event.id) = some row ∧ row.isDue now = true := by
  constructor
  · intro hcalls r hr event hrebuild htries
    obtain ⟨k, hk⟩ := List.getElem?_of_mem hr
    obtain ⟨log, store', w, slot, hscan, -, hcall, -⟩ :=
      scans_selected.tries (job_selected s hk) hrebuild htries
    exact hcalls _ _ hscan _ slot event _ (List.mem_append_right _ hcall)
  · intro hdue log crew hscan i slot event verdict hcall
    obtain ⟨chart, -, -, hscanning⟩ := hscan.scanning
    obtain ⟨k, r, -, hr, hrebuild, htries⟩ := hscanning.calls i slot event verdict hcall
    exact hdue r (List.mem_of_getElem? hr) event hrebuild htries

/-- **When a scan calls one handler for an event at most**: when no two selected rows stand for an
event that is tried. -/
theorem handled_once_iff :
    (∀ log crew, p.Scans s now batch log crew → ∀ eventId, (handlers eventId log).length ≤ 1) ↔
      (s.due now batch).Pairwise fun r r' => ∀ event event', p.rebuild r = .ok event →
        p.rebuild r' = .ok event' → p.Tries s event → p.Tries s event' → event.id ≠ event'.id := by
  rw [List.pairwise_iff_getElem]
  constructor
  · intro honce k l hk hl hlt event event' hrebuild hrebuild' htries htries' hid
    obtain ⟨first, store₁, w, slot, hscan, hfirst, -, hrow⟩ :=
      scans_selected.tries (job_selected s (List.getElem?_eq_getElem hk)) hrebuild htries
    -- the second worker finds the row before the handler of the first has answered
    have hjob : ((p.selected s (s.due now batch)).jobs.set (k + 1) w)[l + 1]? =
        some (Errand.replay p (s.due now batch)[l]).work :=
      (List.getElem?_set_ne (by omega)).trans (job_selected s (List.getElem?_eq_getElem hl))
    rw [hid] at hrow
    obtain ⟨second, store₂, w', slot', hscan', hsecond, -, -⟩ :=
      hscan.tries hjob hrebuild' ⟨htries'.1, hrow⟩
    have hlength := honce _ _ hscan' event.id
    rw [← hid] at hsecond
    rw [handlers_append, handlers_append, hfirst, hsecond, List.length_append] at hlength
    simp at hlength
  · intro hapart log crew hscan eventId
    obtain ⟨chart, hrun, -, hscanning⟩ := hscan.scanning
    have hearlier : ∀ i ∈ handlers eventId log, ∀ j ∈ handlers eventId log, ¬ i < j := by
      intro i hi j hj hlt
      obtain ⟨event, hid, k, r, rfl, hr, hrebuild, htries⟩ := hscanning.of_handlers hi
      obtain ⟨event', hid', l, r', rfl, hr', hrebuild', htries'⟩ := hscanning.of_handlers hj
      obtain ⟨hk, rfl⟩ := List.getElem?_eq_some_iff.mp hr
      obtain ⟨hl, rfl⟩ := List.getElem?_eq_some_iff.mp hr'
      exact hapart k l hk hl (by omega) event event' hrebuild hrebuild' htries htries'
        (hid.trans hid'.symm)
    refine length_le_one_of_nodup (Chart.Done.run (Consumer.once_handles eventId) hrun).nodup
      fun i hi j hj => ?_
    exact Nat.le_antisymm (Nat.le_of_not_lt (hearlier j hj i hi))
      (Nat.le_of_not_lt (hearlier i hi j hj))

theorem nodup_due (hkeys : (s.rows.map Record.key).Nodup) : (s.due now batch).Nodup :=
  .of_map Record.key (Store.Keyed.due hkeys now batch)

theorem key_of_due {r : Record} (hr : r ∈ s.due now batch)
    (howner : r.ownerGroup = p.consumer.config.ownerGroup) : r.key = p.consumer.key r.eventId := by
  rw [Record.key_of_isDue (Store.mem_due hr).2, howner]
  rfl

theorem Scans.apart_of_own (hkeys : (s.rows.map Record.key).Nodup)
    (howner : ∀ r ∈ s.due now batch, r.ownerGroup = p.consumer.config.ownerGroup)
    (h : p.Scans s now batch log crew) :
    (∀ key, key.ownerGroup ≠ p.consumer.config.ownerGroup →
      crew.store.find? key = s.find? key) ∧
    (∀ i slot event verdict, Entry.asked i (.handle slot event) verdict ∈ log →
      ∃ row, s.find? (p.consumer.key event.id) = some row ∧ row.isDue now = true) ∧
    ∀ eventId, (handlers eventId log).length ≤ 1 := by
  -- a selected row is the row of its event
  have hkey : ∀ r ∈ s.due now batch, ∀ event, p.rebuild r = .ok event →
      p.consumer.key event.id = r.key := by
    intro r hr event hrebuild
    rw [(rebuild_eq_ok hrebuild).1, key_of_due hr (howner r hr)]
  refine ⟨groups_kept_iff hkeys |>.mpr ?_ log crew h, own_due_iff.mpr ?_ log crew h,
    handled_once_iff.mpr ?_ log crew h⟩
  · intro r hr hother
    exact absurd (howner r hr) hother
  · intro r hr event hrebuild _
    obtain ⟨hmem, hdue⟩ := Store.mem_due hr
    rw [hkey r hr event hrebuild]
    exact ⟨r, Store.Keyed.find? hkeys hmem, hdue⟩
  · refine (nodup_due hkeys).pairwise_of_forall_ne fun r hr r' hr' hne event event' hrebuild
      hrebuild' _ _ hid => hne ?_
    have hsame : r.key = r'.key := by
      rw [← hkey r hr event hrebuild, hid, hkey r' hr' event' hrebuild']
    exact Store.Keyed.eq_of_key hkeys (Store.mem_due hr).1 (Store.mem_due hr').1 hsame

end Replayer

end Scan

/-- **When owner groups stay apart.**  A scan for a group may be interleaved in any way.  It leaves
the rows of other groups as they are, whatever happens, exactly if each of them that it selects can be
made an event of, or cannot be written.  It calls handlers for events only whose row in its own group
is due exactly if that row is due for each selected row of which an event is made that is tried.  And
it calls one handler for an event at most exactly if no two selected rows stand for one event that is
tried. -/
theorem groups_apart_iff (p : Replayer) (s : Store) (now : Instant) (batch : Nat)
    (hkeys : (s.rows.map Record.key).Nodup) :
    ((∀ log crew, p.Scans s now batch log crew →
        ∀ key, key.ownerGroup ≠ p.consumer.config.ownerGroup →
          crew.store.find? key = s.find? key) ↔
      ∀ r ∈ s.due now batch, r.ownerGroup ≠ p.consumer.config.ownerGroup →
        (∃ event, p.rebuild r = .ok event) ∨ ¬ r.Revisable) ∧
    ((∀ log crew, p.Scans s now batch log crew →
        ∀ i slot event verdict, Entry.asked i (.handle slot event) verdict ∈ log →
          ∃ row, s.find? (p.consumer.key event.id) = some row ∧ row.isDue now = true) ↔
      ∀ r ∈ s.due now batch, ∀ event, p.rebuild r = .ok event → p.Tries s event →
        ∃ row, s.find? (p.consumer.key event.id) = some row ∧ row.isDue now = true) ∧
    ((∀ log crew, p.Scans s now batch log crew →
        ∀ eventId, (handlers eventId log).length ≤ 1) ↔
      (s.due now batch).Pairwise fun r r' => ∀ event event', p.rebuild r = .ok event →
        p.rebuild r' = .ok event' → p.Tries s event → p.Tries s event' → event.id ≠ event'.id) :=
  ⟨Replayer.groups_kept_iff hkeys, Replayer.own_due_iff, Replayer.handled_once_iff⟩

namespace Crew

/-! ### Two groups -/

/-- A replayer of the group that owns `dueRow`, for events without a payload. -/
def courier : Replayer := ⟨{}, clerk 3, ⟨fun _ => .ok [], fun _ _ => .ok .null⟩⟩

def foreignRow (id : Int) (eventId ownerGroup : String) : Record :=
  { dueRow with id, eventId, ownerGroup }

/-- Rows of two groups, for different events. -/
def apart : Store := ⟨[dueRow, foreignRow 2 "f" "h"], 2⟩

/-- The groups stay apart where their events are different and can be made again. -/
theorem groups_apart_different :
    (apart.rows.map Record.key).Nodup ∧ ∀ log crew, courier.Scans apart default 2 log crew →
      (∀ key, key.ownerGroup ≠ "g" → crew.store.find? key = apart.find? key) ∧
      (∀ i slot event verdict, Entry.asked i (.handle slot event) verdict ∈ log →
        ∃ row, apart.find? (courier.consumer.key event.id) = some row ∧
          row.isDue default = true) ∧
      ∀ eventId, (handlers eventId log).length ≤ 1 := by
  have hkeys : (apart.rows.map Record.key).Nodup := by decide
  have hdue : apart.due default 2 = [dueRow, foreignRow 2 "f" "h"] :=
    Store.due_of_pairwise 2 (by decide)
  have hmake : ∀ r ∈ apart.due default 2, ∃ event, courier.rebuild r = .ok event := by
    rw [hdue]
    intro r hr
    rcases List.mem_cons.mp hr with rfl | hr
    · exact ⟨_, rfl⟩
    · obtain rfl := List.mem_singleton.mp hr
      exact ⟨_, rfl⟩
  obtain ⟨hkept, hown, honce⟩ := groups_apart_iff courier apart default 2 hkeys
  refine ⟨hkeys, fun log crew hscan => ⟨hkept.mpr (fun r hr _ => .inl (hmake r hr)) log crew hscan,
    hown.mpr ?_ log crew hscan, honce.mpr ?_ log crew hscan⟩⟩
  · rw [hdue]
    intro r hr event hrebuild htries
    have hid := (Replayer.rebuild_eq_ok hrebuild).1
    rcases List.mem_cons.mp hr with rfl | hr
    · rw [hid]
      exact ⟨dueRow, by decide, by decide⟩
    · -- the event has no row in the own group
      obtain rfl := List.mem_singleton.mp hr
      obtain ⟨-, row, hfind, -⟩ := htries
      rw [hid] at hfind
      cases hfind
  · rw [hdue, List.pairwise_pair]
    intro event event' hrebuild hrebuild' _ _
    rw [(Replayer.rebuild_eq_ok hrebuild).1, (Replayer.rebuild_eq_ok hrebuild').1]
    decide

def emptyRow : Record :=
  { foreignRow 4 "f" "h" with payload := none }

/-- Rows for one event in three groups, of which the first is not due, and one without a payload. -/
def mixed : Store :=
  ⟨[{ dueRow with nextRetryTime := some ⟨1, 0⟩ }, foreignRow 2 "e" "h", foreignRow 3 "e" "k",
    emptyRow], 4⟩

/-- **A scan reaches into other groups.**  It calls handlers twice for an event whose own row is not
due, as two other groups have rows for it that are, and it gives a row of another group up. -/
theorem groups_meet :
    ∃ log crew, courier.Scans mixed default 3 log crew ∧
      handlers "e" log = [1, 2] ∧
      (mixed.find? (courier.consumer.key "e")).map (·.isDue default) = some false ∧
      mixed.find? emptyRow.key = some emptyRow ∧ emptyRow.ownerGroup ≠ "g" ∧
      (crew.store.find? emptyRow.key).map (·.status) = some .failed := by
  have hdue : mixed.due default 3 = [foreignRow 2 "e" "h", foreignRow 3 "e" "k", emptyRow] :=
    Store.due_of_pairwise 3 (by decide)
  have hstart : courier.Scans mixed default 3 (Replayer.selection mixed default 3)
      (courier.selected mixed (mixed.due default 3)) := Replayer.scans_selected
  rw [hdue] at hstart
  have hplay : ((courier.selected mixed [foreignRow 2 "e" "h", foreignRow 3 "e" "k", emptyRow]).play
      (turns 3 1 .ok ++ turns 3 2 .ok ++ turns 2 3 .ok)).map (fun p => (handlers "e" p.1,
        selections p.1, (p.2.store.find? emptyRow.key).map (·.status))) =
      some ([1, 2], [], some .failed) := by decide
  obtain ⟨⟨log, crew⟩, hrun, heq⟩ := Option.map_eq_some_iff.mp hplay
  obtain ⟨hhandlers, heq⟩ := Prod.mk.inj heq
  obtain ⟨hselect, hstatus⟩ := Prod.mk.inj heq
  refine ⟨_, crew, hstart.append (run_of_play hrun) (not_began_of_play hrun) hselect, ?_, ?_, ?_,
    ?_, hstatus⟩
  · rw [handlers_append, hhandlers]
    rfl
  · decide
  · decide
  · decide

end Crew

end EventRelay
