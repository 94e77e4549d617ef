import EventRelay.Proofs.Crew.Chart
import EventRelay.Proofs.Crew.Turns
import EventRelay.Proofs.Log

/-!
# Counting retries

Where retries are allowed up to the limit of a row, the version of a row for consuming tells how
often it was tried: it is the number of its retries, and one more once the row is finished
(`Record.Counted`).  The law concerns the rows of the ledger and the copies that workers go on with
alike, and a copy of an old version can be no copy of another count.

Hence a write that is accepted counts one retry more than the row had, or none and finishes the row.
From the creation of a row to its deletion the retries that workers report are `1`, `2`, `3` and so
on in the order of their writes (`retries_counted`).
-/

namespace EventRelay

/-! ### The law of rows -/

/-- What the ledger keeps of the attempts at an event is right. -/
structure Record.Counted (r : Record) : Prop where
  status : r.status ≠ .created
  bounded : r.retryTimes ≤ r.maxRetryTimes
  limited : r.maxRetryTimes ≤ greatestNat32
  version : r.deleteMarker = 0 →
    r.version = r.retryTimes + if r.status = .success ∨ r.status = .failed then 1 else 0
  exhausted : r.status = .failed → ∀ rest, r.message = some (Consumer.exhausted ++ rest) →
    r.retryTimes = r.maxRetryTimes

/-- Whether a consumer allows retries up to the limit, as exponential backoff does. -/
def Consumer.AllowsToLimit (c : Consumer) : Prop :=
  ∀ tried limit, c.rule.allows tried limit = decide (tried < limit)

theorem Consumer.allowsToLimit_of_backoff {c : Consumer} {b : Backoff} (h : c.rule = .backoff b) :
    c.AllowsToLimit := by
  intro tried limit
  rw [h]
  rfl

theorem Record.Counted.version_retrying {r : Record} (h : r.Counted) (hmarker : r.deleteMarker = 0)
    (hretrying : r.status = .retrying) : r.version = r.retryTimes := by
  have := h.version hmarker
  rw [hretrying] at this
  simpa using this

theorem Record.Counted.retrying {r : Record} (h : r.Counted)
    (hactive : r.status.isTerminal = false) : r.status = .retrying := by
  have hcreated := h.status
  cases hstatus : r.status with
  | retrying => rfl
  | created => exact absurd hstatus hcreated
  | success =>
    rw [hstatus] at hactive
    cases hactive
  | failed =>
    rw [hstatus] at hactive
    cases hactive

theorem Record.Counted.deleted {r : Record} (h : r.Counted) (now : Instant) :
    (r.deleted now).revised.Counted where
  status := h.status
  bounded := h.bounded
  limited := h.limited
  version hmarker := absurd hmarker (r.deleteMarker_deleted now)
  exhausted := h.exhausted

theorem Consumer.counted_freshRecord {c : Consumer} {event : Event} {payload : Bytes}
    {now : Instant} {id : Int} (h : event.maxRetries c.config.defaultMaxRetries ≤ greatestNat32) :
    Record.Counted { c.freshRecord event payload now with id := id } where
  status := by simp [freshRecord]
  bounded := Nat.zero_le _
  limited := h
  version _ := rfl
  exhausted hfailed := by cases hfailed

theorem Consumer.not_exhausted {text rest rest' : String} {first : Char}
    (hfirst : text.toList.head? = some first) (hne : first ≠ 'm') :
    text ++ rest ≠ exhausted ++ rest' := by
  intro heq
  have hhead := congrArg (fun s : String => s.toList.head?) heq
  simp only [String.toList_append, List.head?_append] at hhead
  have hexhausted : exhausted.toList.head? = some 'm' := by decide
  rw [hfirst, hexhausted] at hhead
  exact hne (Option.some.inj hhead)

/-- **Concluding an attempt keeps the law.** -/
theorem Consumer.Settles.counted {c : Consumer} {event : Event} {r next : Record}
    {attempt : Attempt} {t : Transition} {outcome : Outcome} {now : Instant}
    (h : Settles c event r attempt t outcome) (hnext : r.transition t now = .ok next)
    (hlimit : c.AllowsToLimit) (hr : r.Counted) (hmarker : r.deleteMarker = 0)
    (hretrying : r.status = .retrying) : next.revised.Counted := by
  have hversion := hr.version_retrying hmarker hretrying
  have horigin : next.maxRetryTimes = r.maxRetryTimes :=
    congrArg Record.Origin.maxRetryTimes (Record.origin_transition hnext)
  have hnextversion : next.revised.version = r.retryTimes + 1 := by
    rw [Record.version_revised, Record.version_transition hnext, hversion]
  refine ⟨?_, ?_, ?_, fun _ => ?_, ?_⟩
  · show next.status ≠ .created
    exact Record.status_ne_created_of_transition hnext
  · show next.retryTimes ≤ next.maxRetryTimes
    rw [horigin]
    rcases h.writes hnext with ⟨hcount, -, hallows, -⟩ | ⟨hcount, -⟩
    · rw [hlimit, decide_eq_true_eq] at hallows
      omega
    · rw [hcount]
      exact hr.bounded
  · show next.maxRetryTimes ≤ greatestNat32
    rw [horigin]
    exact hr.limited
  · rw [hnextversion]
    show (r.retryTimes : Int) + 1 =
      next.retryTimes + if next.status = .success ∨ next.status = .failed then 1 else 0
    rcases h.writes hnext with ⟨hcount, hstatus, -⟩ | ⟨hcount, hterminal, -⟩
    · rw [hcount, hstatus]
      simp
    · rw [hcount, if_pos]
      cases hs : next.status <;> rw [hs] at hterminal <;> simp [Status.isTerminal] at hterminal ⊢
  · intro hfailed rest hmessage
    show next.retryTimes = next.maxRetryTimes
    rw [horigin]
    rw [(Record.transition_cases hnext).2] at hfailed hmessage ⊢
    cases h with
    | unhandled => exact absurd (Option.some.inj hmessage) (not_exhausted rfl (by decide))
    | succeeded h => cases hfailed
    | rescheduled h hallows hcount htime => cases hfailed
    | exhausted h hallows =>
      rw [hlimit, decide_eq_false_iff_not] at hallows
      have := hr.bounded
      show r.retryTimes = r.maxRetryTimes
      omega
    | abandoned => exact absurd (Option.some.inj hmessage) (not_exhausted rfl (by decide))

/-! ### The law of copies -/

structure Record.Open (r : Record) : Prop where
  action : r.action = .consume
  marker : r.deleteMarker = 0
  retrying : r.status = .retrying
  counted : r.Counted

/-- Errands for which retries are allowed up to limits of 32 bits. -/
def Errand.Limited : Errand → Prop
  | .deliver c event | .redeliver c event =>
    c.AllowsToLimit ∧ event.maxRetries c.config.defaultMaxRetries ≤ greatestNat32
  | .publish _ _ => True
  | .scan p _ => p.consumer.AllowsToLimit
  | .replay _ _ => False

def Post.Counts : Post → Prop
  | .delivery c event stage =>
    c.AllowsToLimit ∧ event.maxRetries c.config.defaultMaxRetries ≤ greatestNat32 ∧
      match stage with
      | .holding r _ => r.Open
      | .joining _ => False
      | _ => True
  | .publication _ _ (.sending r) | .publication _ _ (.noting r _ _) => r.action = .publish
  | .publication _ _ _ => True
  | .selecting p _ => p.consumer.AllowsToLimit
  | .selected p rows => p.consumer.AllowsToLimit ∧ ∀ l, rows = .ok l → ∀ r ∈ l, r.Open
  | .crashed => True

theorem Errand.Limited.counts {errand : Errand} (h : errand.Limited) : errand.post.Counts := by
  cases errand with
  | deliver c event => exact ⟨h.1, h.2, trivial⟩
  | redeliver c event => exact ⟨h.1, h.2, trivial⟩
  | publish p event => trivial
  | scan p batch => exact h
  | replay p r => exact h.elim

theorem Record.Open.counts_replay {r : Record} (h : r.Open) {p : Replayer}
    (hp : p.consumer.AllowsToLimit) : (Errand.replay p r).post.Counts := by
  cases hrebuild : p.rebuild r with
  | ok event =>
    rw [Errand.post_replay hrebuild]
    refine ⟨hp, ?_, trivial⟩
    rw [Event.maxRetries, (Replayer.rebuild_eq_ok hrebuild).2]
    exact h.counted.limited
  | error e =>
    rw [Errand.post_replay_error hrebuild]
    exact ⟨hp, h.counted.limited, h⟩

section Law

variable {s s' : Store} {request : Request} {reply : request.Reply}

/-- All rows for consuming are right. -/
def Store.Counted (s : Store) : Prop :=
  ∀ r ∈ s.rows, r.action = .consume → r.Counted

theorem Store.Counted.of_find (h : s.Counted) {c : Consumer} {eventId : String} {r : Record}
    (hfind : s.find? (c.key eventId) = some r) :
    r.Counted ∧ r.action = .consume ∧ r.deleteMarker = 0 := by
  have hkey := Store.key_of_find? hfind
  have haction : r.action = .consume := congrArg Key.action hkey
  exact ⟨h r (Store.mem_of_find? hfind) haction, haction, congrArg Key.deleteMarker hkey⟩

theorem Post.Counts.deliver {c : Consumer} {event : Event} {stage stage' : Consumer.Stage}
    (h : (Post.delivery c event stage).Counts) (hs : s.Counted)
    (hreply : s.Replies request reply s')
    (hmove : Consumer.Moves c event stage request reply stage') :
    (Post.delivery c event stage').Counts := by
  obtain ⟨hallows, hlimit, hstage⟩ := h
  refine ⟨hallows, hlimit, ?_⟩
  cases hmove with
  | missing | unknown | reopened | passed | beaten | freed | kept | unclaimed | concluded | gaveUp
  | refused | consulted | notified | fault => trivial
  | @resumed r hretrying =>
    obtain ⟨hcounted, haction, hmarker⟩ := hs.of_find hreply.found.1.symm
    exact ⟨haction, hmarker, hretrying, hcounted⟩
  | met hcreated => exact (hs.of_find hreply.found.1.symm).1.status hcreated
  | created hpayload =>
    rcases hreply.creation with ⟨winner, hcreation, -⟩ | hcreation
    · cases hcreation
    · cases hcreation
      exact ⟨rfl, rfl, rfl, Consumer.counted_freshRecord hlimit⟩
  | second hpayload hcreated =>
    rcases hreply.creation with ⟨winner, hcreation, hfind⟩ | hcreation
    · cases hcreation
      exact (hs.of_find hfind).1.status hcreated
    · cases hcreation
  | claimed => exact hstage.elim
  | questioned | handled => exact hstage
  | clock htick =>
    rcases Consumer.Stage.tick_cases htick with ⟨r, verdict, rfl, rfl⟩ | rfl
    · exact hstage
    · exact hstage

theorem Post.Counts.move {post post' : Post} (h : post.Counts) (hs : s.Counted)
    (hreply : s.Replies request reply s') (hmove : post.Moves request reply post') :
    post'.Counts := by
  cases hmove with
  | delivery hmove => exact h.deliver hs hreply hmove
  | publication hmove =>
    cases hmove with
    | duplicate | unable | noted | sentUnrecorded | clock => trivial
    | created =>
      rcases hreply.creation with ⟨winner, hcreation, -⟩ | hcreation
      · cases hcreation
      · cases hcreation
        rfl
    | known hstatus =>
      rcases hreply.creation with ⟨winner, hcreation, hfind⟩ | hcreation
      · cases hcreation
        exact congrArg Key.action (Store.key_of_find? hfind)
      · cases hcreation
    | sent | deferred | clockNoting => exact h
  | clock => exact h
  | selected =>
    refine ⟨h, fun l hl r hr => ?_⟩
    rcases hreply with ⟨hdue, -⟩ | ⟨⟨e, hfails⟩, -⟩
    · rw [hl] at hdue
      rw [Except.ok.inj hdue] at hr
      obtain ⟨hmem, hdue⟩ := Store.mem_due hr
      obtain ⟨hmarker, haction, hretrying, -⟩ := Record.isDue_iff.mp hdue
      exact ⟨haction, hmarker, hretrying, hs r hmem haction⟩
    · rw [hl] at hfails
      cases hfails

end Law

/-! ### Workers that have written -/

def Post.retry? : Post → Option Nat
  | .delivery _ _ (.ended (.ok (.rescheduled n _))) => some n
  | _ => none

theorem Post.eq_of_retry? {post : Post} {n : Nat} (h : post.retry? = some n) :
    ∃ c event t, post = .delivery c event (.ended (.ok (.rescheduled n t))) := by
  unfold retry? at h
  split at h
  · cases h
    exact ⟨_, _, _, rfl⟩
  · cases h

/-- Whether a worker will neither write nor change its report any more. -/
def Post.isSettled : Post → Bool
  | .delivery _ _ (.ended _) | .delivery _ _ (.notifying _) | .crashed => true
  | _ => false

namespace Chart

variable {chart chart' : Chart} {entry : Entry} {log : List Entry}

def reported (chart : Chart) (i : Nat) : Option Nat :=
  chart.posts[i]?.bind Post.retry?

theorem settled_of_moves {post post' : Post} {request : Request} {reply : request.Reply}
    (h : post.Moves request reply post') (hsettled : post.isSettled = true) :
    post'.isSettled = true ∧ post'.retry? = none ∧ post.retry? = none := by
  cases h with
  | @delivery c event stage stage' _ _ hmove =>
    cases stage with
    | ended outcome => exact absurd hmove Consumer.not_moves_ended
    | notifying stored =>
      cases hmove with
      | consulted | notified | fault => exact ⟨rfl, rfl, rfl⟩
      | clock htick => cases htick
    | seeking | founding | reopening | joining | holding => cases hsettled
  | publication | clock | selected => cases hsettled

theorem Step.settled (h : chart.Step entry chart') {i : Nat} {post : Post}
    (hpost : chart.posts[i]? = some post) (hsettled : post.isSettled = true) :
    ∃ post', chart'.posts[i]? = some post' ∧ post'.isSettled = true ∧
      chart'.reported i = chart.reported i := by
  have hreported : chart.reported i = post.retry? := by
    rw [reported, hpost]
    rfl
  have hreported' : ∀ post', chart'.posts[i]? = some post' → chart'.reported i = post'.retry? := by
    intro post' hpost'
    rw [reported, hpost']
    rfl
  rcases h.fate hpost with hsame | ⟨request, reply, post', -, hmove, hpost'⟩ |
    ⟨request, hmove, hpost'⟩ | ⟨p, rows, rfl, -⟩
  · exact ⟨post, hsame, hsettled, (hreported' post hsame).trans hreported.symm⟩
  · obtain ⟨hsettled', hretry', hretry⟩ := settled_of_moves hmove hsettled
    refine ⟨post', hpost', hsettled', ?_⟩
    rw [hreported' post' hpost', hreported, hretry', hretry]
  · obtain ⟨post', hmove⟩ := hmove request.answer
    obtain ⟨-, -, hretry⟩ := settled_of_moves hmove hsettled
    refine ⟨.crashed, hpost', rfl, ?_⟩
    rw [hreported' .crashed hpost', hreported, hretry]
    rfl
  · cases hsettled

end Chart

/-! ### What a run preserves -/

def writesTo (key : Key) (log : List Entry) : List (Nat × Record) :=
  (writes log).filter fun w => w.2.key = key

theorem writesTo_concat (key : Key) (log : List Entry) (e : Entry) :
    writesTo key (log ++ [e]) =
      writesTo key log ++ e.update?.toList.filter fun w => w.2.key = key := by
  rw [writesTo, writes_concat, List.filter_append]
  rfl

theorem writesTo_concat_update {key : Key} {log : List Entry} {i : Nat} {next : Record}
    (hkey : next.key = key) :
    writesTo key (log ++ [.asked i (.update next) (.ok true)]) = writesTo key log ++ [(i, next)] := by
  rw [writesTo_concat]
  exact congrArg _ (List.filter_cons_of_pos (decide_eq_true hkey))

theorem mem_writesTo_concat {key : Key} {log : List Entry} {i : Nat} {next : Record}
    (hkey : next.key = key) :
    (i, next) ∈ writesTo key (log ++ [.asked i (.update next) (.ok true)]) := by
  rw [writesTo_concat_update hkey]
  exact List.mem_append_right _ (List.mem_singleton_self _)

theorem writesTo_concat_other {key : Key} {log : List Entry} {e : Entry}
    (hother : ∀ w, e.update? = some w → w.2.key ≠ key) :
    writesTo key (log ++ [e]) = writesTo key log := by
  rw [writesTo_concat, List.append_right_eq_self, List.filter_eq_nil_iff]
  intro w hw
  rw [decide_eq_true_eq]
  exact hother w (Option.mem_toList.mp hw)

/-- **A write from a right copy.**  The written row is right, and its count is by one greater than
its version was if a retry was planned, and equal to it otherwise. -/
theorem Record.Open.settles {r next : Record} {c : Consumer} {event : Event}
    {attempt : Consumer.Attempt} {t : Transition} {outcome : Consumer.Outcome} {now : Instant}
    (h : r.Open) (hallows : c.AllowsToLimit)
    (hsettles : Consumer.Settles c event r attempt t outcome)
    (hnext : r.transition t now = .ok next) :
    next.revised.Counted ∧
      ((next.retryTimes : Int) = next.version + 1 ∧
          (∃ t', outcome = .rescheduled next.retryTimes t') ∨
        (next.retryTimes : Int) = next.version ∧ ∀ n t', outcome ≠ .rescheduled n t') := by
  have hversion : next.version = r.retryTimes := by
    rw [Record.version_transition hnext, h.counted.version_retrying h.marker h.retrying]
  refine ⟨hsettles.counted hnext hallows h.counted h.marker h.retrying, ?_⟩
  rcases hsettles.writes hnext with ⟨hcount, -, -, hreport⟩ | ⟨hcount, -, hreport⟩
  · exact .inl ⟨by omega, hreport⟩
  · exact .inr ⟨by omega, hreport⟩

/-- **An accepted write about consuming.**  The written row is right, and the worker reports the
retry that was counted, if one was. -/
theorem Post.Counts.update {post post' : Post} {next : Record} (h : post.Counts)
    (hmove : post.Moves (.update next) (.ok true) post') (haction : next.action = .consume) :
    next.revised.Counted ∧ post'.isSettled = true ∧
      ((post'.retry? = some next.retryTimes ∧ (next.retryTimes : Int) = next.version + 1) ∨
        (post'.retry? = none ∧ (next.retryTimes : Int) = next.version)) := by
  cases hmove with
  | @delivery c event stage stage' _ _ hmove =>
    obtain ⟨hallows, -, hstage⟩ := h
    cases hmove with
    | claimed => exact hstage.elim
    | @concluded r _ attempt t outcome now hsettles hfailed hnext =>
      obtain ⟨hcounted, hreport⟩ := Record.Open.settles hstage hallows hsettles hnext
      refine ⟨hcounted, rfl, ?_⟩
      rcases hreport with ⟨hcount, t', rfl⟩ | ⟨hcount, hother⟩
      · exact .inl ⟨rfl, hcount⟩
      · refine .inr ⟨?_, hcount⟩
        cases outcome with
        | rescheduled n t' => exact absurd rfl (hother n t')
        | succeeded | skipped | failed | unhandled | missing | conflict => rfl
    | @gaveUp r _ attempt t now hsettles hnext =>
      obtain ⟨hcounted, hreport⟩ := Record.Open.settles hstage hallows hsettles hnext
      refine ⟨hcounted, rfl, .inr ⟨rfl, ?_⟩⟩
      rcases hreport with ⟨-, t', hreport⟩ | ⟨hcount, -⟩
      · cases hreport
      · exact hcount
    | fault hfails hs => cases hfails
  | publication hmove =>
    cases hmove with
    | @noted r _ t outcome now _ hnext =>
      have hpublish : next.action = r.action :=
        congrArg Record.Origin.action (Record.origin_transition hnext)
      rw [haction] at hpublish
      exact absurd (hpublish.trans h) (by decide)

theorem Post.Counts.creation {post post' : Post} {s s' : Store} {draft r : Record}
    (h' : post'.Counts) (hreply : s.Replies (.create draft) (.ok (.created r)) s')
    (hmove : post.Moves (.create draft) (.ok (.created r)) post') (haction : r.action = .consume) :
    r.Counted ∧ r.retryTimes = 0 := by
  cases hmove with
  | delivery hmove =>
    cases hmove with
    | created hpayload =>
      refine ⟨h'.2.2.counted, ?_⟩
      rcases hreply.creation with ⟨winner, hcreation, -⟩ | hcreation
      · cases hcreation
      · cases hcreation
        rfl
    | fault hfails hs => cases hfails
  | publication hmove =>
    cases hmove with
    | created =>
      have hpublish : r.action = .publish := h'
      rw [haction] at hpublish
      cases hpublish

namespace Chart

variable {chart chart' : Chart} {entry : Entry} {log : List Entry}

structure Counting (log : List Entry) (chart : Chart) : Prop where
  rows : chart.store.Counted
  posts : ∀ (i : Nat) post, chart.posts[i]? = some post → post.Counts
  settled : ∀ w ∈ writes log, w.2.action = .consume →
    ∃ post, chart.posts[w.1]? = some post ∧ post.isSettled = true
  written : ∀ i n, chart.reported i = some n → ∃ r, (i, r) ∈ writes log ∧ r.retryTimes = n
  numbered : ∀ before e during r, log = before ++ e :: during → e.creation? = some r →
    r.action = .consume → r.deleteMarker = 0 → (∀ e' ∈ during, e'.cleared? ≠ some r.key) →
      ∃ row, chart.store.find? r.key = some row ∧
        (writesTo r.key during).filterMap (fun w => chart.reported w.1) =
          List.range' 1 row.retryTimes

theorem Counting.posts_step (h : Counting log chart) (hstep : chart.Step entry chart')
    (hbegan : ∀ errand, entry = .began errand → errand.Limited) :
    ∀ (i : Nat) post, chart'.posts[i]? = some post → post.Counts := by
  intro i post hpost
  cases hstep.came hpost with
  | stayed hold hentry => exact h.posts i post hold
  | moved hentry hold hreply hmove => exact (h.posts i _ hold).move h.rows hreply hmove
  | joined hpost hentry hj => exact hpost ▸ (hbegan _ hentry).counts
  | handed hpost hentry hsel hr hj =>
    obtain ⟨hp, hrows⟩ := h.posts _ _ hsel
    exact hpost ▸ (hrows _ rfl _ hr).counts_replay hp
  | emptied hpost hentry hsel =>
    obtain ⟨hp, -⟩ := h.posts _ _ hsel
    refine hpost ▸ ⟨hp, fun l hl r hr => ?_⟩
    cases hl
    cases hr
  | crashed hpost hentry => exact hpost ▸ trivial

theorem Counting.rows_step (h : Counting log chart) (hstep : chart.Step entry chart')
    (hbegan : ∀ errand, entry = .began errand → errand.Limited) : chart'.store.Counted := by
  have heffect := hstep.effect
  have hposts := h.posts_step hstep hbegan
  intro r hr haction
  generalize hs : chart'.store = s' at heffect hr
  cases heffect with
  | unchanged hupdate hcreation hcleared => exact h.rows r hr haction
  | created hfree =>
    rcases List.mem_append.mp hr with hr | hr
    · exact h.rows r hr haction
    · rw [List.mem_singleton.mp hr] at haction ⊢
      obtain ⟨post, post', -, hpost', hreply, hmove⟩ := hstep.of_asked
      exact ((hposts _ _ hpost').creation hreply hmove haction).1
  | @updated i next stored hfind hversion hactive =>
    rcases Store.mem_replace hr with rfl | ⟨hr, -⟩
    · obtain ⟨post, post', hpost, -, -, hmove⟩ := hstep.of_asked
      exact ((h.posts i post hpost).update hmove haction).1
    · exact h.rows r hr haction
  | @deleted i next stored now hfind hversion =>
    rcases Store.mem_refile hr with rfl | ⟨hr, -, -⟩
    · exact (h.rows stored (Store.mem_of_find? hfind) haction).deleted now
    · exact h.rows r hr haction
  | lost hfind hversion => exact h.rows r (Store.mem_erase.mp hr).1 haction

theorem Counting.settled_step (h : Counting log chart) (hstep : chart.Step entry chart') :
    ∀ w ∈ writes (log ++ [entry]), w.2.action = .consume →
      ∃ post, chart'.posts[w.1]? = some post ∧ post.isSettled = true := by
  rintro ⟨i, next⟩ hw haction
  rw [writes_concat, List.mem_append, Option.mem_toList] at hw
  rcases hw with hw | hw
  · obtain ⟨post, hpost, hsettled⟩ := h.settled _ hw haction
    obtain ⟨post', hpost', hsettled', -⟩ := hstep.settled hpost hsettled
    exact ⟨post', hpost', hsettled'⟩
  · obtain rfl := Entry.eq_of_update? hw
    obtain ⟨post, post', hpost, hpost', -, hmove⟩ := hstep.of_asked
    exact ⟨post', hpost', ((h.posts i post hpost).update hmove haction).2.1⟩

theorem Counting.written_step (h : Counting log chart) (hstep : chart.Step entry chart') :
    ∀ i n, chart'.reported i = some n →
      ∃ r, (i, r) ∈ writes (log ++ [entry]) ∧ r.retryTimes = n := by
  intro i n hreported
  obtain ⟨post, hpost, hretry⟩ := Option.bind_eq_some_iff.mp hreported
  obtain ⟨c, event, t, rfl⟩ := Post.eq_of_retry? hretry
  cases hstep.came hpost with
  | stayed hold hentry =>
    obtain ⟨r, hr, hn⟩ := h.written i n (by rw [reported, hold]; rfl)
    exact ⟨r, by rw [writes_concat]; exact List.mem_append_left _ hr, hn⟩
  | moved hentry hold hreply hmove =>
    cases hmove with
    | delivery hmove =>
      obtain ⟨next, hn, heq⟩ := hmove.to_rescheduled
      cases heq
      exact ⟨next, hentry ▸ mem_writes_concat, hn⟩
  | joined hpost hentry hj => exact absurd hpost.symm Errand.post_ne_ended
  | handed hpost hentry hsel hr hj => exact absurd hpost.symm Errand.post_ne_ended
  | emptied hpost => cases hpost
  | crashed hpost => cases hpost

theorem Counting.reported_step (h : Counting log chart) (hstep : chart.Step entry chart')
    {key : Key} (hkey : key.action = .consume) {part : List Entry}
    (hpart : writes part ⊆ writes log) :
    (writesTo key part).filterMap (fun w => chart'.reported w.1) =
      (writesTo key part).filterMap fun w => chart.reported w.1 := by
  refine List.filterMap_congr fun w hw => ?_
  obtain ⟨hw, hwkey⟩ := List.mem_filter.mp hw
  have haction : w.2.action = .consume :=
    (congrArg Key.action (of_decide_eq_true hwkey)).trans hkey
  obtain ⟨post, hpost, hsettled⟩ := h.settled w (hpart hw) haction
  obtain ⟨-, -, -, hreported⟩ := hstep.settled hpost hsettled
  exact hreported

theorem Counting.counted_write (h : Counting log chart) {i : Nat} {next row : Record} {key : Key}
    (hstep : chart.Step (.asked i (.update next) (.ok true)) chart')
    (haction : key.action = .consume) (hmarker : key.deleteMarker = 0)
    (hrow : chart.store.find? key = some row) (hkey : next.key = key)
    (hversion : row.version = next.version) (hactive : row.status.isTerminal = false) :
    List.range' 1 next.revised.retryTimes = List.range' 1 row.retryTimes ++
      [(i, next)].filterMap fun w => chart'.reported w.1 := by
  have hrowkey := Store.key_of_find? hrow
  have hcounted := h.rows row (Store.mem_of_find? hrow)
    ((congrArg Key.action hrowkey).trans haction)
  have hrowversion : row.version = row.retryTimes :=
    hcounted.version_retrying ((congrArg Key.deleteMarker hrowkey).trans hmarker)
      (hcounted.retrying hactive)
  obtain ⟨post, post', hpost, hpost', -, hmove⟩ := hstep.of_asked
  obtain ⟨-, -, hreport⟩ := (h.posts i post hpost).update hmove
    ((congrArg Key.action hkey).trans haction)
  have hreported : chart'.reported i = post'.retry? := by rw [reported, hpost']; rfl
  rw [List.filterMap_cons, List.filterMap_nil, Record.retryTimes_revised]
  rcases hreport with ⟨hreport, hretry⟩ | ⟨hreport, hretry⟩
  · have hcount : next.retryTimes = row.retryTimes + 1 := by omega
    simp only [hreported, hreport]
    rw [hcount, List.range'_1_concat, Nat.add_comm 1]
  · have hcount : next.retryTimes = row.retryTimes := by omega
    simp only [hreported, hreport]
    rw [hcount, List.append_nil]

theorem Counting.numbered_created (h : Counting log chart) (hstep : chart.Step entry chart')
    (hbegan : ∀ errand, entry = .began errand → errand.Limited) {r : Record}
    (hcreation : entry.creation? = some r) (haction : r.action = .consume) :
    chart'.store.find? r.key = some r ∧ r.retryTimes = 0 := by
  refine ⟨(hstep.effect.of_creation hcreation).2, ?_⟩
  obtain ⟨i, draft, rfl⟩ := Entry.eq_of_creation? hcreation
  obtain ⟨post, post', -, hpost', hreply, hmove⟩ := hstep.of_asked
  exact ((h.posts_step hstep hbegan i post' hpost').creation hreply hmove haction).2

/-- **What a step adds to the count.** -/
theorem Counting.numbered_step (h : Counting log chart) (hstep : chart.Step entry chart')
    (hbegan : ∀ errand, entry = .began errand → errand.Limited) :
    ∀ before e during r, log ++ [entry] = before ++ e :: during → e.creation? = some r →
      r.action = .consume → r.deleteMarker = 0 → (∀ e' ∈ during, e'.cleared? ≠ some r.key) →
        ∃ row, chart'.store.find? r.key = some row ∧
          (writesTo r.key during).filterMap (fun w => chart'.reported w.1) =
            List.range' 1 row.retryTimes := by
  intro before e during r hlog hcreation haction hmarker hcleared
  rcases concat_eq_append_cons.mp hlog with ⟨rfl, rfl, rfl⟩ | ⟨during', rfl, rfl⟩
  · obtain ⟨hfind, hretry⟩ := h.numbered_created hstep hbegan hcreation haction
    exact ⟨r, hfind, by rw [hretry]; rfl⟩
  · obtain ⟨row, hrow, hcount⟩ := h.numbered before e during' r rfl hcreation haction hmarker
      fun e' he' => hcleared e' (List.mem_append_left _ he')
    have hpart : writes during' ⊆ writes (before ++ e :: during') :=
      writes_mono fun x hx => List.mem_append_right _ (List.mem_cons_of_mem _ hx)
    have hkept := h.reported_step hstep (show r.key.action = .consume from haction) hpart
    rcases hstep.effect.find_next hmarker hrow
        (hcleared entry (List.mem_append_right _ (List.mem_singleton_self _))) with
      ⟨i, next, rfl, hkey, hversion, hactive, hfind⟩ | ⟨hother, hfind⟩
    · -- the row is written, and the write reports what it adds
      refine ⟨next.revised, hfind, ?_⟩
      rw [writesTo_concat_update hkey, List.filterMap_append, hkept, hcount,
        h.counted_write hstep haction hmarker hrow hkey hversion hactive]
    · -- the row is still there, and no report is added
      refine ⟨row, hfind, ?_⟩
      rw [writesTo_concat_other hother, hkept, hcount]

theorem Counting.step (h : Counting log chart) (hstep : chart.Step entry chart')
    (hbegan : ∀ errand, entry = .began errand → errand.Limited) :
    Counting (log ++ [entry]) chart' where
  rows := h.rows_step hstep hbegan
  posts := h.posts_step hstep hbegan
  settled := h.settled_step hstep
  written := h.written_step hstep
  numbered := h.numbered_step hstep hbegan

theorem counting_start {s : Store} {errands : List Errand}
    (hs : ∀ r ∈ s.rows, r.action ≠ .consume) (herrands : ∀ errand ∈ errands, errand.Limited) :
    Counting [] ⟨s, errands.map Errand.post⟩ where
  rows r hr haction := absurd haction (hs r hr)
  posts i post hpost := by
    obtain ⟨errand, herrand, rfl⟩ := List.mem_map.mp (List.mem_of_getElem? hpost)
    exact (herrands errand herrand).counts
  settled w hw := absurd hw List.not_mem_nil
  written i n hreported := by
    obtain ⟨post, hpost, hretry⟩ := Option.bind_eq_some_iff.mp hreported
    obtain ⟨c, event, t, rfl⟩ := Post.eq_of_retry? hretry
    obtain ⟨errand, -, hpost⟩ := List.mem_map.mp (List.mem_of_getElem? hpost)
    exact absurd hpost Errand.post_ne_ended
  numbered before e during r hlog := by cases before <;> cases hlog

theorem Counting.run {past : List Entry} (h : Counting past chart) (hrun : chart.Run log chart')
    (hbegan : ∀ errand, Entry.began errand ∈ log → errand.Limited) :
    Counting (past ++ log) chart' := by
  induction hrun with
  | start =>
    rw [List.append_nil]
    exact h
  | step prior hstep ih =>
    rw [← List.append_assoc]
    refine (ih fun errand hmem => ?_).step hstep fun errand hentry => ?_
    · exact hbegan errand (List.mem_append_left _ hmem)
    · exact hbegan errand (List.mem_append_right _ (List.mem_singleton.mpr hentry.symm))

theorem Counting.reported_run {past : List Entry} (h : Counting past chart)
    (hrun : chart.Run log chart') (hbegan : ∀ errand, Entry.began errand ∈ log → errand.Limited)
    {key : Key} (hkey : key.action = .consume) {part : List Entry}
    (hpart : writes part ⊆ writes past) :
    (writesTo key part).filterMap (fun w => chart'.reported w.1) =
      (writesTo key part).filterMap fun w => chart.reported w.1 := by
  induction hrun with
  | start => rfl
  | @step log _ _ entry prior hstep ih =>
    have hprior : ∀ errand, Entry.began errand ∈ log → errand.Limited := fun errand hmem =>
      hbegan errand (List.mem_append_left _ hmem)
    have hpast : writes past ⊆ writes (past ++ log) :=
      writes_mono (List.subset_append_left past log)
    refine ((h.run prior hprior).reported_step hstep hkey ?_).trans (ih hprior)
    exact List.Subset.trans hpart hpast

end Chart

namespace Crew

def reported (crew : Crew) (i : Nat) : Option Nat :=
  (crew.jobs[i]?.bind Work.outcome?).bind fun
    | .rescheduled n _ => some n
    | _ => none

theorem reported_eq_some {crew : Crew} {i n : Nat} :
    crew.reported i = some n ↔
      ∃ t, crew.jobs[i]? = some (.done (.delivery (.ok (.rescheduled n t)))) := by
  constructor
  · intro h
    obtain ⟨outcome, houtcome, hn⟩ := Option.bind_eq_some_iff.mp h
    obtain ⟨w, hjob, hw⟩ := Option.bind_eq_some_iff.mp houtcome
    obtain rfl := Work.outcome?_eq_some.mp hw
    cases outcome with
    | rescheduled n' t =>
      cases hn
      exact ⟨t, hjob⟩
    | succeeded | skipped | failed | unhandled | missing | conflict => cases hn
  · rintro ⟨t, hjob⟩
    rw [reported, hjob]
    rfl

theorem Charted.reported {crew : Crew} {chart : Chart} (h : crew.Charted chart) (i : Nat) :
    crew.reported i = chart.reported i := by
  refine Option.ext fun n => ?_
  rw [reported_eq_some]
  constructor
  · rintro ⟨t, hjob⟩
    obtain ⟨post, hpost, hends⟩ := h.post hjob
    rw [Chart.reported, hpost]
    cases hends with
    | delivery hends =>
      cases hends
      rfl
  · intro hreported
    obtain ⟨post, hpost, hretry⟩ := Option.bind_eq_some_iff.mp hreported
    obtain ⟨c, event, t, rfl⟩ := Post.eq_of_retry? hretry
    obtain ⟨w, hjob, hfollows⟩ := h.work hpost
    exact ⟨t, by rw [hjob, Post.done_of_ended hfollows]⟩

theorem Charted.not_crash {crew : Crew} {chart : Chart} (h : crew.Charted chart)
    (hposts : ∀ (i : Nat) post, chart.posts[i]? = some post → post.Counts) {slot : Nat}
    {event : Event} {next : (Request.handle slot event).Reply → Work Report}
    (hmem : .ask (.handle slot event) next ∈ crew.jobs) (verdict : Verdict) (text : String) :
    next verdict ≠ .crash text := by
  intro hcrash
  obtain ⟨i, hjob⟩ := List.getElem?_of_mem hmem
  obtain ⟨post, hpost, hfollows⟩ := h.post hjob
  obtain ⟨post', hmove, hnext⟩ := hfollows verdict
  rw [hcrash] at hnext
  cases hmove with
  | delivery hmove =>
    cases hmove with
    | @handled r _ _ hslot =>
      obtain ⟨hallows, -, hopen⟩ := hposts i _ hpost
      have hcounted : r.Counted := Record.Open.counted hopen
      cases hnext with
      | delivery hcrashes =>
        cases hcrashes with
        | counting hallowed hoverflow =>
          rw [hallows, decide_eq_true_eq] at hallowed
          have hlimited := hcounted.limited
          rw [next32, if_pos (by omega)] at hoverflow
          cases hoverflow
    | fault hfails hs => exact hfails.elim
  | publication hmove => cases hmove

/-- **The count of retries.**  Let a ledger begin without rows for consuming, and let any crew
deliver, publish and scan on it, where retries are allowed up to limits of 32 bits.  An active row
for consuming has not been retried beyond its limit, and its version is the number of its retries,
and one more when it is finished.  It has failed for used-up retries only when all are used up.  The
next retry can always be counted: no answer of a handler crashes its worker.  A worker that reports
a retry has written it, and from the creation of a row until its key is cleared the retries that
are reported by those who wrote the row are `1`, `2`, `3` and so on, in the order of the writes. -/
theorem retries_counted {s : Store} {errands : List Errand} {log : List Entry} {crew : Crew}
    (hs : ∀ r ∈ s.rows, r.action ≠ .consume) (herrands : ∀ errand ∈ errands, errand.Limited)
    (hbegan : ∀ errand, Entry.began errand ∈ log → errand.Limited)
    (hrun : (waiting s errands).Run log crew) :
    (∀ r ∈ crew.store.rows, r.action = .consume →
      (r.deleteMarker = 0 → r.retryTimes ≤ r.maxRetryTimes ∧
        r.version = r.retryTimes + if r.status = .success ∨ r.status = .failed then 1 else 0) ∧
      (r.status = .failed → ∀ rest, r.message = some ("max retries exceeded: " ++ rest) →
        r.retryTimes = r.maxRetryTimes)) ∧
    (∀ slot event next, .ask (.handle slot event) next ∈ crew.jobs →
      ∀ verdict text, next verdict ≠ .crash text) ∧
    (∀ i n, crew.reported i = some n → ∃ r, (i, r) ∈ writes log ∧ r.retryTimes = n) ∧
    ∀ before e during after r, log = before ++ e :: during ++ after → e.creation? = some r →
      r.action = .consume → r.deleteMarker = 0 → (∀ e' ∈ during, e'.cleared? ≠ some r.key) →
        ∃ n, (writesTo r.key during).filterMap (fun w => crew.reported w.1) = List.range' 1 n ∧
          (after = [] → ∃ row, crew.store.find? r.key = some row ∧ row.retryTimes = n) := by
  obtain ⟨chart, hchart, hcharted⟩ := hrun.charted (charted_waiting s errands)
  have hstart := Chart.counting_start hs herrands
  have hall := hstart.run hchart hbegan
  rw [List.nil_append] at hall
  refine ⟨fun r hr haction => ?_, fun slot event next hmem => hcharted.not_crash hall.posts hmem,
    fun i n hreported => hall.written i n (hcharted.reported i ▸ hreported), ?_⟩
  · have hcounted := hall.rows r (hcharted.store ▸ hr) haction
    exact ⟨fun hmarker => ⟨hcounted.bounded, hcounted.version hmarker⟩, hcounted.exhausted⟩
  · intro before e during after r hlog hcreation haction hmarker hcleared
    subst hlog
    obtain ⟨mid, hfirst, hsecond⟩ := Chart.Run.split hchart
    have hmid := hstart.run hfirst fun errand hmem => hbegan errand (List.mem_append_left _ hmem)
    obtain ⟨row, hrow, hcount⟩ :=
      hmid.numbered before e during r rfl hcreation haction hmarker hcleared
    have hpart : writes during ⊆ writes (before ++ e :: during) :=
      writes_mono fun x hx => List.mem_append_right _ (List.mem_cons_of_mem _ hx)
    have hkept := hmid.reported_run hsecond
      (fun errand hmem => hbegan errand (List.mem_append_right _ hmem))
      (show r.key.action = .consume from haction) hpart
    refine ⟨row.retryTimes, ?_, fun hafter => ?_⟩
    · simp only [hcharted.reported]
      rw [hkept, hcount]
    · subst hafter
      rw [← hcharted.store, hsecond.eq_of_nil]
      exact ⟨row, hrow, rfl⟩

/-- Two failing attempts at one event, the second one by a redelivery. -/
theorem retries_counted_twice :
    ∃ log crew, (waiting .empty [.deliver (clerk 3) parcel, .redeliver (clerk 3) parcel]).Run
        log crew ∧
      [crew.reported 0, crew.reported 1] = [some 1, some 2] ∧
      ∀ r ∈ crew.store.rows, r.action = .consume → r.deleteMarker = 0 →
        r.retryTimes ≤ r.maxRetryTimes ∧
          r.version = r.retryTimes + if r.status = .success ∨ r.status = .failed then 1 else 0 := by
  have hplay : ((waiting .empty [.deliver (clerk 3) parcel, .redeliver (clerk 3) parcel]).play
      (turns 8 0 (.failed "x") ++ turns 6 1 (.failed "x"))).map
        (fun p => [p.2.reported 0, p.2.reported 1]) = some [some 1, some 2] := by decide
  obtain ⟨⟨log, crew⟩, hrun, hreported⟩ := Option.map_eq_some_iff.mp hplay
  have hlimited : ∀ errand ∈ [Errand.deliver (clerk 3) parcel, .redeliver (clerk 3) parcel],
      errand.Limited := by
    intro errand herrand
    rcases List.mem_cons.mp herrand with rfl | herrand
    · exact ⟨fun tried limit => rfl, by decide⟩
    · rw [List.mem_singleton.mp herrand]
      exact ⟨fun tried limit => rfl, by decide⟩
  refine ⟨log, crew, run_of_play hrun, hreported, fun r hr haction => ?_⟩
  exact ((retries_counted (fun r hr => absurd hr List.not_mem_nil) hlimited
    (fun errand hmem => absurd hmem (not_began_of_play hrun errand)) (run_of_play hrun)).1
      r hr haction).1

end Crew

end EventRelay
