import EventRelay.Proofs.Daemon.Wiring
import Mathlib.Data.List.Perm.Subperm

/-!
# Feeding a daemon

While a daemon listens, events are published through the channel, and the daemon takes items from it,
in any order.  `Daemon.Course` is such a course, told by its acts; what else happens, scans and time
that passes among it, must leave the channel alone.  A turn of the daemon is a course of what it
takes, after which as a rule nothing waits any more (`Daemon.Course.turn`).

The events that were delivered to the channel and those that were given to the consumer are read off
the acts.  The daemon is given the delivered events in their order, but not all of them: the ones that
are pushed out of the channel before it gets to them are lost to it, although nothing will publish
them again.  Nothing is lost exactly as long as the daemon is never further behind than the channel
has room for (`Daemon.consumed_iff_keptUp`).
-/

namespace EventRelay.Daemon

variable {σ : Type}

/-! ### Courses -/

inductive Act where
  | published (event : Event) (outcome : Producer.Outcome)
  /-- The daemon has got an item, and handled the event in it. -/
  | took (item : Except Error Event)
  | aside

/-- A daemon that has a place free takes an item.  A delivery that crashes is none of these: it ends
the listening. -/
inductive Takes (env : Surroundings σ) (receiver : Nat) (d : Daemon) (s : σ) :
    Except Error Event → Daemon → σ → Prop
  | lagged {e : Error} {s' : σ} (hplace : d.held < d.places)
      (hget : env.receive receiver s = (some (.error e), s')) :
      Takes env receiver d s (.error e) d s'
  | handled {event : Event} {s₁ s' : σ} {outcome : Except Error Consumer.Outcome}
      (hplace : d.held < d.places) (hget : env.receive receiver s = (some (.ok event), s₁))
      (hrun : (d.consumer.deliver event).run env.reply s₁ = (.done outcome, s')) :
      Takes env receiver d s (.ok event) d s'
  | stalled {event : Event} {s₁ s' : σ} (hplace : d.held < d.places)
      (hget : env.receive receiver s = (some (.ok event), s₁))
      (hrun : (d.consumer.deliver event).run env.reply s₁ = (.stalled, s')) :
      Takes env receiver d s (.ok event) { d with held := d.held + 1 } s'

/-- **A course of publications and of items taken**, in any order. -/
inductive Course (env : Surroundings σ) (shows : σ → Broadcast → Store → Prop) (receiver : Nat)
    (d₀ : Daemon) (s₀ : σ) : List Act → Daemon → σ → Prop
  | start : Course env shows receiver d₀ s₀ [] d₀ s₀
  | published {log : List Act} {d : Daemon} {s s' : σ}
      (prior : Course env shows receiver d₀ s₀ log d s) {p : Producer} {event : Event}
      {outcome : Producer.Outcome}
      (hrun : (p.publish event).run env.reply s = (.done outcome, s')) :
      Course env shows receiver d₀ s₀ (log ++ [.published event outcome]) d s'
  | took {log : List Act} {d d' : Daemon} {s s' : σ}
      (prior : Course env shows receiver d₀ s₀ log d s) {item : Except Error Event}
      (h : Takes env receiver d s item d' s') :
      Course env shows receiver d₀ s₀ (log ++ [.took item]) d' s'
  | aside {log : List Act} {d : Daemon} {s s' : σ}
      (prior : Course env shows receiver d₀ s₀ log d s)
      (h : ∀ b l, shows s b l → ∃ l', shows s' b l' ∧ l.KeepsRows l') :
      Course env shows receiver d₀ s₀ (log ++ [.aside]) d s'

namespace Act

def delivered? : Act → Option Event
  | .published event .delivered => some event
  | _ => none

def given? : Act → Option Event
  | .took (.ok event) => some event
  | _ => none

end Act

def delivered (log : List Act) : List Event :=
  log.filterMap Act.delivered?

def given (log : List Act) : List Event :=
  log.filterMap Act.given?

theorem delivered_concat (log : List Act) (act : Act) :
    delivered (log ++ [act]) = delivered log ++ act.delivered?.toList := by
  cases h : act.delivered? <;> simp [delivered, h]

theorem given_concat (log : List Act) (act : Act) :
    given (log ++ [act]) = given log ++ act.given?.toList := by
  cases h : act.given? <;> simp [given, h]

/-- At no time were more events delivered that the consumer has not been given than the channel has
room for. -/
def KeptUp (capacity : Nat) (log : List Act) : Prop :=
  ∀ before since, log = before ++ since →
    (delivered before).length ≤ (given before).length + capacity

theorem keptUp_nil (capacity : Nat) : KeptUp capacity [] := by
  intro before since h
  obtain ⟨rfl, -⟩ := List.append_eq_nil_iff.mp h.symm
  exact Nat.zero_le _

theorem keptUp_concat {capacity : Nat} {log : List Act} {act : Act} :
    KeptUp capacity (log ++ [act]) ↔ KeptUp capacity log ∧
      (delivered (log ++ [act])).length ≤ (given (log ++ [act])).length + capacity := by
  constructor
  · intro h
    refine ⟨fun before since hlog => h before (since ++ [act]) ?_, h _ [] (List.append_nil _).symm⟩
    rw [hlog, List.append_assoc]
  · rintro ⟨hlog, hlast⟩ before since h
    rcases List.eq_nil_or_concat since with rfl | ⟨since', x, rfl⟩
    · rw [List.append_nil] at h
      rw [← h]
      exact hlast
    · rw [List.concat_eq_append, ← List.append_assoc] at h
      exact hlog before since' (List.append_inj' h rfl).1

/-! ### What the channel and the ledger show -/

/-- **How far a daemon is.**  `earlier` was sent before it began to listen, and it is done with the
first `i` of the events delivered since.  As long as it has kept up it was given all of these;
otherwise some are missing already, or will be when it takes the next item. -/
structure Fed (earlier : List Event) (capacity receiver : Nat) (c : Consumer) (log : List Act)
    (b : Broadcast) (l : Store) (i : Nat) : Prop where
  room : b.capacity = capacity
  holds : b.Holds (earlier ++ delivered log)
  place : b.receivers.lookup receiver = some (earlier.length + i)
  le : i ≤ (delivered log).length
  sublist : (given log).Sublist ((delivered log).take i)
  kept : KeptUp capacity log → given log = (delivered log).take i
  lost : ¬ KeptUp capacity log →
    (given log).length < i ∨ i + capacity < (delivered log).length
  rows : (∀ event ∈ given log, c.Writes event) →
    ∀ event ∈ given log, (l.find? (c.key event.id)).isSome

namespace Fed

variable {earlier : List Event} {capacity receiver : Nat} {c : Consumer} {log : List Act}
  {b : Broadcast} {l l' : Store} {i : Nat}

theorem length_given_le (h : Fed earlier capacity receiver c log b l i) :
    (given log).length ≤ i := by
  have hle := h.sublist.length_le
  rw [List.length_take] at hle
  omega

theorem place_le (h : Fed earlier capacity receiver c log b l i) :
    earlier.length + i ≤ (earlier ++ delivered log).length := by
  rw [List.length_append]
  exact Nat.add_le_add_left h.le _

theorem quiet (h : Fed earlier capacity receiver c log b l i) {act : Act}
    (hdelivered : act.delivered? = none) (hgiven : act.given? = none) (hkeeps : l.KeepsRows l') :
    Fed earlier capacity receiver c (log ++ [act]) b l' i := by
  have hd : delivered (log ++ [act]) = delivered log := by
    rw [delivered_concat, hdelivered, Option.toList_none, List.append_nil]
  have hg : given (log ++ [act]) = given log := by
    rw [given_concat, hgiven, Option.toList_none, List.append_nil]
  have hkept : KeptUp capacity (log ++ [act]) ↔ KeptUp capacity log := by
    rw [keptUp_concat, hd, hg]
    exact ⟨fun hk => hk.1, fun hk => ⟨hk, hk log [] (List.append_nil log).symm⟩⟩
  refine ⟨h.room, hd ▸ h.holds, h.place, hd ▸ h.le, ?_, ?_, ?_, ?_⟩
  · rw [hd, hg]
    exact h.sublist
  · rw [hd, hg, hkept]
    exact h.kept
  · rw [hd, hg, hkept]
    exact h.lost
  · rw [hg]
    exact fun hwrites event hevent => hkeeps _ (h.rows hwrites event hevent)

theorem delivered_step (h : Fed earlier capacity receiver c log b l i) (event : Event)
    (hkeeps : l.KeepsRows l') :
    Fed earlier capacity receiver c (log ++ [.published event .delivered]) (b.send event).2 l' i := by
  have hd : delivered (log ++ [.published event .delivered]) = delivered log ++ [event] := by
    rw [delivered_concat]
    rfl
  have hg : given (log ++ [.published event .delivered]) = given log := by
    rw [given_concat]
    exact List.append_nil _
  have htake : (delivered log ++ [event]).take i = (delivered log).take i :=
    List.take_append_of_le_length h.le
  have hle := h.le
  refine ⟨?_, ?_, ?_, ?_, ?_, ?_, ?_, ?_⟩
  · rw [Broadcast.send_of_receiver h.place]
    exact h.room
  · rw [hd, ← List.append_assoc]
    exact h.holds.send h.place event
  · rw [Broadcast.send_of_receiver h.place]
    exact h.place
  · rw [hd, List.length_append]
    omega
  · rw [hd, hg, htake]
    exact h.sublist
  · rw [hd, hg, htake]
    exact fun hkept => h.kept (keptUp_concat.mp hkept).1
  · intro hkept
    rw [keptUp_concat, hd, hg, List.length_append, List.length_singleton] at hkept
    rw [hd, hg, List.length_append, List.length_singleton]
    by_cases hbefore : KeptUp capacity log
    · have hgiven : (given log).length = i := by
        rw [h.kept hbefore, List.length_take]
        omega
      have hfull : ¬ (delivered log).length + 1 ≤ (given log).length + capacity :=
        fun hroom => hkept ⟨hbefore, hroom⟩
      omega
    · have := h.lost hbefore
      omega
  · rw [hg]
    exact fun hwrites event hevent => hkeeps _ (h.rows hwrites event hevent)

theorem lagged_step (h : Fed earlier capacity receiver c log b l i) {e : Error} {b' : Broadcast}
    (hget : b.receive receiver = (some (.error e), b')) :
    Fed earlier capacity receiver c (log ++ [.took (.error e)]) b' l
      ((delivered log).length - capacity) := by
  have hle := h.le
  have hgiven := h.length_given_le
  rcases h.holds.receive_cases h.place h.place_le with ⟨-, hnone⟩ | ⟨hlag, _, herror⟩ | ⟨-, _, -, hok⟩
  · rw [hnone] at hget
    cases hget
  · rw [herror] at hget
    cases hget
    rw [List.length_append, h.room] at hlag
    have hd : delivered (log ++ [.took (.error e)]) = delivered log := by
      rw [delivered_concat]
      exact List.append_nil _
    have hg : given (log ++ [.took (.error e)]) = given log := by
      rw [given_concat]
      exact List.append_nil _
    have hbehind : ¬ KeptUp capacity log := by
      intro hkept
      have := hkept log [] (List.append_nil log).symm
      omega
    have hbehind' : ¬ KeptUp capacity (log ++ [.took (.error e)]) :=
      fun hkept => hbehind (keptUp_concat.mp hkept).1
    refine ⟨h.room, ?_, ?_, ?_, ?_, fun hkept => absurd hkept hbehind', fun _ => ?_, ?_⟩
    · rw [hd]
      exact h.holds.moveTo _ _
    · rw [Broadcast.lookup_moveTo h.place, List.length_append, h.room]
      congr 1
      omega
    · rw [hd]
      omega
    · rw [hd, hg]
      exact h.sublist.trans ((List.take_prefix_take_left (by omega)).sublist)
    · rw [hg]
      omega
    · rw [hg]
      exact h.rows
  · rw [hok] at hget
    cases hget

theorem given_step (h : Fed earlier capacity receiver c log b l i) {event : Event} {b' : Broadcast}
    (hget : b.receive receiver = (some (.ok event), b')) (hnoted : c.Noted event l l') :
    Fed earlier capacity receiver c (log ++ [.took (.ok event)]) b' l' (i + 1) := by
  have hle := h.le
  have hgiven := h.length_given_le
  rcases h.holds.receive_cases h.place h.place_le with ⟨-, hnone⟩ | ⟨-, _, herror⟩ |
    ⟨hroom, event', hevent, hok⟩
  · rw [hnone] at hget
    cases hget
  · rw [herror] at hget
    cases hget
  · rw [hok] at hget
    cases hget
    rw [List.length_append, h.room] at hroom
    rw [List.getElem?_append_right (Nat.le_add_right _ _), Nat.add_sub_cancel_left] at hevent
    have hlt : i < (delivered log).length := (List.getElem?_eq_some_iff.mp hevent).1
    have htake : (delivered log).take (i + 1) = (delivered log).take i ++ [event] := by
      rw [List.take_add_one, hevent]
      rfl
    have hd : delivered (log ++ [.took (.ok event)]) = delivered log := by
      rw [delivered_concat]
      exact List.append_nil _
    have hg : given (log ++ [.took (.ok event)]) = given log ++ [event] := by
      rw [given_concat]
      rfl
    refine ⟨h.room, hd ▸ h.holds.moveTo _ _, Broadcast.lookup_moveTo h.place _, ?_, ?_, ?_, ?_,
      ?_⟩
    · rw [hd]
      exact hlt
    · rw [hd, hg, htake]
      exact h.sublist.append_right [event]
    · intro hkept
      rw [hd, hg, htake, h.kept (keptUp_concat.mp hkept).1]
    · intro hkept
      rw [keptUp_concat, hd, hg, List.length_append, List.length_singleton] at hkept
      rw [hd, hg, List.length_append, List.length_singleton]
      by_cases hbefore : KeptUp capacity log
      · have := hbefore log [] (List.append_nil log).symm
        exact absurd ⟨hbefore, by omega⟩ hkept
      · have := h.lost hbefore
        omega
    · rw [hg]
      intro hwrites other hother
      obtain ⟨hkeeps, hfound⟩ := hnoted (hwrites event (by simp))
      rcases List.mem_append.mp hother with hother | hother
      · exact hkeeps _ (h.rows (fun e he => hwrites e (List.mem_append_left _ he)) other hother)
      · rw [List.mem_singleton.mp hother]
        exact hfound

end Fed

/-! ### Whole courses -/

section Course

variable {env : Surroundings σ} {shows : σ → Broadcast → Store → Prop} {receiver : Nat}
  {d₀ d : Daemon} {s₀ s : σ} {log : List Act}

theorem Course.consumer_eq (h : Course env shows receiver d₀ s₀ log d s) :
    d.consumer = d₀.consumer := by
  induction h with
  | start => rfl
  | published prior hrun ih => exact ih
  | took prior htakes ih =>
    cases htakes with
    | lagged => exact ih
    | handled => exact ih
    | stalled => exact ih
  | aside prior h ih => exact ih

/-- **Every course keeps the daemon at a place.** -/
theorem Course.fed (hwired : env.Wired shows) {b : Broadcast} {l : Store} {earlier : List Event}
    (hs : shows s₀ b l) (hholds : b.Holds earlier)
    (hplace : b.receivers.lookup receiver = some earlier.length)
    (h : Course env shows receiver d₀ s₀ log d s) :
    ∃ b' l' i, shows s b' l' ∧
      Fed earlier b.capacity receiver d₀.consumer log b' l' i := by
  induction h with
  | start =>
    refine ⟨b, l, 0, hs, rfl, ?_, hplace, Nat.le_refl _, .slnil, fun _ => rfl,
      fun h => absurd (keptUp_nil _) h, fun _ event hevent => by cases hevent⟩
    rw [show delivered [] = [] from rfl, List.append_nil]
    exact hholds
  | @published log d s s' prior p event outcome hrun ih =>
    obtain ⟨b', l', i, hs', hfed⟩ := ih
    rcases hwired.publish_runs hs' hrun with ⟨rfl, l'', hs'', hkeeps⟩ | ⟨hother, l'', hs'', hkeeps⟩
    · exact ⟨_, l'', i, hs'', hfed.delivered_step event hkeeps⟩
    · refine ⟨b', l'', i, hs'', hfed.quiet ?_ rfl hkeeps⟩
      cases outcome with
      | delivered => exact absurd rfl hother
      | deferred reason => rfl
      | duplicate => rfl
      | unrecorded sent => rfl
  | @took log d d' s s' prior item htakes ih =>
    obtain ⟨b', l', i, hs', hfed⟩ := ih
    obtain ⟨s₁, hget, hs₁⟩ := hwired.receive hs' receiver
    have hconsumer := prior.consumer_eq
    cases htakes with
    | @lagged e s' _ hget' =>
      rw [hget] at hget'
      obtain ⟨hitem, rfl⟩ := Prod.mk.inj hget'
      exact ⟨_, l', _, hs₁, hfed.lagged_step (Prod.ext hitem rfl)⟩
    | @handled event s₂ s' outcome _ hget' hrun =>
      rw [hget] at hget'
      obtain ⟨hitem, rfl⟩ := Prod.mk.inj hget'
      obtain ⟨l'', hs'', hend⟩ := hwired.leads_deliver d.consumer hs₁ event
      rw [hrun] at hs'' hend
      have hnoted := hend.resolve_left nofun
      rw [hconsumer] at hnoted
      exact ⟨_, l'', _, hs'', hfed.given_step (Prod.ext hitem rfl) hnoted⟩
    | @stalled event s₂ s' _ hget' hrun =>
      rw [hget] at hget'
      obtain ⟨hitem, rfl⟩ := Prod.mk.inj hget'
      obtain ⟨l'', hs'', hend⟩ := hwired.leads_deliver d.consumer hs₁ event
      rw [hrun] at hs'' hend
      have hnoted := hend.resolve_left nofun
      rw [hconsumer] at hnoted
      exact ⟨_, l'', _, hs'', hfed.given_step (Prod.ext hitem rfl) hnoted⟩
  | aside prior h ih =>
    obtain ⟨b', l', i, hs', hfed⟩ := ih
    obtain ⟨l'', hs'', hkeeps⟩ := h b' l' hs'
    exact ⟨b', l'', i, hs'', hfed.quiet rfl rfl hkeeps⟩

/-- **A turn of the daemon is a course**, on which nothing is published, as long as no delivery
crashes. -/
theorem Course.drain (hwired : env.Wired shows) {count : Nat} {d' : Daemon} {s' : σ}
    (h : Course env shows receiver d₀ s₀ log d s)
    (hdrain : Daemon.drain env receiver count d s = (d', s'))
    (hlistening : d'.receiver? ≠ none) :
    ∃ acts : List Act, delivered acts = [] ∧
      Course env shows receiver d₀ s₀ (log ++ acts) d' s' := by
  have hstop : ∀ {d : Daemon} {s : σ} {log : List Act},
      Course env shows receiver d₀ s₀ log d s → (d, s) = (d', s') →
      ∃ acts : List Act, delivered acts = [] ∧
        Course env shows receiver d₀ s₀ (log ++ acts) d' s' := by
    intro d s log h heq
    cases heq
    exact ⟨[], rfl, by rwa [List.append_nil]⟩
  induction count generalizing d s log with
  | zero => exact hstop h hdrain
  | succ count ih =>
    have hgo : ∀ {item : Except Error Event} {d₁ : Daemon} {s₁ : σ},
        Takes env receiver d s item d₁ s₁ →
        Daemon.drain env receiver count d₁ s₁ = (d', s') →
        ∃ acts : List Act, delivered acts = [] ∧
          Course env shows receiver d₀ s₀ (log ++ acts) d' s' := by
      intro item d₁ s₁ htakes hrest
      obtain ⟨acts, hnothing, hcourse⟩ := ih (h.took htakes) hrest
      rw [List.append_assoc] at hcourse
      exact ⟨[.took item] ++ acts, hnothing, hcourse⟩
    rw [Daemon.drain] at hdrain
    split at hdrain
    · exact hstop h hdrain
    next hplaces =>
      have hplace : d.held < d.places := Nat.lt_of_not_le hplaces
      split at hdrain
      next s₁ hget =>
        cases hdrain
        refine ⟨[.aside], rfl, h.aside fun b l hs => ⟨l, ?_, .refl l⟩⟩
        obtain ⟨s₂, hget', hs₂⟩ := hwired.receive hs receiver
        rw [hget] at hget'
        obtain ⟨hnone, rfl⟩ := Prod.mk.inj hget'
        rwa [Broadcast.receive_none hnone.symm] at hs₂
      next e s₁ hget => exact hgo (.lagged hplace hget) hdrain
      next event s₁ hget =>
        split at hdrain
        next outcome s₂ hrun => exact hgo (.handled hplace hget hrun) hdrain
        next s₂ hrun => exact hgo (.stalled hplace hget hrun) hdrain
        next text s₂ hrun =>
          cases hdrain
          exact absurd rfl hlistening

/-- **A turn empties the channel**, unless all places are taken then or a delivery crashes: it tries as
many items as can wait at most, and whatever the daemon gets brings it nearer to the end. -/
theorem waiting_drain (hwired : env.Wired shows) {count : Nat} {d' : Daemon} {s' : σ}
    {b : Broadcast} {l : Store} {all : List Event} {place : Nat} (hs : shows s b l)
    (hholds : b.Holds all) (hplace : b.receivers.lookup receiver = some place)
    (hle : place ≤ all.length) (hcount : all.length - place ≤ count)
    (hdrain : Daemon.drain env receiver count d s = (d', s')) (hlistening : d'.receiver? ≠ none)
    (hfree : d'.held < d'.places) : env.waiting receiver s' = 0 := by
  have hstop : ∀ {s : σ} {b : Broadcast} {l : Store} {place : Nat}, shows s b l → b.Holds all →
      b.receivers.lookup receiver = some place → all.length ≤ place →
      env.waiting receiver s = 0 := by
    intro s b l place hs hholds hplace hend
    rw [hwired.waiting hs, Broadcast.waiting_eq hplace, hholds.sent]
    omega
  induction count generalizing d s b l place with
  | zero =>
    cases hdrain
    exact hstop hs hholds hplace (by omega)
  | succ count ih =>
    have hdeliver : ∀ {event : Event} {s₁ s₂ : σ} {progress : Work.Progress _} {d₁ : Daemon},
        shows s₁ (b.moveTo receiver (place + 1)) l → place < all.length →
        (d.consumer.deliver event).run env.reply s₁ = (progress, s₂) →
        Daemon.drain env receiver count d₁ s₂ = (d', s') → env.waiting receiver s' = 0 := by
      intro event s₁ s₂ progress d₁ hs₁ hlt hrun hrest
      obtain ⟨l', hs₂, -⟩ := hwired.leads_deliver d.consumer hs₁ event
      rw [hrun] at hs₂
      exact ih hs₂ (hholds.moveTo _ _) (Broadcast.lookup_moveTo hplace _) hlt (by omega) hrest
    obtain ⟨s₁, hget, hs₁⟩ := hwired.receive hs receiver
    rw [Daemon.drain] at hdrain
    split at hdrain
    next hfull =>
      cases hdrain
      exact absurd hfree (Nat.not_lt.mpr hfull)
    rw [hget] at hdrain
    rcases hholds.receive_cases hplace hle with ⟨hend, hnone⟩ | ⟨hlag, e, herror⟩ |
      ⟨-, event, hevent, hok⟩
    · rw [hnone] at hdrain hs₁
      cases hdrain
      exact hstop hs₁ hholds hplace (by omega)
    · rw [herror] at hdrain hs₁
      exact ih hs₁ (hholds.moveTo _ _) (Broadcast.lookup_moveTo hplace _) (Nat.sub_le ..)
        (by omega) hdrain
    · have hlt : place < all.length := (List.getElem?_eq_some_iff.mp hevent).1
      rw [hok] at hdrain hs₁
      dsimp only at hdrain
      split at hdrain
      next outcome s₂ hrun => exact hdeliver hs₁ hlt hrun hdrain
      next s₂ hrun => exact hdeliver hs₁ hlt hrun hdrain
      next text s₂ hrun =>
        cases hdrain
        exact absurd rfl hlistening

/-- **After a turn nothing waits**, unless all places are taken then or a delivery crashes.  What the
daemon did in its turn goes on from the course before, and nothing is published in it. -/
theorem Course.turn (hwired : env.Wired shows) {b : Broadcast} {l : Store} {earlier : List Event}
    (hs : shows s₀ b l) (hholds : b.Holds earlier)
    (hplace : b.receivers.lookup receiver = some earlier.length)
    (h : Course env shows receiver d₀ s₀ log d s) (hgoing : d.stopping = false)
    (hbegun : d.begun = true) (hreceiver : d.receiver? = some receiver) {d' : Daemon} {s' : σ}
    (hturn : d.turn env s = (d', s')) (hlistening : d'.receiver? ≠ none)
    (hfree : d'.held < d'.places) :
    ∃ acts : List Act, delivered acts = [] ∧
      Course env shows receiver d₀ s₀ (log ++ acts) d' s' ∧ env.waiting receiver s' = 0 := by
  have hdrain : Daemon.drain env receiver (env.waiting receiver s + 1) d s = (d', s') := by
    rw [← hturn, Daemon.turn]
    simp only [hgoing, hbegun, hreceiver, Bool.false_eq_true, if_false, Bool.not_true]
  obtain ⟨acts, hnothing, hcourse⟩ := h.drain hwired hdrain hlistening
  obtain ⟨b', l', i, hs', hfed⟩ := h.fed hwired hs hholds hplace
  refine ⟨acts, hnothing, hcourse,
    waiting_drain hwired hs' hfed.holds hfed.place hfed.place_le ?_ hdrain hlistening hfree⟩
  rw [hwired.waiting hs', Broadcast.waiting_eq hfed.place, hfed.holds.sent]
  exact Nat.le_succ _

/-- **What is delivered is consumed exactly if the daemon keeps up.**  Let a daemon listen to a
channel from which it has everything there is.  Let any events be published through the channel while
the daemon takes items from it, in any order, and let it have come to the end.  It was given events
that were delivered, in their order, each at most once.  It was given all of them exactly if there
were never more delivered and not yet given than the channel has room for.  So where no event was
delivered twice, and payloads can be written, to have kept up is the same as to have consumed
everything: each delivered event was given to the consumer and has its row. -/
theorem consumed_iff_keptUp (hwired : env.Wired shows) {b : Broadcast} {l : Store}
    {earlier : List Event} (hs : shows s₀ b l) (hholds : b.Holds earlier)
    (hplace : b.receivers.lookup receiver = some earlier.length)
    (h : Course env shows receiver d₀ s₀ log d s) (hend : env.waiting receiver s = 0) :
    (given log).Sublist (delivered log) ∧
      (given log = delivered log ↔ KeptUp b.capacity log) ∧
      ∃ b' l', shows s b' l' ∧
        ((delivered log).Nodup → (∀ event ∈ delivered log, d₀.consumer.Writes event) →
          ((∀ event ∈ delivered log, event ∈ given log ∧
              (l'.find? (d₀.consumer.key event.id)).isSome) ↔
            KeptUp b.capacity log)) := by
  obtain ⟨b', l', i, hs', hfed⟩ := h.fed hwired hs hholds hplace
  -- at the end the daemon is done with all that was delivered
  have hi : i = (delivered log).length := by
    have hle := hfed.le
    have hnone := (hwired.waiting hs' receiver).symm.trans hend
    rw [Broadcast.waiting_eq hfed.place, hfed.holds.sent, List.length_append] at hnone
    omega
  have hsublist := hfed.sublist
  have hkept := hfed.kept
  rw [hi, List.take_length] at hsublist hkept
  have hiff : given log = delivered log ↔ KeptUp b.capacity log := by
    refine ⟨fun hall => ?_, hkept⟩
    by_contra hbehind
    have hlost := hfed.lost hbehind
    rw [hall, hi] at hlost
    omega
  refine ⟨hsublist, hiff, b', l', hs', fun hnodup hwrites => ⟨fun hall => hiff.mp ?_,
    fun hkept event hevent => ?_⟩⟩
  · refine hsublist.eq_of_length_le (List.Subperm.length_le ?_)
    exact List.subperm_of_subset hnodup fun event hevent => (hall event hevent).1
  · have hsame := hiff.mpr hkept
    have hgiven : event ∈ given log := hsame ▸ hevent
    exact ⟨hgiven, hfed.rows (fun e he => hwrites e (hsame ▸ he)) event hgiven⟩

end Course

end EventRelay.Daemon
