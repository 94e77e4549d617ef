import EventRelay.Daemon
import EventRelay.Proofs.Alone.Basic
import EventRelay.Proofs.Daemon.Places

/-!
# Surroundings with a channel and a ledger

What a daemon, its consumer and the producers work in is known by two things, the channel that events
are sent through and the ledger.  `Surroundings.Wired` says how they show: the channel is what is sent
to and received from, the ledger answers its calls without fault, and user code may do what it likes,
but has no hand in the channel and lets no row vanish.

In such surroundings a publication hands its event to the channel exactly if it ends as delivered
(`Wired.publish_runs`), and a delivery leaves a row for its event (`Wired.leads_deliver`).
-/

namespace EventRelay

/-- Every row that could be found can be found still, though it may have changed. -/
def Store.KeepsRows (s s' : Store) : Prop :=
  ∀ key, (s.find? key).isSome → (s'.find? key).isSome

namespace Store

variable {s s' s'' : Store}

theorem KeepsRows.refl (s : Store) : s.KeepsRows s := fun _ h => h

theorem KeepsRows.trans (h : s.KeepsRows s') (h' : s'.KeepsRows s'') : s.KeepsRows s'' :=
  fun key hkey => h' key (h key hkey)

theorem keepsRows_create (s : Store) (r : Record) : s.KeepsRows (s.create r).2 := by
  intro key hkey
  rcases s.create_cases r with ⟨winner, -, hcreate⟩ | ⟨hnone, hcreate⟩
  · rw [hcreate]
    exact hkey
  · rw [hcreate, find?_append]
    simp [hkey]

theorem find?_create_isSome (s : Store) (r : Record) : ((s.create r).2.find? r.key).isSome := by
  rcases s.create_cases r with ⟨winner, hwinner, hcreate⟩ | ⟨hnone, hcreate⟩
  · rw [hcreate, hwinner]
    rfl
  · rw [hcreate, find?_append]
    simp [Record.key]

theorem keepsRows_update (s : Store) (r : Record) : s.KeepsRows (s.update r).2 := by
  intro key hkey
  have hupdate : s.update r = ((s.update r).1, (s.update r).2) := rfl
  rcases update_cases hupdate with ⟨_, -, -, -, -, hs⟩ | ⟨-, hs⟩
  · rw [hs, find?_replace, Option.isSome_map]
    exact hkey
  · rw [hs]
    exact hkey

end Store

def Request.isCue : Request → Bool
  | .accepts _ _ | .handle _ _ | .supports _ _ | .escalate _ _ _ _ => true
  | .find _ | .create _ | .update _ | .tombstone _ _ | .due _ _ | .now | .send _ => false

variable {σ α β ε : Type}

/-- **Surroundings that a channel and a ledger show in.**  The ledger has no faults, and user code
keeps its hands off the channel and lets no row vanish. -/
structure Surroundings.Wired (env : Surroundings σ) (shows : σ → Broadcast → Store → Prop) :
    Prop where
  receive : ∀ {s b l}, shows s b l → ∀ receiver, ∃ s',
    env.receive receiver s = ((b.receive receiver).1, s') ∧ shows s' (b.receive receiver).2 l
  waiting : ∀ {s b l}, shows s b l → ∀ receiver, env.waiting receiver s = b.waiting receiver
  now : ∀ {s b l}, shows s b l → ∃ (now : Instant) (s' : σ),
    env.reply .now s = (.done now, s') ∧ shows s' b l
  send : ∀ {s b l}, shows s b l → ∀ event, ∃ s',
    env.reply (.send event) s = (.done (b.send event).1, s') ∧ shows s' (b.send event).2 l
  call : ∀ {s b l l'} {request : Request} {reply : request.Reply}, shows s b l →
    l.serve request = some (.ok reply, l') →
    ∃ s', env.reply request s = (.done reply, s') ∧ shows s' b l'
  overflow : ∀ {s b l l'} {request : Request} {o : Overflow}, shows s b l →
    l.serve request = some (.error o, l') →
    ∃ s', env.reply request s = (.crashed o.message, s') ∧ shows s' b l'
  cue : ∀ {s b l} {request : Request}, shows s b l → request.isCue = true →
    ∃ l', shows (env.reply request s).2 b l' ∧ l.KeepsRows l'

/-! ### Work that leaves the channel alone -/

/-- Work that is carried out leaves the channel as it is and the ledger as described, unless it
crashes. -/
def Work.Leads (env : Surroundings σ) (shows : σ → Broadcast → Store → Prop) (b : Broadcast)
    (P : Store → Prop) (w : Work α) (s : σ) : Prop :=
  ∃ l', shows (w.run env.reply s).2 b l' ∧ ((∃ text, (w.run env.reply s).1 = .crashed text) ∨ P l')

namespace Work.Leads

variable {env : Surroundings σ} {shows : σ → Broadcast → Store → Prop} {b : Broadcast}
  {l l' : Store} {s : σ} {P Q : Store → Prop}

theorem done {a : α} (hs : shows s b l) (h : P l) : (Work.done a).Leads env shows b P s :=
  ⟨l, hs, .inr h⟩

theorem crash {text : String} (hs : shows s b l) :
    (Work.crash text : Work α).Leads env shows b P s :=
  ⟨l, hs, .inl ⟨text, rfl⟩⟩

theorem now (hwired : env.Wired shows) (hs : shows s b l) {next : Request.now.Reply → Work α}
    (hnext : ∀ now s', shows s' b l → (next now).Leads env shows b P s') :
    (Work.ask .now next).Leads env shows b P s := by
  obtain ⟨now, s', hreply, hs'⟩ := hwired.now hs
  unfold Leads
  simp only [Work.run, hreply]
  exact hnext now s' hs'

theorem call (hwired : env.Wired shows) (hs : shows s b l) {request : Request}
    {reply : request.Reply} {next : request.Reply → Work α}
    (hserve : l.serve request = some (.ok reply, l'))
    (hnext : ∀ s', shows s' b l' → (next reply).Leads env shows b P s') :
    (Work.ask request next).Leads env shows b P s := by
  obtain ⟨s', hreply, hs'⟩ := hwired.call hs hserve
  unfold Leads
  simp only [Work.run, hreply]
  exact hnext s' hs'

theorem overflow (hwired : env.Wired shows) (hs : shows s b l) {request : Request} {o : Overflow}
    {next : request.Reply → Work α} (hserve : l.serve request = some (.error o, l')) :
    (Work.ask request next).Leads env shows b P s := by
  obtain ⟨s', hreply, hs'⟩ := hwired.overflow hs hserve
  unfold Leads
  simp only [Work.run, hreply]
  exact ⟨l', hs', .inl ⟨o.message, rfl⟩⟩

theorem cue (hwired : env.Wired shows) (hs : shows s b l) {request : Request}
    {next : request.Reply → Work α} (hcue : request.isCue = true)
    (hkept : ∀ l', l.KeepsRows l' → P l')
    (hnext : ∀ reply s' l', shows s' b l' → l.KeepsRows l' →
      (next reply).Leads env shows b P s') :
    (Work.ask request next).Leads env shows b P s := by
  obtain ⟨l', hs', hkeeps⟩ := hwired.cue hs hcue
  unfold Leads
  simp only [Work.run]
  rcases hreply : env.reply request s with ⟨progress, s₁⟩
  rw [hreply] at hs'
  cases progress with
  | done reply => exact hnext reply s₁ l' hs' hkeeps
  | crashed text => exact ⟨l', hs', .inl ⟨text, rfl⟩⟩
  | stalled => exact ⟨l', hs', .inr (hkept l' hkeeps)⟩

theorem bind {w : Work β} {f : β → Work α} (hw : w.Leads env shows b P s)
    (hstall : ∀ l', P l' → Q l')
    (hf : ∀ a s' l', shows s' b l' → P l' → (f a).Leads env shows b Q s') :
    (w.bind f).Leads env shows b Q s := by
  obtain ⟨l', hs', hP⟩ := hw
  unfold Leads
  rw [Work.run_bind]
  rcases hrun : w.run env.reply s with ⟨progress, s₁⟩
  rw [hrun] at hs' hP
  cases progress with
  | done a =>
    rcases hP with ⟨text, htext⟩ | hP
    · cases htext
    · exact hf a s₁ l' hs' hP
  | crashed text => exact ⟨l', hs', .inl ⟨text, rfl⟩⟩
  | stalled =>
    rcases hP with ⟨text, htext⟩ | hP
    · cases htext
    · exact ⟨l', hs', .inr (hstall l' hP)⟩

theorem onOk {w : Work (Except ε β)} {f : β → Work (Except ε α)} (hw : w.Leads env shows b P s)
    (hkept : ∀ l', P l' → Q l')
    (hf : ∀ a s' l', shows s' b l' → P l' → (f a).Leads env shows b Q s') :
    (w.onOk f).Leads env shows b Q s := by
  refine hw.bind hkept fun result s' l' hs' hP => ?_
  cases result with
  | ok a => exact hf a s' l' hs' hP
  | error e => exact done hs' (hkept l' hP)

end Work.Leads

/-! ### Work that lets no row vanish -/

/-- Work that leaves the channel alone and lets no row vanish, wherever it begins. -/
def Work.Careful (env : Surroundings σ) (shows : σ → Broadcast → Store → Prop) (w : Work α) :
    Prop :=
  ∀ s b l, shows s b l → w.Leads env shows b l.KeepsRows s

namespace Work.Careful

variable {env : Surroundings σ} {shows : σ → Broadcast → Store → Prop}

theorem done (a : α) : (Work.done a).Careful env shows :=
  fun _ _ _ hs => .done hs (.refl _)

theorem crash (text : String) : (Work.crash text : Work α).Careful env shows :=
  fun _ _ _ hs => .crash hs

theorem now (hwired : env.Wired shows) {next : Instant → Work α}
    (hnext : ∀ now, (next now).Careful env shows) : (Work.ask .now next).Careful env shows :=
  fun _ _ _ hs => .now hwired hs fun now _ hs' => hnext now _ _ _ hs'

theorem after {w : Work α} (hw : w.Careful env shows) {s : σ} {b : Broadcast} {l l' : Store}
    (hs : shows s b l') (hkeeps : l.KeepsRows l') : w.Leads env shows b l.KeepsRows s := by
  obtain ⟨l'', hs', hend⟩ := hw _ _ _ hs
  exact ⟨l'', hs', hend.imp id hkeeps.trans⟩

theorem cue (hwired : env.Wired shows) {request : Request} {next : request.Reply → Work α}
    (hcue : request.isCue = true) (hnext : ∀ reply, (next reply).Careful env shows) :
    (Work.ask request next).Careful env shows :=
  fun _ _ _ hs => .cue hwired hs hcue (fun _ h => h) fun reply _ _ hs' hkeeps =>
    (hnext reply).after hs' hkeeps

theorem update (hwired : env.Wired shows) {r : Record} {next : Except Error Bool → Work α}
    (hnext : ∀ reply, (next reply).Careful env shows) :
    (Work.ask (.update r) next).Careful env shows := by
  intro s b l hs
  have hkeeps := l.keepsRows_update r
  match hupdate : l.update r with
  | (.ok done, l') =>
    rw [hupdate] at hkeeps
    have hserve : l.serve (.update r) = some (.ok (.ok done), l') := by
      rw [Store.serve, hupdate]
      rfl
    exact .call hwired hs hserve fun _ hs' => (hnext _).after hs' hkeeps
  | (.error o, l') =>
    have hserve : l.serve (.update r) = some (.error o, l') := by
      rw [Store.serve, hupdate]
      rfl
    exact .overflow hwired hs hserve

theorem bind {w : Work β} {f : β → Work α} (hw : w.Careful env shows)
    (hf : ∀ a, (f a).Careful env shows) : (w.bind f).Careful env shows :=
  fun _ _ _ hs => (hw _ _ _ hs).bind (fun _ h => h) fun a _ _ hs' hkeeps =>
    (hf a).after hs' hkeeps

theorem onOk {w : Work (Except ε β)} {f : β → Work (Except ε α)} (hw : w.Careful env shows)
    (hf : ∀ a, (f a).Careful env shows) : (w.onOk f).Careful env shows := by
  refine hw.bind fun result => ?_
  cases result with
  | ok a => exact hf a
  | error e => exact done _

theorem write (hwired : env.Wired shows) (r : Record) (t : Transition) :
    (r.write t).Careful env shows := by
  refine now hwired fun now => ?_
  cases r.transition t now with
  | error e => exact done _
  | ok next =>
    refine update hwired fun reply => ?_
    match reply with
    | .ok true => exact done _
    | .ok false => exact done _
    | .error e => exact done _

theorem firstThat {question : Nat → Work (Except String Bool)}
    (hquestion : ∀ slot, (question slot).Careful env shows) (slots : List Nat) :
    (Work.firstThat question slots).Careful env shows := by
  induction slots with
  | nil => exact done _
  | cons slot rest ih =>
    refine (hquestion slot).bind fun answer => ?_
    match answer with
    | .ok true => exact done _
    | .ok false => exact ih
    | .error text => exact crash text

theorem run_then {w : Work β} (hw : w.Careful env shows) {a a' : α} {s s' : σ} {b : Broadcast}
    {l : Store} (hs : shows s b l)
    (hrun : (w.bind fun _ => .done a).run env.reply s = (.done a', s')) :
    a' = a ∧ ∃ l', shows s' b l' ∧ l.KeepsRows l' := by
  obtain ⟨l', hs', hend⟩ := (hw.bind fun _ => done a) s b l hs
  rw [hrun] at hs' hend
  have hkeeps : l.KeepsRows l' := hend.resolve_left nofun
  refine ⟨?_, l', hs', hkeeps⟩
  rw [Work.run_bind] at hrun
  split at hrun <;> cases hrun
  rfl

end Work.Careful

/-! ### Deliveries and publications -/

/-- Whether the payload of an event can be written down for a later delivery. -/
def Consumer.Writes (c : Consumer) (event : Event) : Prop :=
  ∃ payload, c.codec.encode event.payload = .ok payload

/-- What a first delivery makes of a ledger: there is a row for its event, and no row has vanished, if
the payload can be written. -/
def Consumer.Noted (c : Consumer) (event : Event) (l l' : Store) : Prop :=
  c.Writes event → l.KeepsRows l' ∧ (l'.find? (c.key event.id)).isSome

namespace Surroundings.Wired

variable {env : Surroundings σ} {shows : σ → Broadcast → Store → Prop}

theorem careful_conclude (hwired : env.Wired shows) (r : Record) (t : Transition)
    (outcome : Consumer.Outcome) : (Consumer.conclude r t outcome).Careful env shows := by
  refine (Work.Careful.write hwired r t).onOk fun stored => ?_
  cases stored with
  | some _ => exact .done _
  | none => exact .done _

theorem careful_escalate (hwired : env.Wired shows) (chain : List Nat) (event : Event) (r : Record)
    (reason : String) : (Escalation.escalate chain event r reason).Careful env shows := by
  refine (Work.Careful.firstThat (fun slot => .cue hwired rfl fun _ => .done _) chain).bind
    fun found => ?_
  cases found with
  | none => exact .done _
  | some slot => exact .cue hwired rfl fun _ => .done _

variable (c : Consumer)

theorem careful_giveUp (hwired : env.Wired shows) (event : Event) (r : Record)
    (message reason : String) : (c.giveUp event r message reason).Careful env shows := by
  refine (Work.Careful.write hwired r _).onOk fun stored => ?_
  cases stored with
  | none => exact .done _
  | some stored => exact (hwired.careful_escalate c.chain event stored reason).bind fun _ => .done _

theorem careful_onFailure (hwired : env.Wired shows) (event : Event) (r : Record)
    (reason : String) : (c.onFailure event r reason).Careful env shows := by
  unfold Consumer.onFailure
  split
  · split
    · exact .crash _
    · refine .now hwired fun now => ?_
      split
      · exact .crash _
      · exact hwired.careful_conclude _ _ _
  · exact hwired.careful_giveUp c event r _ _

theorem careful_attempt (hwired : env.Wired shows) (event : Event) (r : Record) :
    (c.attempt event r).Careful env shows := by
  refine (Work.Careful.firstThat (fun slot => .cue hwired rfl fun _ => .done _) _).bind
    fun found => ?_
  cases found with
  | none => exact hwired.careful_conclude _ _ _
  | some slot =>
    refine .cue hwired rfl fun verdict => ?_
    cases verdict with
    | ok => exact hwired.careful_conclude _ _ _
    | failed reason => exact hwired.careful_onFailure c event r reason
    | panicked text => exact hwired.careful_onFailure c event r _

theorem careful_join (hwired : env.Wired shows) (r : Record) : (c.join r).Careful env shows := by
  unfold Consumer.join
  split
  · refine Work.Careful.onOk (.now hwired fun now => .write hwired r _) fun claimed => ?_
    cases claimed with
    | some claimed => exact .done _
    | none => exact .done _
  · exact .done _

theorem leads_found (hwired : env.Wired shows) {s : σ} {b : Broadcast} {l : Store}
    (hs : shows s b l) (event : Event) :
    (c.found event).Leads env shows b
      (fun l' => l.KeepsRows l' ∧ (c.Writes event → (l'.find? (c.key event.id)).isSome)) s := by
  refine .now hwired hs fun now s' hs' => ?_
  cases hencode : c.codec.encode event.payload with
  | error e =>
    refine .done hs' ⟨.refl l, ?_⟩
    rintro ⟨payload, hpayload⟩
    rw [hencode] at hpayload
    cases hpayload
  | ok payload =>
    have hkeeps := l.keepsRows_create (c.freshRecord event payload now)
    have hfound := l.find?_create_isSome (c.freshRecord event payload now)
    refine .call hwired hs' rfl fun s'' hs'' => ?_
    cases (l.create (c.freshRecord event payload now)).1 with
    | created r => exact .done hs'' ⟨hkeeps, fun _ => hfound⟩
    | existing winner =>
      obtain ⟨l', hl', hend⟩ := hwired.careful_join c winner _ _ _ hs''
      refine ⟨l', hl', hend.imp id fun hjoin => ⟨hkeeps.trans hjoin, fun _ => hjoin _ hfound⟩⟩

theorem leads_reopen (hwired : env.Wired shows) {s : σ} {b : Broadcast} {l : Store}
    (hs : shows s b l) {event : Event} {r : Record} (hrow : l.find? (c.key event.id) = some r) :
    (c.reopen event r).Leads env shows b (c.Noted event l) s := by
  have hkey := Store.key_of_find? hrow
  have hhere : (l.find? (c.key event.id)).isSome := by rw [hrow]; rfl
  refine .now hwired hs fun (now : Instant) s' hs' => ?_
  match htombstone : l.tombstone r now with
  | (.error o, l₁) =>
    have hserve : l.serve (.tombstone r now) = some (.error o, l₁) := by
      rw [Store.serve, htombstone]
      rfl
    exact .overflow hwired hs' hserve
  | (.ok accepted, l₁) =>
    have hserve : l.serve (.tombstone r now) = some (.ok (.ok accepted), l₁) := by
      rw [Store.serve, htombstone]
      rfl
    refine .call hwired hs' hserve fun s'' hs'' => ?_
    rcases Store.tombstone_cases htombstone with ⟨stored, hstored, -, hdone, rfl⟩ |
      ⟨hdone, rfl, -⟩ | ⟨_, _, -, -, herror, -⟩
    · cases hdone
      obtain ⟨l', hl', hend⟩ := hwired.leads_found c hs'' event
      refine ⟨l', hl', hend.imp id ?_⟩
      rintro ⟨hkeeps, hfound⟩ hwrites
      refine ⟨fun key hrowed => ?_, hfound hwrites⟩
      by_cases hsame : key = c.key event.id
      · rw [hsame]
        exact hfound hwrites
      · refine hkeeps key ?_
        have hother : stored.key ≠ key := by
          rw [Store.key_of_find? hstored, hkey]
          exact Ne.symm hsame
        rw [Store.find?_refile, if_neg hother]
        split
        · rfl
        · exact hrowed
    · cases hdone
      exact .done hs'' fun _ => ⟨.refl l₁, hhere⟩
    · cases herror

theorem leads_acquire (hwired : env.Wired shows) {s : σ} {b : Broadcast} {l : Store}
    (hs : shows s b l) (event : Event) :
    (c.acquire event).Leads env shows b (c.Noted event l) s := by
  refine .call hwired hs rfl fun s' hs' => ?_
  cases hrow : l.find? (c.key event.id) with
  | none =>
    obtain ⟨l', hl', hend⟩ := hwired.leads_found c hs' event
    refine ⟨l', hl', hend.imp id ?_⟩
    rintro ⟨hkeeps, hfound⟩ hwrites
    exact ⟨hkeeps, hfound hwrites⟩
  | some r =>
    by_cases hfailed : r.status = .failed
    · simp only [if_pos hfailed]
      exact hwired.leads_reopen c hs' hrow
    · simp only [if_neg hfailed]
      obtain ⟨l', hl', hend⟩ := hwired.careful_join c r _ _ _ hs'
      refine ⟨l', hl', hend.imp id fun hkeeps _ => ⟨hkeeps, hkeeps _ ?_⟩⟩
      rw [hrow]
      rfl

/-- **A delivery leaves a row for its event**, if the payload can be written, and lets no row
vanish. -/
theorem leads_deliver (hwired : env.Wired shows) {s : σ} {b : Broadcast} {l : Store}
    (hs : shows s b l) (event : Event) :
    (c.deliver event).Leads env shows b (c.Noted event l) s := by
  refine (hwired.leads_acquire c hs event).onOk (fun _ h => h) fun hold s' l' hs' hnoted => ?_
  cases hold with
  | owned r =>
    obtain ⟨l'', hl'', hend⟩ := hwired.careful_attempt c event r _ _ _ hs'
    refine ⟨l'', hl'', hend.imp id fun hkeeps hwrites => ?_⟩
    obtain ⟨hold, hfound⟩ := hnoted hwrites
    exact ⟨hold.trans hkeeps, hkeeps _ hfound⟩
  | busy status => exact .done hs' hnoted

/-! #### Publications -/

/-- An event that is sent goes through the channel, and what is noted then makes no difference. -/
theorem send_runs (hwired : env.Wired shows) {s s' : σ} {b : Broadcast} {l : Store}
    (hs : shows s b l) {event : Event} {r : Record} {outcome : Producer.Outcome}
    (hrun : (Producer.send event r).run env.reply s = (.done outcome, s')) :
    (outcome = .delivered ∧ ∃ l', shows s' (b.send event).2 l' ∧ l.KeepsRows l') ∨
      (outcome ≠ .delivered ∧ ∃ l', shows s' b l' ∧ l.KeepsRows l') := by
  obtain ⟨s₁, hreply, hs₁⟩ := hwired.send hs event
  simp only [Producer.send, Work.run, hreply] at hrun
  cases hsent : (b.send event).1 with
  | ok _ =>
    rw [hsent] at hrun
    obtain ⟨rfl, hend⟩ := (Work.Careful.write hwired r _).run_then hs₁ hrun
    exact .inl ⟨rfl, hend⟩
  | error e =>
    rw [hsent] at hrun
    rw [Broadcast.send_error hsent] at hs₁
    obtain ⟨rfl, hend⟩ := (Work.Careful.write hwired r _).run_then hs₁ hrun
    refine .inr ⟨?_, hend⟩
    rintro ⟨⟩

/-- **A publication hands its event to the channel exactly if it ends as delivered.** -/
theorem publish_runs (hwired : env.Wired shows) {s s' : σ} {b : Broadcast} {l : Store}
    (hs : shows s b l) {p : Producer} {event : Event} {outcome : Producer.Outcome}
    (hrun : (p.publish event).run env.reply s = (.done outcome, s')) :
    (outcome = .delivered ∧ ∃ l', shows s' (b.send event).2 l' ∧ l.KeepsRows l') ∨
      (outcome ≠ .delivered ∧ ∃ l', shows s' b l' ∧ l.KeepsRows l') := by
  obtain ⟨now, s₁, hnow, hs₁⟩ := hwired.now hs
  have hserve : l.serve (.create (p.freshRecord event now)) =
      some (.ok (.ok (l.create (p.freshRecord event now)).1),
        (l.create (p.freshRecord event now)).2) := rfl
  obtain ⟨s₂, hcreate, hs₂⟩ := hwired.call hs₁ hserve
  have hkeeps := l.keepsRows_create (p.freshRecord event now)
  simp only [Producer.publish, Work.run, hnow, hcreate] at hrun
  have hsend : ∀ {r : Record}, (Producer.send event r).run env.reply s₂ = (.done outcome, s') →
      (outcome = .delivered ∧ ∃ l', shows s' (b.send event).2 l' ∧ l.KeepsRows l') ∨
        (outcome ≠ .delivered ∧ ∃ l', shows s' b l' ∧ l.KeepsRows l') := by
    intro r hrun
    rcases hwired.send_runs hs₂ hrun with ⟨hdelivered, l', hl', h⟩ | ⟨hother, l', hl', h⟩
    · exact .inl ⟨hdelivered, l', hl', hkeeps.trans h⟩
    · exact .inr ⟨hother, l', hl', hkeeps.trans h⟩
  cases hcreation : (l.create (p.freshRecord event now)).1 with
  | created r =>
    rw [hcreation] at hrun
    exact hsend hrun
  | existing r =>
    rw [hcreation] at hrun
    by_cases hsuccess : r.status = .success
    · simp only [if_pos hsuccess, Work.run] at hrun
      cases hrun
      refine .inr ⟨?_, _, hs₂, hkeeps⟩
      rintro ⟨⟩
    · simp only [if_neg hsuccess] at hrun
      exact hsend hrun

end Surroundings.Wired

end EventRelay
