import EventRelay.Proofs.Alone.Outcomes
import EventRelay.Proofs.Crew.Groups

/-!
# Scans by a replayer alone

A scan selects the due rows and treats one after the other: an event that can be made again is
delivered again, and a row without one is given up (`Replayer.Treats`).  In a ledger of one owner
group whose rows can be tried until their retries are used up (`Store.Tended`), every treatment
comes to an outcome and concerns its row only, so the scan ends with a report and leaves a ledger of
that kind (`Replayer.exists_rounds`).
-/

namespace EventRelay

open Work (Progress)

/-! ### Calls of escalation handlers -/

def Asked.escalated? : Asked → Option Event
  | ⟨.escalate _ event _ _, _⟩ => some event
  | _ => none

def escalated (asked : List Asked) : List Event :=
  asked.filterMap Asked.escalated?

@[simp] theorem escalated_append (asked asked' : List Asked) :
    escalated (asked ++ asked') = escalated asked ++ escalated asked' :=
  List.filterMap_append

theorem Escalation.Tells.escalated {chain : List Nat} {event : Event} {stored : Record}
    {reason : String} {asked : List Asked} {told : Progress Bool}
    (h : Escalation.Tells chain event stored reason asked told) :
    ∀ other ∈ escalated asked, other = event := by
  cases h with
  | nobody hpicks | panicked hpicks =>
    rw [EventRelay.escalated, hpicks.filterMap_eq_nil fun _ _ => rfl]
    exact List.forall_mem_nil _
  | told hpicks =>
    rw [escalated_append, EventRelay.escalated, hpicks.filterMap_eq_nil fun _ _ => rfl]
    exact List.forall_mem_singleton.mpr rfl

namespace Consumer

variable {c : Consumer} {event : Event} {b : Backoff} {asked : List Asked} {row : Record}
  {final : Option Record} {progress : Progress (Except Error Outcome)}

@[simp] theorem handlings_finding (row? : Option Record) (asked : List Asked) :
    handlings (c.finding event row? :: asked) = handlings asked := rfl

@[simp] theorem escalated_finding (row? : Option Record) (asked : List Asked) :
    escalated (c.finding event row? :: asked) = escalated asked := rfl

theorem Tries.escalated (h : c.Tries event b row asked final progress) :
    ∀ other ∈ escalated asked, other = event := by
  cases h with
  | panicked hpicks =>
    rw [EventRelay.escalated, hpicks.filterMap_eq_nil fun _ _ => rfl]
    exact List.forall_mem_nil _
  | unhandled hpicks | succeeded hpicks | rescheduled hpicks | unplanned hpicks =>
    rw [escalated_append, EventRelay.escalated, hpicks.filterMap_eq_nil fun _ _ => rfl]
    exact List.forall_mem_nil _
  | exhausted hpicks hreason hnone hnext htold =>
    rw [escalated_append, EventRelay.escalated, hpicks.filterMap_eq_nil fun _ _ => rfl]
    exact htold.escalated

end Consumer

/-! ### Rows that last -/

/-- The numbers of a row that can be tried until its retries are used up: its version can be counted
up for each attempt that is left, and once for taking it over. -/
def Record.Lasting (r : Record) : Prop :=
  r.status.isTerminal = false → leastInt64 ≤ r.version ∧
    r.version + (r.maxRetryTimes - r.retryTimes : Nat) + (if r.status = .created then 3 else 2) ≤
      greatestInt64 ∧
    r.maxRetryTimes ≤ greatestNat32

theorem Record.Lasting.hasRoom {r : Record} (h : r.Lasting) (hopen : r.status.isTerminal = false) :
    r.HasRoom := by
  obtain ⟨hleast, hgreatest, hretries⟩ := h hopen
  refine ⟨hleast, ?_, hretries⟩
  split at hgreatest <;> omega

theorem Record.keys_apart {earlier later : List Record} {row : Record}
    (h : ((earlier ++ row :: later).map Record.key).Nodup) :
    (earlier.map Record.key).Nodup ∧ (later.map Record.key).Nodup ∧
      (∀ r ∈ earlier, r.key ≠ row.key) ∧ (∀ r ∈ later, r.key ≠ row.key) ∧
      ∀ r ∈ earlier, ∀ x ∈ later, r.key ≠ x.key := by
  rw [List.map_append, List.map_cons, List.nodup_append, List.nodup_cons] at h
  obtain ⟨hearlier, ⟨hfresh, hlater⟩, hdisjoint⟩ := h
  refine ⟨hearlier, hlater, fun r hr => ?_, fun r hr hsame => ?_, fun r hr x hx => ?_⟩
  · exact hdisjoint r.key (List.mem_map_of_mem hr) row.key List.mem_cons_self
  · exact hfresh (hsame ▸ List.mem_map_of_mem hr)
  · exact hdisjoint r.key (List.mem_map_of_mem hr) x.key
      (List.mem_cons_of_mem _ (List.mem_map_of_mem hx))

/-- A ledger of one owner group, with one row under each key, in which every row lasts. -/
structure Store.Tended (s : Store) (group : String) : Prop where
  keys : (s.rows.map Record.key).Nodup
  groups : ∀ r ∈ s.rows, r.action = .consume → r.ownerGroup = group
  lasting : ∀ r ∈ s.rows, r.Lasting

namespace Store.Tended

variable {s : Store} {group : String}

theorem find? (h : s.Tended group) {r : Record} (hr : r ∈ s.rows) : s.find? r.key = some r :=
  Store.Keyed.find? h.keys hr

theorem replace (h : s.Tended group) {r : Record} (hlasting : r.Lasting)
    (hgroup : r.action = .consume → r.ownerGroup = group) : (s.replace r).Tended group where
  keys := Store.Keyed.replace h.keys r
  groups x hx := by
    rcases Store.mem_replace hx with rfl | ⟨hmem, -⟩
    · exact hgroup
    · exact h.groups x hmem
  lasting x hx := by
    rcases Store.mem_replace hx with rfl | ⟨hmem, -⟩
    · exact hlasting
    · exact h.lasting x hmem

theorem extended (h : s.Tended group) {r : Record} (hfree : s.find? r.key = none)
    (hlasting : r.Lasting) (hgroup : r.action = .consume → r.ownerGroup = group) :
    (s.extended r).Tended group where
  keys := Store.Keyed.concat h.keys (Store.find?_eq_none_iff.mp hfree) _
  groups x hx := by
    rcases List.mem_append.mp hx with hx | hx
    · exact h.groups x hx
    · exact List.mem_singleton.mp hx ▸ hgroup
  lasting x hx := by
    rcases List.mem_append.mp hx with hx | hx
    · exact h.lasting x hx
    · exact List.mem_singleton.mp hx ▸ hlasting

theorem keys_due (h : s.Tended group) (now : Instant) (limit : Nat) :
    ((s.due now limit).map Record.key).Nodup :=
  Store.Keyed.due h.keys now limit

theorem of_due (h : s.Tended group) {r : Record} {now : Instant} {limit : Nat}
    (hr : r ∈ s.due now limit) :
    s.find? r.key = some r ∧ r.status = .retrying ∧ r.key = .active r.eventId .consume group := by
  obtain ⟨hmem, hdue⟩ := Store.mem_due hr
  obtain ⟨-, haction, hstatus, -⟩ := Record.isDue_iff.mp hdue
  refine ⟨h.find? hmem, hstatus, ?_⟩
  rw [Record.key_of_isDue hdue, h.groups r hmem haction]

end Store.Tended

namespace Consumer

variable {c : Consumer} {event : Event} {b : Backoff} {s s' : Store} {asked : List Asked}
  {row : Record} {final : Option Record} {progress : Progress (Except Error Outcome)}

theorem Tries.lasting (h : c.Tries event b row asked final progress) (hlasting : row.Lasting)
    (hretrying : row.status = .retrying) : ∀ next, final = some next → next.Lasting := by
  intro next hfinal hopen
  cases h with
  | panicked | unplanned => cases hfinal
  | unhandled _ hnext | succeeded _ _ hnext | exhausted _ _ _ hnext =>
    subst hnext
    cases hfinal
    cases hopen
  | rescheduled _ _ hleft _ hnext =>
    subst hnext
    cases hfinal
    obtain ⟨hleast, hgreatest, hretries⟩ := hlasting (by rw [hretrying]; rfl)
    rw [if_neg (by rw [hretrying]; decide)] at hgreatest
    refine ⟨?_, ?_, hretries⟩
    · show leastInt64 ≤ row.version + 1
      omega
    · show row.version + 1 + ((row.maxRetryTimes - (row.retryTimes + 1) : Nat) : Int) + 2 ≤ _
      omega

theorem Delivers.of_retrying (h : c.Delivers event b s true asked s' progress)
    (hfind : s.find? (c.key event.id) = some row) (hretrying : row.status = .retrying) :
    ∃ tried final, asked = c.finding event (some row) :: tried ∧ s' = s.settled final ∧
      c.Tries event b row tried final progress := by
  cases h with
  | ended h =>
    cases h with
    | missing hnone => exact absurd (hfind.symm.trans hnone) nofun
    | skipped hrow hstatus hpast =>
      obtain rfl := Option.some.inj (hfind.symm.trans hrow)
      obtain rfl := hstatus.symm.trans hretrying
      simp at hpast
  | tried h htries =>
    cases h with
    | claimed lease now hrow hcreated =>
      obtain rfl := Option.some.inj (hfind.symm.trans hrow)
      exact absurd (hretrying.symm.trans hcreated) nofun
    | resumed hrow =>
      obtain rfl := Option.some.inj (hfind.symm.trans hrow)
      exact ⟨_, _, rfl, rfl, htries⟩

theorem Delivers.of_missing (h : c.Delivers event b s false asked s' progress)
    (hfind : s.find? (c.key event.id) = none) :
    ∃ payload now tried final, c.codec.encode event.payload = .ok payload ∧
      asked = c.finding event none ::
        creating (c.created event payload now s) now ++ tried ∧
      s' = (s.extended (c.created event payload now s)).settled final ∧
      c.Tries event b (c.created event payload now s) tried final progress := by
  cases h with
  | ended h =>
    cases h with
    | skipped hrow => exact absurd (hrow.symm.trans hfind) nofun
  | tried h htries =>
    cases h with
    | founded now _ hpayload => exact ⟨_, now, _, _, hpayload, rfl, rfl, htries⟩
    | reopened _ _ hrow | claimed _ _ hrow => exact absurd (hrow.symm.trans hfind) nofun

end Consumer

theorem Consumer.lasting_created {c : Consumer} {event : Event} (payload : Bytes) (now : Instant)
    (s : Store) (hlimit : event.maxRetries c.config.defaultMaxRetries ≤ greatestNat32) :
    (c.created event payload now s).Lasting := by
  refine fun _ => ⟨by show leastInt64 ≤ (0 : Int); decide, ?_, hlimit⟩
  show (0 : Int) + ((event.maxRetries c.config.defaultMaxRetries - 0 : Nat) : Int) + 2 ≤ greatestInt64
  have hbounds : (greatestNat32 : Int) + 2 ≤ greatestInt64 := by decide
  omega

theorem Store.Tended.settled {c : Consumer} {event : Event} {b : Backoff} {s : Store}
    {asked : List Asked} {row : Record} {final : Option Record}
    {progress : Progress (Except Error Consumer.Outcome)} {group : String}
    (htended : s.Tended group) (h : c.Tries event b row asked final progress) (hmem : row ∈ s.rows)
    (hretrying : row.status = .retrying) : (s.settled final).Tended group := by
  cases hfinal : final with
  | none => exact htended
  | some next =>
    have hkey := h.final_key next hfinal
    refine htended.replace (h.lasting (htended.lasting row hmem) hretrying next hfinal) ?_
    intro haction
    have hgroup := htended.groups row hmem ((congrArg Key.action hkey).symm.trans haction)
    exact (congrArg Key.ownerGroup hkey).trans hgroup

def Cast.clock (cast : Cast) (history : List Asked) : Instant :=
  cast history .now

/-- Where a scan stands that has selected the due rows. -/
def Scene.selecting (scene : Scene) (now : Instant) (batch : Nat) : Scene :=
  ⟨scene.store, scene.history ++ [⟨.now, now⟩, ⟨.due now batch, .ok (scene.store.due now batch)⟩]⟩

/-! ### Treatments -/

namespace Replayer

variable {p : Replayer} {b : Backoff} {s s' : Store} {r : Record} {asked : List Asked}
  {progress : Progress (Except Error Consumer.Outcome)} {group : String}

/-- **How a due row is treated.** -/
inductive Treats (p : Replayer) (b : Backoff) (s : Store) (r : Record) :
    List Asked → Store → Progress (Except Error Consumer.Outcome) → Prop
  | redelivered {event : Event} {asked : List Asked} {final : Option Record}
      {progress : Progress (Except Error Consumer.Outcome)} (h : p.rebuild r = .ok event)
      (htries : p.consumer.Tries event b r asked final progress) :
      Treats p b s r (p.consumer.finding event (some r) :: asked) (s.settled final) progress
  | abandoned {e : Error} {now : Instant} {next : Record} {consulted : List Asked}
      {told : Progress Bool} (h : p.rebuild r = .error e)
      (hnext : next = { r with
        status := .failed, nextRetryTime := none, updateTime := now,
        message := some ("replay aborted: " ++ Message.truncate e.message) })
      (htold : Escalation.Tells p.consumer.chain (Consumer.remains r) next.revised e.message
        consulted told) :
      Treats p b s r (writing next now ++ consulted) (s.replace next.revised)
        (told.map fun _ => .ok .failed)

/-- **Replaying a row treats it so.** -/
theorem gives_replay (cast : Cast) (history : List Asked) (hrule : p.consumer.rule = .backoff b)
    (hkey : r.key = p.consumer.key r.eventId) (hfind : s.find? r.key = some r)
    (hretrying : r.status = .retrying) (hlasting : r.Lasting) :
    ∃ asked s' progress, p.Treats b s r asked s' progress ∧
      (p.replay r).Gives cast ⟨s, history⟩ asked s' progress := by
  have hhas := hlasting.hasRoom (by rw [hretrying]; rfl)
  unfold replay
  cases hrebuild : p.rebuild r with
  | ok event =>
    obtain ⟨hid, hmax⟩ := rebuild_eq_ok hrebuild
    have hrow : s.find? (p.consumer.key event.id) = some r := by rw [hid, ← hkey, hfind]
    obtain ⟨asked, s', progress, hdelivers, hgives⟩ := Consumer.gives_redeliver cast history hrule
      (fun row hother _ => Option.some.inj (hrow.symm.trans hother) ▸ hhas)
      (by rw [Event.maxRetries, hmax]; exact hhas.retries)
    obtain ⟨tried, final, rfl, rfl, htries⟩ := hdelivers.of_retrying hrow hretrying
    exact ⟨_, _, _, .redelivered hrebuild htries, hgives⟩
  | error e =>
    obtain ⟨now, next, consulted, told, hnext, htold, hgives⟩ :=
      @Consumer.gives_giveUp s cast history p.consumer (Consumer.remains r) r
        ("replay aborted: " ++ Message.truncate e.message) e.message hfind hretrying hhas.revisable
    exact ⟨_, _, _, .abandoned hrebuild hnext htold, hgives⟩

namespace Treats

theorem find?_ne (h : p.Treats b s r asked s' progress) {key : Key} (hkey : r.key ≠ key) :
    s'.find? key = s.find? key := by
  cases h with
  | redelivered _ htries => exact htries.find?_settled hkey
  | abandoned _ hnext =>
    subst hnext
    exact Store.find?_replace_of_ne hkey

theorem tended (h : p.Treats b s r asked s' progress) (htended : s.Tended group)
    (hfind : s.find? r.key = some r) (hretrying : r.status = .retrying) : s'.Tended group := by
  have hmem := Store.mem_of_find? hfind
  cases h with
  | redelivered _ htries => exact htended.settled htries hmem hretrying
  | abandoned _ hnext =>
    subst hnext
    exact htended.replace (fun hopen => by cases hopen) (htended.groups r hmem)

theorem handlings (h : p.Treats b s r asked s' progress) :
    ∀ call ∈ handlings asked, call.event.id = r.eventId := by
  cases h with
  | redelivered hrebuild htries =>
    rw [Consumer.handlings_finding]
    rcases htries.handlings with hnone | ⟨slot, verdict, hone⟩
    · rw [hnone]
      exact List.forall_mem_nil _
    · rw [hone]
      exact List.forall_mem_singleton.mpr (rebuild_eq_ok hrebuild).1
  | abandoned _ _ htold =>
    rw [handlings_append, htold.handlings]
    exact List.forall_mem_nil _

theorem escalated (h : p.Treats b s r asked s' progress) :
    ∀ event ∈ escalated asked, event.id = r.eventId := by
  cases h with
  | redelivered hrebuild htries =>
    intro event hevent
    rw [htries.escalated event (Consumer.escalated_finding .. ▸ hevent)]
    exact (rebuild_eq_ok hrebuild).1
  | abandoned _ _ htold =>
    intro event hevent
    rw [htold.escalated event hevent]
    rfl

theorem exists_outcome {cast : Cast} {history : List Asked} (h : p.Treats b s r asked s' progress)
    (hmultiplier : ¬ b.multiplier < 0.0) (hcalm : cast.Calm) (hloyal : cast.Loyal history asked) :
    ∃ outcome, progress = .done (.ok outcome) := by
  cases h with
  | redelivered _ htries =>
    rcases htries.progress_cases with ⟨outcome, houtcome, -⟩ | ⟨text, rfl⟩
    · exact ⟨outcome, houtcome⟩
    · exact absurd htries (Consumer.Tries.not_crashed hmultiplier hcalm (Cast.loyal_cons.mp hloyal).2)
  | abandoned _ _ htold =>
    obtain ⟨any, rfl⟩ := htold.done_of_calm hcalm (Cast.loyal_append.mp hloyal).2
    exact ⟨_, rfl⟩

end Treats

/-! ### Rounds -/

/-- Rows are replayed one after the other, with the outcome of each. -/
inductive Rounds (p : Replayer) (cast : Cast) :
    Scene → List (Record × Consumer.Outcome) → Scene → Prop
  | nil {scene : Scene} : Rounds p cast scene [] scene
  | cons {scene scene' scene'' : Scene} {r : Record} {outcome : Consumer.Outcome}
      {rest : List (Record × Consumer.Outcome)}
      (h : (p.replay r).run cast.reply scene = (.done (.ok outcome), scene'))
      (hrest : Rounds p cast scene' rest scene'') : Rounds p cast scene ((r, outcome) :: rest) scene''

theorem Rounds.append {cast : Cast} {scene scene' scene'' : Scene}
    {results results' : List (Record × Consumer.Outcome)} (h : p.Rounds cast scene results scene')
    (h' : p.Rounds cast scene' results' scene'') :
    p.Rounds cast scene (results ++ results') scene'' := by
  induction h with
  | nil => exact h'
  | cons h _ ih => exact .cons h (ih h')

/-- **Due rows can be replayed one after the other**, and each replay comes to an outcome.  They do
not concern other rows, nor events that none of them stands for. -/
theorem exists_rounds (cast : Cast) (hrule : p.consumer.rule = .backoff b)
    (hmultiplier : ¬ b.multiplier < 0.0) (hcalm : cast.Calm) {rows : List Record}
    (hkeys : (rows.map Record.key).Nodup) {s : Store} (history : List Asked)
    (htended : s.Tended p.consumer.config.ownerGroup)
    (hrows : ∀ r ∈ rows, s.find? r.key = some r ∧ r.status = .retrying ∧
      r.key = p.consumer.key r.eventId) :
    ∃ results s' asked, results.map Prod.fst = rows ∧
      p.Rounds cast ⟨s, history⟩ results ⟨s', history ++ asked⟩ ∧
      s'.Tended p.consumer.config.ownerGroup ∧
      (∀ key, (∀ r ∈ rows, r.key ≠ key) → s'.find? key = s.find? key) ∧
      (∀ call ∈ handlings asked, ∃ r ∈ rows, call.event.id = r.eventId) ∧
      ∀ event ∈ escalated asked, ∃ r ∈ rows, event.id = r.eventId := by
  induction rows generalizing s history with
  | nil =>
    refine ⟨[], s, [], rfl, ?_, htended, fun _ _ => rfl, List.forall_mem_nil _, List.forall_mem_nil _⟩
    rw [List.append_nil]
    exact .nil
  | cons r rest ih =>
    obtain ⟨hfind, hretrying, hkey⟩ := hrows r List.mem_cons_self
    obtain ⟨hfresh, hkeys⟩ := List.nodup_cons.mp hkeys
    obtain ⟨asked, s', progress, htreats, hgives⟩ := gives_replay cast history hrule hkey hfind
      hretrying (htended.lasting r (Store.mem_of_find? hfind))
    obtain ⟨outcome, rfl⟩ := htreats.exists_outcome hmultiplier hcalm hgives.loyal
    have hapart : ∀ other ∈ rest, r.key ≠ other.key := fun other hother hsame =>
      hfresh (hsame ▸ List.mem_map_of_mem hother)
    obtain ⟨results, s'', asked', rfl, hrounds, htended, hkept, hhandlings, hescalated⟩ :=
      ih hkeys (history ++ asked) (htreats.tended htended hfind hretrying) fun other hother => by
        obtain ⟨hother', hrest⟩ := hrows other (List.mem_cons_of_mem _ hother)
        exact ⟨(htreats.find?_ne (hapart other hother)).trans hother', hrest⟩
    refine ⟨(r, outcome) :: results, s'', asked ++ asked', rfl, ?_, htended, ?_, ?_, ?_⟩
    · rw [← List.append_assoc]
      exact .cons hgives hrounds
    · intro key hother
      obtain ⟨hr, hrest⟩ := List.forall_mem_cons.mp hother
      exact (hkept key hrest).trans (htreats.find?_ne hr)
    · intro call hcall
      rw [handlings_append, List.mem_append] at hcall
      rcases hcall with hcall | hcall
      · exact ⟨r, List.mem_cons_self, htreats.handlings call hcall⟩
      · obtain ⟨other, hother, hid⟩ := hhandlings call hcall
        exact ⟨other, List.mem_cons_of_mem _ hother, hid⟩
    · intro event hevent
      rw [escalated_append, List.mem_append] at hevent
      rcases hevent with hevent | hevent
      · exact ⟨r, List.mem_cons_self, htreats.escalated event hevent⟩
      · obtain ⟨other, hother, hid⟩ := hescalated event hevent
        exact ⟨other, List.mem_cons_of_mem _ hother, hid⟩

def tally (report : ScanReport) (results : List (Record × Consumer.Outcome)) : ScanReport :=
  results.foldl (fun report result => report.count (.ok result.2)) report

theorem Rounds.runRows {cast : Cast} {scene scene' : Scene}
    {results : List (Record × Consumer.Outcome)} (h : p.Rounds cast scene results scene')
    (places : Nat) (report : ScanReport) :
    p.runRows cast.reply (places + 1) false report (results.map Prod.fst) scene =
      (.done (tally report results), scene') := by
  induction h generalizing report with
  | nil => rw [List.map_nil, Replayer.runRows]; rfl
  | cons h _ ih =>
    rw [List.map_cons, Replayer.runRows, h]
    exact ih _

/-- **A scan**: the due rows are selected, and replayed one after the other. -/
structure Sweep (p : Replayer) (cast : Cast) (batch : Nat) (scene : Scene)
    (results : List (Record × Consumer.Outcome)) (scene' : Scene) : Prop where
  selected : results.map Prod.fst = scene.store.due (cast.clock scene.history) batch
  replayed : p.Rounds cast (scene.selecting (cast.clock scene.history) batch) results scene'

theorem Sweep.run {cast : Cast} {batch : Nat} {scene scene' : Scene}
    {results : List (Record × Consumer.Outcome)} (h : p.Sweep cast batch scene results scene') :
    p.run cast.reply batch scene =
      (.done (.ok (tally { selected := results.length } results)), scene') := by
  have hselect : (p.select batch).run cast.reply scene =
      (.done (.ok (scene.store.due (cast.clock scene.history) batch)),
        scene.selecting (cast.clock scene.history) batch) :=
    Work.Gives.clock (.call rfl .done)
  have hplaces : p.places = (p.places - 1) + 1 := by
    have : 1 ≤ p.places := Nat.le_max_right ..
    omega
  have hlength : (scene.store.due (cast.clock scene.history) batch).length = results.length := by
    rw [← h.selected, List.length_map]
  have hrows := h.replayed.runRows (p.places - 1) { selected := results.length }
  rw [h.selected, ← hplaces, ← hlength] at hrows
  unfold Replayer.run
  rw [← hlength, hselect]
  simp only [hrows]

end Replayer

end EventRelay
