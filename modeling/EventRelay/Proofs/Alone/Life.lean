import EventRelay.Proofs.Alone.Scans
import Mathlib.Data.ENat.Lattice

/-!
# The life of an event

An event is delivered once and then lives by scans.  Its handler follows a script, and the row keeps
count: after the attempt with number `k` it waits with `k + 1` retries, or is at its end
(`Consumer.Upshot`).  A scan that finds the row waiting makes the next attempt
(`Circumstances.step_waiting`), and one that finds it at its end leaves it alone
(`Circumstances.step_ended`); other rows that a scan treats are no concern of the event.

So the number of attempts is known from the start: with `j` failures before the first success and
`m` retries allowed, the handler is called `min j m + 1` times
(`Circumstances.life_follows_script`).
-/

namespace EventRelay

open Work (Progress)

/-! ### What concerns an event -/

def callsFor (eventId : String) (asked : List Asked) : List (Nat × Verdict) :=
  ((handlings asked).filter (·.event.id = eventId)).map fun call => (call.slot, call.verdict)

@[simp] theorem callsFor_append (eventId : String) (asked asked' : List Asked) :
    callsFor eventId (asked ++ asked') = callsFor eventId asked ++ callsFor eventId asked' := by
  simp [callsFor]

def alarmsFor (eventId : String) (asked : List Asked) : List Event :=
  (escalated asked).filter (·.id = eventId)

@[simp] theorem alarmsFor_append (eventId : String) (asked asked' : List Asked) :
    alarmsFor eventId (asked ++ asked') = alarmsFor eventId asked ++ alarmsFor eventId asked' := by
  simp [alarmsFor]

theorem callsFor_eq_nil {eventId : String} {asked : List Asked}
    (h : ∀ call ∈ handlings asked, call.event.id ≠ eventId) : callsFor eventId asked = [] := by
  unfold callsFor
  rw [List.filter_eq_nil_iff.mpr fun call hcall => by simpa using h call hcall]
  rfl

theorem alarmsFor_eq_nil {eventId : String} {asked : List Asked}
    (h : ∀ event ∈ escalated asked, event.id ≠ eventId) : alarmsFor eventId asked = [] :=
  List.filter_eq_nil_iff.mpr fun event hevent => by simpa using h event hevent

theorem Picks.alarmsFor_append {event : Event} {slots : List Nat} {asked : List Asked}
    {result : Except String (Option Nat)} (h : Picks (acceptance event) slots asked result)
    (eventId : String) (rest : List Asked) :
    alarmsFor eventId (asked ++ rest) = alarmsFor eventId rest := by
  have hnone : escalated asked = [] := h.filterMap_eq_nil fun _ _ => rfl
  rw [EventRelay.alarmsFor_append, alarmsFor_eq_nil (hnone ▸ List.forall_mem_nil _)]
  rfl

/-- An event that was made again is alike in what handlers look at. -/
structure Event.Alike (event other : Event) : Prop where
  id : other.id = event.id
  type : other.eventType = event.eventType
  payload : other.payload = event.payload

theorem Event.Alike.refl (event : Event) : event.Alike event := ⟨rfl, rfl, rfl⟩

/-- **The circumstances of a life.**  Retries are planned by exponential backoff, and what is written
of the event can be read back.  One handler is chosen for it, by its id, type and payload alone, and
does at each attempt what a script says. -/
structure Circumstances (p : Replayer) (event : Event) (b : Backoff) (cast : Cast) (slot : Nat)
    (script : Nat → Verdict) : Prop where
  rule : p.consumer.rule = .backoff b
  multiplier : ¬ b.multiplier < 0.0
  limit : event.maxRetries p.consumer.config.defaultMaxRetries ≤ greatestNat32
  readable : ∃ payload, p.consumer.codec.encode event.payload = .ok payload ∧
    p.codec.decode payload event.eventType = .ok event.payload
  calm : cast.Calm
  chosen : ∃ accepts, p.consumer.routes.choose event.eventType accepts = some slot ∧
    ∀ history candidate other, event.Alike other →
      cast history (.accepts candidate other) = .ok (accepts candidate)
  scripted : ∀ history candidate other, event.Alike other →
    cast history (.handle candidate other) = script (callsFor event.id history).length

/-! ### Attempts -/

namespace Consumer

/-- **What becomes of the row at an attempt**, after so many retries of those allowed. -/
inductive Upshot (c : Consumer) (event : Event) (verdict : Verdict) (tried limit : Nat)
    (next : Record) : List Asked → Outcome → Prop
  | succeeded {asked : List Asked} (hverdict : verdict = .ok) (hstatus : next.status = .success)
      (hretries : next.retryTimes = tried) (hquiet : alarmsFor event.id asked = []) :
      Upshot c event verdict tried limit next asked .succeeded
  | rescheduled {asked : List Asked} {t : Instant} (hverdict : verdict ≠ .ok)
      (hleft : tried < limit) (hstatus : next.status = .retrying)
      (hretries : next.retryTimes = tried + 1) (htime : next.nextRetryTime = some t)
      (hquiet : alarmsFor event.id asked = []) :
      Upshot c event verdict tried limit next asked (.rescheduled (tried + 1) t)
  | failed {first consulted : List Asked} {other : Event} {reason : String} {any : Bool}
      (hverdict : verdict.reason? = some reason) (hnone : limit ≤ tried)
      (hstatus : next.status = .failed) (hretries : next.retryTimes = tried)
      (halike : event.Alike other) (hquiet : alarmsFor event.id first = [])
      (htold : Escalation.Tells c.chain other next reason consulted (.done any)) :
      Upshot c event verdict tried limit next (first ++ consulted) .failed

end Consumer

namespace Circumstances

variable {p : Replayer} {event other : Event} {b : Backoff} {cast : Cast} {slot candidate : Nat}
  {script : Nat → Verdict} {history asked rest : List Asked} {verdict : Verdict}

theorem picked (h : Circumstances p event b cast slot script) (halike : event.Alike other)
    {result : Except String (Option Nat)}
    (hpicks : Picks (acceptance other) (p.consumer.routes.candidates other.eventType) asked result)
    (hloyal : cast.Loyal history asked) : result = .ok (some slot) := by
  obtain ⟨accepts, hchosen, haccepts⟩ := h.chosen
  have hfound : result = .ok ((p.consumer.routes.candidates other.eventType).find? accepts) := by
    refine hpicks.eq_find? fun candidate answer hmem => ?_
    obtain ⟨before, hanswer⟩ := hloyal.of_mem hmem rfl
    exact hanswer.trans (haccepts _ candidate other halike)
  rw [hfound, halike.type]
  exact congrArg Except.ok hchosen

theorem called (h : Circumstances p event b cast slot script) (halike : event.Alike other)
    (hpicks : Picks (acceptance other) (p.consumer.routes.candidates other.eventType) asked
      (.ok (some candidate)))
    (hloyal : cast.Loyal history (asked ++ ⟨.handle candidate other, verdict⟩ :: rest))
    (hrest : handlings rest = []) {tried : Nat}
    (hcount : (callsFor event.id history).length = tried) :
    verdict = script tried ∧
      callsFor event.id (asked ++ ⟨.handle candidate other, verdict⟩ :: rest) = [(slot, verdict)] := by
  obtain ⟨hasking, hcalling⟩ := Cast.loyal_append.mp hloyal
  have hnone : handlings asked = [] := hpicks.filterMap_eq_nil fun _ _ => rfl
  have hcalls : callsFor event.id asked = [] := callsFor_eq_nil (hnone ▸ List.forall_mem_nil _)
  obtain rfl : candidate = slot :=
    Option.some.inj (Except.ok.inj (h.picked halike hpicks hasking))
  constructor
  · have hverdict : verdict = cast (history ++ asked) (.handle candidate other) :=
      (Cast.loyal_cons.mp hcalling).1 rfl
    rw [hverdict, h.scripted _ candidate other halike, callsFor_append, hcalls, List.append_nil, hcount]
  · have hone : handlings (⟨.handle candidate other, verdict⟩ :: rest) =
        [⟨candidate, other, verdict⟩] := congrArg (_ :: ·) hrest
    rw [callsFor_append, hcalls, List.nil_append, callsFor, hone]
    simp [halike.id]

/-- **What an attempt comes to.**  The script decides, and the retries that are left. -/
theorem upshot (h : Circumstances p event b cast slot script) (halike : event.Alike other)
    {row : Record} {final : Option Record} {progress : Progress (Except Error Consumer.Outcome)}
    (htries : p.consumer.Tries other b row asked final progress)
    (hloyal : cast.Loyal history asked)
    (hcount : (callsFor event.id history).length = row.retryTimes) :
    ∃ next outcome, final = some next ∧ progress = .done (.ok outcome) ∧ next.key = row.key ∧
      next.origin = row.origin ∧
      callsFor event.id asked = [(slot, script row.retryTimes)] ∧
      p.consumer.Upshot event (script row.retryTimes) row.retryTimes row.maxRetryTimes next asked
        outcome := by
  cases htries with
  | panicked hpicks => exact absurd (h.picked halike hpicks hloyal) nofun
  | unhandled hpicks =>
    exact absurd (h.picked halike hpicks (Cast.loyal_append.mp hloyal).1) (by simp)
  | succeeded hpicks hverdict hnext =>
    obtain ⟨rfl, hcalls⟩ := h.called halike hpicks hloyal rfl hcount
    subst hnext
    exact ⟨_, _, rfl, rfl, rfl, rfl, hcalls, .succeeded (Verdict.reason?_eq_none_iff.mp hverdict) rfl
      rfl (hpicks.alarmsFor_append ..)⟩
  | rescheduled hpicks hreason hleft htime hnext =>
    obtain ⟨rfl, hcalls⟩ := h.called halike hpicks hloyal rfl hcount
    subst hnext
    exact ⟨_, _, rfl, rfl, rfl, rfl, hcalls, .rescheduled (Verdict.ne_ok_of_reason hreason) hleft rfl
      rfl rfl (hpicks.alarmsFor_append ..)⟩
  | unplanned hpicks hreason hleft htime =>
    obtain ⟨t, ht⟩ := b.time_ok h.multiplier _ (row.retryTimes + 1)
    exact absurd (htime.symm.trans ht) nofun
  | exhausted hpicks hreason hnone hnext htold =>
    obtain ⟨rfl, hcalls⟩ := h.called halike hpicks hloyal htold.handlings hcount
    rw [← List.cons_append, ← List.append_assoc] at hloyal
    obtain ⟨any, rfl⟩ := htold.done_of_calm h.calm (Cast.loyal_append.mp hloyal).2
    subst hnext
    refine ⟨_, _, rfl, rfl, rfl, rfl, hcalls, ?_⟩
    rw [← List.cons_append, ← List.append_assoc]
    exact .failed hreason hnone rfl rfl halike (hpicks.alarmsFor_append ..) htold

end Circumstances

/-! ### How an event stands -/

def Consumer.allowed (c : Consumer) (event : Event) : Nat :=
  event.maxRetries c.config.defaultMaxRetries

/-- What the script has said at the first attempts. -/
def played (slot : Nat) (script : Nat → Verdict) (attempts : Nat) : List (Nat × Verdict) :=
  (List.range attempts).map fun k => (slot, script k)

/-- **How an event stands** after its first delivery and so many scans, by the attempt that was made
last.  The attempts before it have failed, and no other one has called an escalation handler. -/
structure Replayer.Stands (p : Replayer) (event : Event) (payload : Bytes) (slot : Nat)
    (script : Nat → Verdict) (scans : Nat) (scene : Scene) (row : Record) (last : Nat) : Prop where
  found : scene.store.find? (p.consumer.key event.id) = some row
  type : row.eventType = event.eventType
  payload : row.payload = some payload
  limit : row.maxRetryTimes = p.consumer.allowed event
  begun : last ≤ scans
  allowed : last ≤ p.consumer.allowed event
  failed : ∀ k < last, script k ≠ .ok
  calls : callsFor event.id scene.history = played slot script (last + 1)
  attempt : ∃ before tried since outcome, scene.history = before ++ tried ++ since ∧
    alarmsFor event.id before = [] ∧ alarmsFor event.id since = [] ∧
    p.consumer.Upshot event (script last) last (p.consumer.allowed event) row tried outcome
  waiting : row.status = .retrying → last = scans

namespace Replayer.Stands

variable {p : Replayer} {event : Event} {payload : Bytes} {slot scans last : Nat}
  {script : Nat → Verdict} {s s' : Store} {history : List Asked} {row : Record}

theorem of_retrying (h : p.Stands event payload slot script scans ⟨s, history⟩ row last)
    (hretrying : row.status = .retrying) :
    row.retryTimes = last + 1 ∧ script last ≠ .ok ∧ last < p.consumer.allowed event ∧
      alarmsFor event.id history = [] := by
  obtain ⟨before, tried, since, outcome, hhistory, hbefore, hsince, hupshot⟩ := h.attempt
  cases hupshot with
  | succeeded _ hstatus => exact absurd (hretrying.symm.trans hstatus) nofun
  | failed _ _ hstatus => exact absurd (hretrying.symm.trans hstatus) nofun
  | rescheduled hverdict hleft _ hretries _ hquiet =>
    refine ⟨hretries, hverdict, hleft, ?_⟩
    rw [show history = _ from hhistory, alarmsFor_append, alarmsFor_append, hbefore, hquiet, hsince]
    rfl

theorem extend (h : p.Stands event payload slot script scans ⟨s, history⟩ row last)
    {more : List Asked} (hfind : s'.find? (p.consumer.key event.id) =
      s.find? (p.consumer.key event.id))
    (hcalls : callsFor event.id more = []) (hquiet : alarmsFor event.id more = []) :
    p.Stands event payload slot script scans ⟨s', history ++ more⟩ row last where
  found := hfind.trans h.found
  type := h.type
  payload := h.payload
  limit := h.limit
  begun := h.begun
  allowed := h.allowed
  failed := h.failed
  calls := by
    show callsFor event.id (history ++ more) = _
    rw [callsFor_append, hcalls, List.append_nil]
    exact h.calls
  attempt := by
    obtain ⟨before, tried, since, outcome, hhistory, hbefore, hsince, hupshot⟩ := h.attempt
    refine ⟨before, tried, since ++ more, outcome, ?_, hbefore, ?_, hupshot⟩
    · rw [show history = _ from hhistory, List.append_assoc]
    · rw [alarmsFor_append, hsince, hquiet]
      rfl
  waiting := h.waiting

theorem selecting (h : p.Stands event payload slot script scans ⟨s, history⟩ row last)
    (now : Instant) (batch : Nat) :
    p.Stands event payload slot script scans (Scene.selecting ⟨s, history⟩ now batch) row last :=
  h.extend rfl rfl rfl

theorem rebuild {scene : Scene} (h : p.Stands event payload slot script scans scene row last)
    (hdecode : p.codec.decode payload event.eventType = .ok event.payload) :
    ∃ other, p.rebuild row = .ok other ∧ event.Alike other := by
  have hid : row.eventId = event.id := congrArg Key.eventId (Store.key_of_find? h.found)
  refine ⟨{ Consumer.remains row with payload := event.payload }, ?_, hid, h.type, rfl⟩
  unfold Replayer.rebuild
  rw [h.payload]
  simp only [h.type, hdecode]
  rfl

theorem later {scene : Scene} (h : p.Stands event payload slot script scans scene row last)
    (hended : row.status ≠ .retrying) :
    p.Stands event payload slot script (scans + 1) scene row last :=
  { h with
    begun := Nat.le_succ_of_le h.begun
    waiting := fun hretrying => absurd hretrying hended }

end Replayer.Stands

namespace Circumstances

variable {p : Replayer} {event other : Event} {b : Backoff} {cast : Cast} {slot : Nat}
  {script : Nat → Verdict} {s : Store} {history asked : List Asked} {payload : Bytes}

theorem attempt (h : Circumstances p event b cast slot script) (halike : event.Alike other)
    {row : Record} {final : Option Record} {progress : Progress (Except Error Consumer.Outcome)}
    (htries : p.consumer.Tries other b row asked final progress) (hloyal : cast.Loyal history asked)
    (hfind : s.find? (p.consumer.key event.id) = some row)
    (htype : row.eventType = event.eventType) (hpayload : row.payload = some payload)
    (hlimit : row.maxRetryTimes = p.consumer.allowed event)
    (hleft : row.retryTimes ≤ p.consumer.allowed event)
    (hfailed : ∀ k < row.retryTimes, script k ≠ .ok)
    (hcalls : callsFor event.id history = played slot script row.retryTimes)
    (hquiet : alarmsFor event.id history = []) :
    ∃ next outcome, progress = .done (.ok outcome) ∧
      p.Stands event payload slot script row.retryTimes ⟨s.settled final, history ++ asked⟩ next
        row.retryTimes ∧
      p.consumer.Upshot event (script row.retryTimes) row.retryTimes (p.consumer.allowed event) next
        asked outcome := by
  obtain ⟨next, outcome, rfl, rfl, hkey, horigin, hcalled, hupshot⟩ := h.upshot halike htries hloyal
    (by rw [hcalls, played, List.length_map, List.length_range])
  rw [hlimit] at hupshot
  refine ⟨next, outcome, rfl, ?_, hupshot⟩
  exact {
    found := Store.find?_replace_of_eq hfind (hkey.trans (Store.key_of_find? hfind))
    type := (congrArg Record.Origin.eventType horigin).trans htype
    payload := (congrArg Record.Origin.payload horigin).trans hpayload
    limit := (congrArg Record.Origin.maxRetryTimes horigin).trans hlimit
    begun := Nat.le_refl _
    allowed := hleft
    failed := hfailed
    calls := by
      show callsFor event.id (history ++ asked) = _
      rw [callsFor_append, hcalls, hcalled, played, played, List.range_succ, List.map_append]
      rfl
    attempt := ⟨history, asked, [], outcome, (List.append_nil _).symm, hquiet, rfl, hupshot⟩
    waiting := fun _ => rfl }

theorem first (h : Circumstances p event b cast slot script)
    (hpayload : p.consumer.codec.encode event.payload = .ok payload)
    (htended : s.Tended p.consumer.config.ownerGroup)
    (hnew : s.find? (p.consumer.key event.id) = none) :
    ∃ outcome scene row tried,
      (p.consumer.deliver event).run cast.reply ⟨s, []⟩ = (.done (.ok outcome), scene) ∧
      scene.store.Tended p.consumer.config.ownerGroup ∧
      p.Stands event payload slot script 0 scene row 0 ∧
      p.consumer.Upshot event (script 0) 0 (p.consumer.allowed event) row tried outcome := by
  obtain ⟨asked, s', progress, hdelivers, hgives⟩ := Consumer.gives_deliver cast [] h.rule hpayload
    (fun row hrow => absurd (hrow.symm.trans hnew) nofun) h.limit
  obtain ⟨payload', now, tried, final, hencode, rfl, rfl, htries⟩ := hdelivers.of_missing hnew
  obtain rfl := Except.ok.inj (hpayload.symm.trans hencode)
  have hfind : (s.extended (p.consumer.created event payload now s)).find?
      (p.consumer.key event.id) = some (p.consumer.created event payload now s) :=
    Store.find?_extended hnew
  obtain ⟨row, outcome, rfl, hstands, hupshot⟩ := h.attempt (.refl event) htries
    (Cast.loyal_append.mp hgives.loyal).2 hfind rfl rfl rfl (Nat.zero_le _)
    (fun k hk => absurd hk (Nat.not_lt_zero k)) rfl rfl
  refine ⟨outcome, _, row, tried, hgives, ?_, hstands, hupshot⟩
  have hextended := htended.extended (r := p.consumer.created event payload now s) hnew
    (Consumer.lasting_created payload now s h.limit) (fun _ => rfl)
  exact hextended.settled htries (Store.mem_of_find? hfind) rfl

/-! ### A scan -/

theorem rounds_apart (h : Circumstances p event b cast slot script) {rows : List Record}
    (hkeys : (rows.map Record.key).Nodup) (htended : s.Tended p.consumer.config.ownerGroup)
    (hrows : ∀ r ∈ rows, s.find? r.key = some r ∧ r.status = .retrying ∧
      r.key = p.consumer.key r.eventId)
    (hapart : ∀ r ∈ rows, r.key ≠ p.consumer.key event.id) (history : List Asked) :
    ∃ results s' asked, results.map Prod.fst = rows ∧
      p.Rounds cast ⟨s, history⟩ results ⟨s', history ++ asked⟩ ∧
      s'.Tended p.consumer.config.ownerGroup ∧
      (∀ key, (∀ r ∈ rows, r.key ≠ key) → s'.find? key = s.find? key) ∧
      callsFor event.id asked = [] ∧ alarmsFor event.id asked = [] := by
  obtain ⟨results, s', asked, hresults, hrounds, htended, hkept, hhandlings, hescalated⟩ :=
    Replayer.exists_rounds cast h.rule h.multiplier h.calm hkeys history htended hrows
  have hother : ∀ r ∈ rows, r.eventId ≠ event.id := by
    intro r hr hid
    refine hapart r hr ?_
    rw [(hrows r hr).2.2, hid]
  refine ⟨results, s', asked, hresults, hrounds, htended, hkept, ?_, ?_⟩
  · refine callsFor_eq_nil fun call hcall hid => ?_
    obtain ⟨r, hr, hcalled⟩ := hhandlings call hcall
    exact hother r hr (hcalled.symm.trans hid)
  · refine alarmsFor_eq_nil fun alarm halarm hid => ?_
    obtain ⟨r, hr, hcalled⟩ := hescalated alarm halarm
    exact hother r hr (hcalled.symm.trans hid)

/-- **A scan leaves an event at its end alone.** -/
theorem step_ended (h : Circumstances p event b cast slot script) {scans last : Nat}
    {row : Record} (htended : s.Tended p.consumer.config.ownerGroup)
    (hstands : p.Stands event payload slot script scans ⟨s, history⟩ row last)
    (hended : row.status ≠ .retrying) (batch : Nat) :
    ∃ results scene', p.Sweep cast batch ⟨s, history⟩ results scene' ∧
      scene'.store.Tended p.consumer.config.ownerGroup ∧
      p.Stands event payload slot script (scans + 1) scene' row last ∧
      ∀ result ∈ results, result.1.key ≠ p.consumer.key event.id := by
  have hapart : ∀ r ∈ s.due (cast.clock history) batch, r.key ≠ p.consumer.key event.id := by
    intro r hr hkey
    obtain ⟨hfind, hretrying, -⟩ := htended.of_due hr
    obtain rfl := Option.some.inj (hfind.symm.trans (hkey ▸ hstands.found))
    exact hended hretrying
  obtain ⟨results, s', asked, hresults, hrounds, htended', hkept, hcalls, hquiet⟩ :=
    h.rounds_apart (htended.keys_due _ _) htended (fun r hr => htended.of_due hr) hapart
      (Scene.selecting ⟨s, history⟩ (cast.clock history) batch).history
  refine ⟨results, _, ⟨hresults, hrounds⟩, htended', ?_, ?_⟩
  · exact ((hstands.selecting _ batch).extend (hkept _ hapart) hcalls hquiet).later hended
  · intro result hresult
    exact hapart result.1 (hresults ▸ List.mem_map_of_mem hresult)

theorem replayed (h : Circumstances p event b cast slot script) {scans last : Nat} {row : Record}
    (hdecode : p.codec.decode payload event.eventType = .ok event.payload)
    (htended : s.Tended p.consumer.config.ownerGroup)
    (hstands : p.Stands event payload slot script scans ⟨s, history⟩ row last)
    (hretrying : row.status = .retrying) :
    ∃ outcome s' asked next,
      (p.replay row).run cast.reply ⟨s, history⟩ = (.done (.ok outcome), ⟨s', history ++ asked⟩) ∧
      s'.Tended p.consumer.config.ownerGroup ∧
      (∀ key, row.key ≠ key → s'.find? key = s.find? key) ∧
      p.Stands event payload slot script (scans + 1) ⟨s', history ++ asked⟩ next (last + 1) ∧
      ∃ tried, p.consumer.Upshot event (script (last + 1)) (last + 1) (p.consumer.allowed event) next
        tried outcome := by
  have hkey := Store.key_of_find? hstands.found
  have hfind : s.find? row.key = some row := hkey ▸ hstands.found
  have hid : row.eventId = event.id := congrArg Key.eventId hkey
  obtain ⟨hretries, hfailed, hleft, hquiet⟩ := hstands.of_retrying hretrying
  obtain ⟨asked, s', progress, htreats, hgives⟩ := Replayer.gives_replay cast history h.rule
    (hid ▸ hkey) hfind hretrying (htended.lasting row (Store.mem_of_find? hfind))
  obtain ⟨other, hrebuild, halike⟩ := hstands.rebuild hdecode
  obtain rfl := hstands.waiting hretrying
  have htended' := htreats.tended htended hfind hretrying
  have hkept : ∀ key, row.key ≠ key → s'.find? key = s.find? key :=
    fun key hkey => htreats.find?_ne hkey
  cases htreats with
  | abandoned hnone => exact absurd (hrebuild.symm.trans hnone) nofun
  | redelivered hrebuilt htries =>
    obtain rfl := Except.ok.inj (hrebuild.symm.trans hrebuilt)
    obtain ⟨-, hloyal⟩ := Cast.loyal_cons.mp hgives.loyal
    have hattempt := h.attempt halike htries hloyal hstands.found hstands.type hstands.payload
      hstands.limit (hretries ▸ hleft) ?_ ?_ ?_
    · obtain ⟨next, outcome, rfl, hnext, hupshot⟩ := hattempt
      rw [hretries] at hnext hupshot
      rw [List.append_assoc, List.singleton_append] at hnext
      exact ⟨outcome, _, _, next, hgives, htended', hkept, hnext, _, hupshot⟩
    · intro k hk
      rw [hretries] at hk
      rcases Nat.lt_succ_iff_lt_or_eq.mp hk with hk | rfl
      · exact hstands.failed k hk
      · exact hfailed
    · rw [callsFor_append, hretries]
      exact (List.append_nil _).trans hstands.calls
    · rw [alarmsFor_append, hquiet]
      rfl

/-- **A scan makes the next attempt at an event that waits.** -/
theorem step_waiting (h : Circumstances p event b cast slot script) {scans last : Nat}
    {row : Record} (hdecode : p.codec.decode payload event.eventType = .ok event.payload)
    (htended : s.Tended p.consumer.config.ownerGroup)
    (hstands : p.Stands event payload slot script scans ⟨s, history⟩ row last)
    (hretrying : row.status = .retrying) {batch : Nat}
    (hselected : row ∈ s.due (cast.clock history) batch) :
    ∃ results scene' next outcome, p.Sweep cast batch ⟨s, history⟩ results scene' ∧
      scene'.store.Tended p.consumer.config.ownerGroup ∧
      p.Stands event payload slot script (scans + 1) scene' next (last + 1) ∧
      (row, outcome) ∈ results ∧
      ∃ tried, p.consumer.Upshot event (script (last + 1)) (last + 1) (p.consumer.allowed event) next
        tried outcome := by
  have hkey := Store.key_of_find? hstands.found
  have hkeys := htended.keys_due (cast.clock history) batch
  have hdue : ∀ r ∈ s.due (cast.clock history) batch, s.find? r.key = some r ∧
      r.status = .retrying ∧ r.key = p.consumer.key r.eventId := fun r hr => htended.of_due hr
  -- the scan comes to the row after earlier ones, and before later ones
  obtain ⟨earlier, later, hrows⟩ := List.append_of_mem hselected
  rw [hrows] at hkeys hdue
  obtain ⟨hearlier, hrest⟩ := List.forall_mem_append.mp hdue
  obtain ⟨-, hlater⟩ := List.forall_mem_cons.mp hrest
  obtain ⟨hearlierKeys, hlaterKeys, hbefore, hbehind, hapart⟩ := Record.keys_apart hkeys
  obtain ⟨results, s₁, asked₁, hresults, hrounds, htended₁, hkept₁, hcalls₁, hquiet₁⟩ :=
    h.rounds_apart hearlierKeys htended hearlier (hkey ▸ hbefore)
      (Scene.selecting ⟨s, history⟩ (cast.clock history) batch).history
  have hstands₁ := (hstands.selecting (cast.clock history) batch).extend
    (hkept₁ _ (hkey ▸ hbefore)) hcalls₁ hquiet₁
  obtain ⟨outcome, s₂, asked₂, next, hrun, htended₂, hkept₂, hstands₂, hupshot⟩ :=
    h.replayed hdecode htended₁ hstands₁ hretrying
  have hlater₂ : ∀ r ∈ later, s₂.find? r.key = some r ∧ r.status = .retrying ∧
      r.key = p.consumer.key r.eventId := by
    intro r hr
    obtain ⟨hfind, hknown⟩ := hlater r hr
    have hfirst : s₁.find? r.key = s.find? r.key := hkept₁ _ fun x hx => hapart x hx r hr
    exact ⟨(hkept₂ _ (hbehind r hr).symm).trans (hfirst.trans hfind), hknown⟩
  obtain ⟨results', s₃, asked₃, hresults', hrounds', htended₃, hkept₃, hcalls₃, hquiet₃⟩ :=
    h.rounds_apart hlaterKeys htended₂ hlater₂ (hkey ▸ hbehind) _
  refine ⟨results ++ (row, outcome) :: results', _, next, outcome, ⟨?_, ?_⟩, htended₃,
    hstands₂.extend (hkept₃ _ (hkey ▸ hbehind)) hcalls₃ hquiet₃, ?_, hupshot⟩
  · rw [List.map_append, List.map_cons, hresults, hresults', hrows]
  · exact hrounds.append (.cons hrun hrounds')
  · exact List.mem_append_right _ List.mem_cons_self

end Circumstances

/-! ### The whole life -/

/-- Where a life has come to after the first delivery and so many scans, each with its batch. -/
def Replayer.life (p : Replayer) (event : Event) (cast : Cast) (batch : Nat → Nat) (s : Store) :
    Nat → Scene
  | 0 => ((p.consumer.deliver event).run cast.reply ⟨s, []⟩).2
  | n + 1 => (p.run cast.reply (batch n) (p.life event cast batch s n)).2

section Script

variable {script : Nat → Verdict} {j : ℕ∞} {k : Nat}

theorem lt_of_failed (hsucceeds : ∀ k : Nat, j = k → script k = .ok)
    (hfailed : ∀ i ≤ k, script i ≠ .ok) : (k : ℕ∞) < j := by
  by_contra hle
  obtain ⟨i, rfl, hi⟩ := ENat.le_natCast_iff.mp (not_lt.mp hle)
  exact hfailed i hi (hsucceeds i rfl)

theorem eq_of_succeeded (hfails : ∀ k : Nat, (k : ℕ∞) < j → script k ≠ .ok)
    (hsucceeds : ∀ k : Nat, j = k → script k = .ok) (hfailed : ∀ i < k, script i ≠ .ok)
    (hok : script k = .ok) : j = k := by
  refine le_antisymm (not_lt.mp fun hlt => hfails k hlt hok) ?_
  by_contra hlt
  obtain ⟨i, rfl, hi⟩ := ENat.le_natCast_iff.mp (not_le.mp hlt).le
  have hlt : i < k := by exact_mod_cast not_le.mp hlt
  exact hfailed i hlt (hsucceeds i rfl)

end Script

/-- **What is reported of an attempt**, where `j` attempts fail before one succeeds and `m` retries
are allowed. -/
structure Consumer.Outcome.Reports (outcome : Outcome) (j : ℕ∞) (m attempt : Nat) : Prop where
  rescheduled : (attempt : ℕ∞) < min j m → ∃ t, outcome = .rescheduled (attempt + 1) t
  succeeded : j = attempt → j ≤ m → outcome = .succeeded
  failed : attempt = m → m < j → outcome = .failed

/-- **How a life goes**, where `j` attempts fail before one succeeds. -/
structure Replayer.Lives (p : Replayer) (event : Event) (slot : Nat) (script : Nat → Verdict)
    (j : ℕ∞) (scans : Nat) (scene : Scene) (row : Record) : Prop where
  found : scene.store.find? (p.consumer.key event.id) = some row
  called : ((callsFor event.id scene.history).length : ℕ∞) =
    min (min j (p.consumer.allowed event)) scans + 1
  played : callsFor event.id scene.history =
    played slot script (callsFor event.id scene.history).length
  waiting : (scans : ℕ∞) < min j (p.consumer.allowed event) →
    row.status = .retrying ∧ row.retryTimes = scans + 1 ∧ alarmsFor event.id scene.history = []
  succeeded : j ≤ scans → j ≤ p.consumer.allowed event →
    row.status = .success ∧ (row.retryTimes : ℕ∞) = j ∧ alarmsFor event.id scene.history = []
  failed : p.consumer.allowed event ≤ scans → p.consumer.allowed event < j →
    row.status = .failed ∧ row.retryTimes = p.consumer.allowed event ∧
      ∃ before consulted since other reason any,
        scene.history = before ++ consulted ++ since ∧ event.Alike other ∧
        (script (p.consumer.allowed event)).reason? = some reason ∧
        Escalation.Tells p.consumer.chain other row reason consulted (.done any) ∧
        alarmsFor event.id before = [] ∧ alarmsFor event.id since = []

section Life

variable {p : Replayer} {event : Event} {b : Backoff} {cast : Cast} {slot scans last : Nat}
  {script : Nat → Verdict} {payload : Bytes} {scene : Scene} {row : Record} {j : ℕ∞}

theorem failed_upto (hfailed : ∀ k < last, script k ≠ .ok) (hlast : script last ≠ .ok) :
    ∀ k ≤ last, script k ≠ .ok := by
  intro k hk
  rcases Nat.lt_or_eq_of_le hk with hk | rfl
  · exact hfailed k hk
  · exact hlast

theorem Consumer.Upshot.reports {c : Consumer} {asked : List Asked} {outcome : Consumer.Outcome}
    {m : Nat} (h : c.Upshot event (script last) last m row asked outcome)
    (hfailed : ∀ k < last, script k ≠ .ok) (hallowed : last ≤ m)
    (hfails : ∀ k : Nat, (k : ℕ∞) < j → script k ≠ .ok)
    (hsucceeds : ∀ k : Nat, j = k → script k = .ok) : outcome.Reports j m last := by
  cases h with
  | succeeded hverdict =>
    obtain rfl := eq_of_succeeded hfails hsucceeds hfailed hverdict
    refine ⟨fun hlt => ?_, fun _ _ => rfl, fun hm hlt => ?_⟩
    · exact absurd (hlt.trans_le (min_le_left _ _)) (lt_irrefl _)
    · exact absurd (hm ▸ hlt) (lt_irrefl _)
  | rescheduled hverdict hleft =>
    have hlt := lt_of_failed hsucceeds (failed_upto hfailed hverdict)
    exact ⟨fun _ => ⟨_, rfl⟩, fun hj => absurd (hj ▸ hlt) (lt_irrefl _), fun hm => by omega⟩
  | failed hreason hnone =>
    have hverdict := Verdict.ne_ok_of_reason hreason
    have hlt := lt_of_failed hsucceeds (failed_upto hfailed hverdict)
    obtain rfl := Nat.le_antisymm hallowed hnone
    refine ⟨fun hmin => ?_, fun hj => absurd (hj ▸ hlt) (lt_irrefl _), fun _ _ => rfl⟩
    exact absurd (hmin.trans_le (min_le_right _ _)) (lt_irrefl _)

theorem Replayer.Stands.lt_of_retrying
    (h : p.Stands event payload slot script scans scene row last)
    (hsucceeds : ∀ k : Nat, j = k → script k = .ok) (hretrying : row.status = .retrying) :
    (scans : ℕ∞) < min j (p.consumer.allowed event) := by
  obtain ⟨-, hverdict, hleft, -⟩ := Replayer.Stands.of_retrying h hretrying
  obtain rfl := h.waiting hretrying
  exact lt_min (lt_of_failed hsucceeds (failed_upto h.failed hverdict)) (Nat.cast_lt.mpr hleft)

theorem called_of_min {calls : List (Nat × Verdict)} {m : ℕ∞}
    (hcalls : calls = played slot script (last + 1)) (hmin : min m scans = last) :
    (calls.length : ℕ∞) = min m scans + 1 ∧ calls = played slot script calls.length := by
  have hlength : calls.length = last + 1 := by
    rw [hcalls, played, List.length_map, List.length_range]
  rw [hlength, hmin]
  exact ⟨rfl, hcalls⟩

theorem Replayer.Stands.lives (h : p.Stands event payload slot script scans scene row last)
    (hfails : ∀ k : Nat, (k : ℕ∞) < j → script k ≠ .ok)
    (hsucceeds : ∀ k : Nat, j = k → script k = .ok) :
    p.Lives event slot script j scans scene row := by
  have hbegun := h.begun
  have hallowed := h.allowed
  obtain ⟨before, tried, since, outcome, hhistory, hbefore, hsince, hupshot⟩ := h.attempt
  cases hupshot with
  | succeeded hverdict hstatus hretries hquiet =>
    obtain rfl := eq_of_succeeded hfails hsucceeds h.failed hverdict
    have hmin : min (min (last : ℕ∞) (p.consumer.allowed event)) scans = last := by
      rw [min_eq_left (Nat.cast_le.mpr hallowed), min_eq_left (Nat.cast_le.mpr hbegun)]
    have hsilent : alarmsFor event.id scene.history = [] := by
      rw [hhistory, alarmsFor_append, alarmsFor_append, hbefore, hquiet, hsince]
      rfl
    obtain ⟨hcalled, hplayed⟩ := called_of_min h.calls hmin
    refine ⟨h.found, hcalled, hplayed, fun hlt => ?_, fun _ _ => ⟨hstatus, ?_, hsilent⟩,
      fun _ hlt => ?_⟩
    · have hlt : scans < last := by exact_mod_cast hlt.trans_le (min_le_left _ _)
      exact absurd hbegun (Nat.not_le_of_lt hlt)
    · exact congrArg _ hretries
    · have hlt : p.consumer.allowed event < last := by exact_mod_cast hlt
      exact absurd hallowed (Nat.not_le_of_lt hlt)
  | rescheduled hverdict hleft hstatus hretries =>
    have hlt := h.lt_of_retrying hsucceeds hstatus
    obtain rfl := h.waiting hstatus
    have hmin := min_eq_right hlt.le
    obtain ⟨hcalled, hplayed⟩ := called_of_min h.calls hmin
    refine ⟨h.found, hcalled, hplayed, fun _ => ⟨hstatus, hretries, ?_⟩, fun hle => ?_, fun hle => ?_⟩
    · obtain ⟨-, -, -, hquiet⟩ := Replayer.Stands.of_retrying h hstatus
      exact hquiet
    · exact absurd (hlt.trans_le (min_le_left _ _)) (not_lt.mpr hle)
    · exact absurd hleft (Nat.not_lt_of_le hle)
  | @failed first consulted _ _ _ hreason hnone hstatus hretries halike hquiet htold =>
    have hverdict := Verdict.ne_ok_of_reason hreason
    have hlt := lt_of_failed hsucceeds (failed_upto h.failed hverdict)
    obtain rfl : last = p.consumer.allowed event := Nat.le_antisymm hallowed hnone
    have hmin : min (min j (p.consumer.allowed event)) (scans : ℕ∞) = p.consumer.allowed event := by
      rw [min_eq_right hlt.le, min_eq_left (Nat.cast_le.mpr hbegun)]
    obtain ⟨hcalled, hplayed⟩ := called_of_min h.calls hmin
    refine ⟨h.found, hcalled, hplayed, fun hless => ?_, fun _ hle => ?_, fun _ _ =>
      ⟨hstatus, hretries, before ++ first, consulted, since, _, _, _, ?_, halike, hreason, htold, ?_,
        hsince⟩⟩
    · have hless : scans < p.consumer.allowed event := by
        exact_mod_cast hless.trans_le (min_le_right _ _)
      exact absurd hbegun (Nat.not_le_of_lt hless)
    · exact absurd hlt (not_lt.mpr hle)
    · rw [hhistory, ← List.append_assoc]
    · rw [alarmsFor_append, hbefore, hquiet]
      rfl

namespace Circumstances

variable {s : Store} {batch : Nat → Nat}

/-- **A life stands at every scan**, if its row was selected as long as it waited. -/
theorem stands (h : Circumstances p event b cast slot script)
    (hpayload : p.consumer.codec.encode event.payload = .ok payload)
    (hdecode : p.codec.decode payload event.eventType = .ok event.payload)
    (htended : s.Tended p.consumer.config.ownerGroup)
    (hnew : s.find? (p.consumer.key event.id) = none) (n : Nat)
    (hselected : ∀ k < n, ∀ row, (p.life event cast batch s k).store.find?
      (p.consumer.key event.id) = some row → row.status = .retrying →
      row ∈ (p.life event cast batch s k).store.due
        (cast.clock (p.life event cast batch s k).history) (batch k)) :
    (p.life event cast batch s n).store.Tended p.consumer.config.ownerGroup ∧
      ∃ row last, p.Stands event payload slot script n (p.life event cast batch s n) row last := by
  induction n with
  | zero =>
    obtain ⟨outcome, scene, row, tried, hrun, htended, hstands, -⟩ := h.first hpayload htended hnew
    have hscene : p.life event cast batch s 0 = scene := congrArg Prod.snd hrun
    rw [hscene]
    exact ⟨htended, row, 0, hstands⟩
  | succ n ih =>
    obtain ⟨htended, row, last, hstands⟩ := ih fun k hk => hselected k (Nat.lt_succ_of_lt hk)
    by_cases hretrying : row.status = .retrying
    · obtain ⟨results, scene', next, outcome, hsweep, htended', hstands', -⟩ :=
        h.step_waiting hdecode htended hstands hretrying (hselected n (Nat.lt_succ_self n) row hstands.found hretrying)
      have hscene : p.life event cast batch s (n + 1) = scene' := congrArg Prod.snd hsweep.run
      rw [hscene]
      exact ⟨htended', next, _, hstands'⟩
    · obtain ⟨results, scene', hsweep, htended', hstands', -⟩ :=
        h.step_ended htended hstands hretrying (batch n)
      have hscene : p.life event cast batch s (n + 1) = scene' := congrArg Prod.snd hsweep.run
      rw [hscene]
      exact ⟨htended', row, _, hstands'⟩

/-- **The life of an event follows its script.**  Let a ledger of one owner group, whose rows last,
have no row for an event, and let a worker be alone with it: it delivers the event, and then carries
out one scan after the other, at whatever times.  While the row of the event waits, each scan comes
late enough and takes enough rows to select it.  Where `j` attempts fail before one succeeds, or
never does, and `m` retries are allowed, the handler is called `min j m + 1` times, and every scan
ends with a report.  The row waits with `1, 2, 3, …` retries, as each attempt reports; it ends as a
success after `j` retries and nobody is told, or as a failure after `m` retries and the escalation
handlers are asked once.  Every further scan leaves the row alone. -/
theorem life_follows_script (h : Circumstances p event b cast slot script)
    (htended : s.Tended p.consumer.config.ownerGroup)
    (hnew : s.find? (p.consumer.key event.id) = none)
    (hselected : ∀ n row, (p.life event cast batch s n).store.find? (p.consumer.key event.id) =
      some row → row.status = .retrying →
      row ∈ (p.life event cast batch s n).store.due
        (cast.clock (p.life event cast batch s n).history) (batch n))
    (hfails : ∀ k : Nat, (k : ℕ∞) < j → script k ≠ .ok)
    (hsucceeds : ∀ k : Nat, j = k → script k = .ok) :
    (∃ outcome, (p.consumer.deliver event).run cast.reply ⟨s, []⟩ =
        (.done (.ok outcome), p.life event cast batch s 0) ∧
      outcome.Reports j (p.consumer.allowed event) 0) ∧
    ∀ n : Nat, ∃ row results report,
      p.Lives event slot script j n (p.life event cast batch s n) row ∧
      p.run cast.reply (batch n) (p.life event cast batch s n) =
        (.done (.ok report), p.life event cast batch s (n + 1)) ∧
      p.Sweep cast (batch n) (p.life event cast batch s n) results
        (p.life event cast batch s (n + 1)) ∧
      ((n : ℕ∞) < min j (p.consumer.allowed event) → ∃ outcome, (row, outcome) ∈ results ∧
        outcome.Reports j (p.consumer.allowed event) (n + 1)) ∧
      (min j (p.consumer.allowed event) ≤ n →
        (p.life event cast batch s (n + 1)).store.find? (p.consumer.key event.id) = some row ∧
        ∀ result ∈ results, result.1.key ≠ p.consumer.key event.id) := by
  obtain ⟨payload, hpayload, hdecode⟩ := h.readable
  constructor
  · obtain ⟨outcome, scene, row, tried, hrun, -, -, hupshot⟩ := h.first hpayload htended hnew
    have hscene : p.life event cast batch s 0 = scene := congrArg Prod.snd hrun
    refine ⟨outcome, hscene ▸ hrun, ?_⟩
    exact hupshot.reports (fun k hk => absurd hk (Nat.not_lt_zero k)) (Nat.zero_le _) hfails hsucceeds
  · intro n
    obtain ⟨htended, row, last, hstands⟩ :=
      h.stands hpayload hdecode htended hnew n fun k _ => hselected k
    have hlives := hstands.lives hfails hsucceeds
    by_cases hretrying : row.status = .retrying
    · obtain ⟨results, scene', next, outcome, hsweep, -, hstands', hmem, tried, hupshot⟩ :=
        h.step_waiting hdecode htended hstands hretrying (hselected n row hstands.found hretrying)
      have hscene : p.life event cast batch s (n + 1) = scene' := congrArg Prod.snd hsweep.run
      obtain rfl := hstands.waiting hretrying
      refine ⟨row, results, _, hlives, hscene ▸ hsweep.run, hscene ▸ hsweep, fun _ =>
        ⟨outcome, hmem, hupshot.reports hstands'.failed hstands'.allowed hfails hsucceeds⟩,
        fun hend => ?_⟩
      exact absurd (hstands.lt_of_retrying hsucceeds hretrying) (not_lt.mpr hend)
    · obtain ⟨results, scene', hsweep, -, hstands', hapart⟩ :=
        h.step_ended htended hstands hretrying (batch n)
      have hscene : p.life event cast batch s (n + 1) = scene' := congrArg Prod.snd hsweep.run
      refine ⟨row, results, _, hlives, hscene ▸ hsweep.run, hscene ▸ hsweep, fun hlt => ?_, fun _ =>
        ⟨hscene ▸ hstands'.found, hapart⟩⟩
      exact absurd (hlives.waiting hlt).1 hretrying

end Circumstances

end Life

namespace Crew

/-- A replayer that plans retries at once, and has an escalation handler. -/
def porter : Replayer where
  config := {}
  consumer := { clerk 1 with rule := .backoff ⟨.zero, 2.0, .zero⟩, chain := [7] }
  codec := ⟨fun _ => .ok [], fun _ _ => .ok .null⟩

def stubborn : Cast :=
  .still fun _ => .failed "x"

def lifeOfParcel : Nat → Scene :=
  porter.life parcel stubborn (fun _ => 1) .empty

theorem circumstances_of_parcel :
    Circumstances porter parcel ⟨.zero, 2.0, .zero⟩ stubborn 0 fun _ => .failed "x" where
  rule := rfl
  multiplier := by decide
  limit := by decide
  readable := ⟨_, rfl, rfl⟩
  calm := Cast.calm_still _
  chosen := ⟨fun _ => true, rfl, fun _ _ _ _ => rfl⟩
  scripted _ _ _ _ := rfl

theorem tended_empty (group : String) : Store.empty.Tended group :=
  ⟨List.nodup_nil, List.forall_mem_nil _, List.forall_mem_nil _⟩

def delivered : Record :=
  { porter.consumer.created parcel parcel.payload.toBytes default .empty with
    version := 1, retryTimes := 1, message := some "x", nextRetryTime := some default }

theorem selected_parcel (n : Nat) (row : Record)
    (hfind : (lifeOfParcel n).store.find? (porter.consumer.key parcel.id) = some row)
    (hretrying : row.status = .retrying) :
    row ∈ (lifeOfParcel n).store.due (stubborn.clock (lifeOfParcel n).history) 1 := by
  induction n using Nat.strong_induction_on generalizing row with
  | _ n ih =>
    obtain ⟨-, other, last, hstands⟩ := circumstances_of_parcel.stands rfl rfl
      (tended_empty _) rfl n ih
    obtain rfl := Option.some.inj (hfind.symm.trans hstands.found)
    obtain ⟨-, -, hlast, -⟩ := Replayer.Stands.of_retrying hstands hretrying
    obtain rfl : n = 0 := (hstands.waiting hretrying).symm.trans (Nat.lt_one_iff.mp hlast)
    have hrows : (lifeOfParcel 0).store.rows = [delivered] := by decide +kernel
    have hdue : (lifeOfParcel 0).store.rows.filter (·.isDue default) = [delivered] := by
      rw [hrows]
      decide
    obtain rfl := List.mem_singleton.mp (hrows ▸ Store.mem_of_find? hfind)
    show _ ∈ (lifeOfParcel 0).store.due default 1
    rw [Store.due_of_pairwise 1 (hdue ▸ List.pairwise_singleton _ _), hdue]
    exact List.mem_singleton_self _

/-- An event whose handler never succeeds fails after its retry, and stays so. -/
theorem life_follows_script_failing : porter.consumer.allowed parcel = 1 ∧ ∀ n, 1 ≤ n → ∃ row,
    (lifeOfParcel n).store.find? (porter.consumer.key parcel.id) = some row ∧
    row.status = .failed ∧ row.retryTimes = 1 ∧
    (callsFor parcel.id (lifeOfParcel n).history).length = 2 := by
  refine ⟨rfl, fun n hn => ?_⟩
  obtain ⟨-, hlife⟩ := circumstances_of_parcel.life_follows_script (tended_empty _) rfl
    selected_parcel (j := ⊤) (fun k _ => nofun) (fun k hk => absurd hk.symm (ENat.natCast_ne_top k))
  obtain ⟨row, results, report, hlives, -⟩ := hlife n
  obtain ⟨hfailed, hretries, -⟩ := hlives.failed hn (ENat.natCast_lt_top _)
  refine ⟨row, hlives.found, hfailed, hretries, ?_⟩
  have hcalled := hlives.called
  have hle : ((porter.consumer.allowed parcel : Nat) : ℕ∞) ≤ n := Nat.cast_le.mpr hn
  rw [min_eq_right le_top, min_eq_left hle] at hcalled
  exact_mod_cast hcalled

end Crew

end EventRelay
