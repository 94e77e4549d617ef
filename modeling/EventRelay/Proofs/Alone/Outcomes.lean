import EventRelay.Proofs.Alone.Delivery
import EventRelay.Proofs.Crew.Reopening

/-!
# What deliveries alone come to

What holds of every line of the machine in `Alone/Delivery.lean`.  A delivery calls one handler at
most, and calls it for its event; it comes to an outcome that is neither a conflict nor an error,
unless user code panics where nobody contains that, or a delay cannot be reckoned; and it loses none
of the other rows.  `Consumer.delivery_refines_machine` puts this together with the machine itself.
-/

namespace EventRelay

open Work (Progress)

/-! ### Calls of handlers -/

structure Handling where
  slot : Nat
  event : Event
  verdict : Verdict

def Asked.handling? : Asked → Option Handling
  | ⟨.handle slot event, verdict⟩ => some ⟨slot, event, verdict⟩
  | _ => none

def handlings (asked : List Asked) : List Handling :=
  asked.filterMap Asked.handling?

@[simp] theorem handlings_append (asked asked' : List Asked) :
    handlings (asked ++ asked') = handlings asked ++ handlings asked' :=
  List.filterMap_append

theorem Picks.filterMap_eq_nil {α : Type} {f : Asked → Option α}
    {question : Nat → Except String Bool → Asked} {slots : List Nat} {asked : List Asked}
    {result : Except String (Option Nat)} (h : Picks question slots asked result)
    (hf : ∀ slot answer, f (question slot answer) = none) : asked.filterMap f = [] := by
  refine List.filterMap_eq_nil_iff.mpr fun x hx => ?_
  obtain ⟨slot, answer, rfl⟩ := h.question_of_mem hx
  exact hf slot answer

theorem Escalation.Tells.handlings {chain : List Nat} {event : Event} {stored : Record}
    {reason : String} {asked : List Asked} {told : Progress Bool}
    (h : Escalation.Tells chain event stored reason asked told) : handlings asked = [] := by
  cases h with
  | nobody hpicks | panicked hpicks => exact hpicks.filterMap_eq_nil fun _ _ => rfl
  | told hpicks =>
    rw [handlings_append]
    exact List.append_eq_nil_iff.mpr ⟨hpicks.filterMap_eq_nil fun _ _ => rfl, rfl⟩

/-- User code answers the questions that it is asked, and does not panic. -/
def Cast.Calm (cast : Cast) : Prop :=
  ∀ history slot text, (∀ event, cast history (.accepts slot event) ≠ .error text) ∧
    ∀ eventType, cast history (.supports slot eventType) ≠ .error text

theorem Escalation.Tells.done_of_calm {cast : Cast} {history : List Asked} {chain : List Nat}
    {event : Event} {stored : Record} {reason : String} {asked : List Asked} {told : Progress Bool}
    (h : Escalation.Tells chain event stored reason asked told) (hcalm : cast.Calm)
    (hloyal : cast.Loyal history asked) : ∃ any, told = .done any := by
  cases h with
  | nobody | told => exact ⟨_, rfl⟩
  | panicked hpicks =>
    obtain ⟨found, hfound⟩ := hpicks.exists_ok fun slot text hmem => by
      obtain ⟨before, hanswer⟩ := hloyal.of_mem hmem rfl
      exact (hcalm (history ++ before) slot text).2 event.eventType hanswer.symm
    cases hfound

theorem Picks.ne_error_of_calm {cast : Cast} {history : List Asked} {event : Event}
    {slots : List Nat} {asked : List Asked} {text : String} (hcalm : cast.Calm)
    (hloyal : cast.Loyal history asked) : ¬ Picks (acceptance event) slots asked (.error text) := by
  intro hpicks
  obtain ⟨found, hfound⟩ := hpicks.exists_ok fun slot text hmem => by
    obtain ⟨before, hanswer⟩ := hloyal.of_mem hmem rfl
    exact (hcalm (history ++ before) slot text).1 event hanswer.symm
  cases hfound

namespace Consumer

variable {c : Consumer} {event : Event} {b : Backoff} {s s' : Store} {again : Bool}
  {asked : List Asked} {row : Record} {final : Option Record}
  {progress : Progress (Except Error Outcome)}

/-! ### What a delivery asks for -/

theorem Enters.handlings {entry : Outcome ⊕ Record} (h : c.Enters event s again asked s' entry) :
    handlings asked = [] := by
  cases h <;> rfl

/-- **One handler is called at most**, and for the event. -/
theorem Tries.handlings (h : c.Tries event b row asked final progress) :
    handlings asked = [] ∨ ∃ slot verdict, handlings asked = [⟨slot, event, verdict⟩] := by
  cases h with
  | panicked hpicks => exact .inl (hpicks.filterMap_eq_nil fun _ _ => rfl)
  | unhandled hpicks =>
    rw [handlings_append]
    exact .inl (List.append_eq_nil_iff.mpr ⟨hpicks.filterMap_eq_nil fun _ _ => rfl, rfl⟩)
  | succeeded hpicks | rescheduled hpicks | unplanned hpicks =>
    rw [handlings_append, EventRelay.handlings, hpicks.filterMap_eq_nil fun _ _ => rfl]
    exact .inr ⟨_, _, rfl⟩
  | exhausted hpicks hreason hnone hnext htold =>
    rw [handlings_append, EventRelay.handlings, hpicks.filterMap_eq_nil fun _ _ => rfl]
    refine .inr ⟨_, _, congrArg (_ :: ·) ?_⟩
    exact List.filterMap_append.trans htold.handlings

theorem Delivers.handlings (h : c.Delivers event b s again asked s' progress) :
    handlings asked = [] ∨ ∃ slot verdict, handlings asked = [⟨slot, event, verdict⟩] := by
  cases h with
  | ended h => exact .inl h.handlings
  | tried h htries =>
    rw [handlings_append, h.handlings]
    exact htries.handlings

/-! ### What it comes to -/

theorem Tries.progress_cases (h : c.Tries event b row asked final progress) :
    (∃ outcome, progress = .done (.ok outcome) ∧ outcome ≠ .conflict) ∨
      ∃ text, progress = .crashed text := by
  cases h with
  | panicked | unplanned => exact .inr ⟨_, rfl⟩
  | unhandled | succeeded | rescheduled => exact .inl ⟨_, rfl, nofun⟩
  | exhausted _ _ _ _ htold =>
    cases htold with
    | nobody | told => exact .inl ⟨_, rfl, nofun⟩
    | panicked => exact .inr ⟨_, rfl⟩

theorem Delivers.progress_cases (h : c.Delivers event b s again asked s' progress) :
    (∃ outcome, progress = .done (.ok outcome) ∧ outcome ≠ .conflict) ∨
      ∃ text, progress = .crashed text := by
  cases h with
  | ended h => exact .inl ⟨_, rfl, by cases h <;> nofun⟩
  | tried _ htries => exact htries.progress_cases

theorem Tries.not_crashed {cast : Cast} {history : List Asked} {text : String}
    (hmultiplier : ¬ b.multiplier < 0.0) (hcalm : cast.Calm) (hloyal : cast.Loyal history asked) :
    ¬ c.Tries event b row asked final (.crashed text) := by
  intro h
  generalize hprogress : (.crashed text : Progress (Except Error Outcome)) = progress at h
  cases h with
  | panicked hpicks => exact Picks.ne_error_of_calm hcalm hloyal hpicks
  | unhandled | succeeded | rescheduled => cases hprogress
  | @unplanned asked slot verdict reason planned fault _ _ _ htime =>
    obtain ⟨t, ht⟩ := b.time_ok hmultiplier planned (row.retryTimes + 1)
    exact absurd (htime.symm.trans ht) nofun
  | exhausted hpicks hreason hnone hnext htold =>
    have hloyal := (Cast.loyal_append.mp (Cast.loyal_cons.mp (Cast.loyal_append.mp hloyal).2).2).2
    obtain ⟨any, rfl⟩ := htold.done_of_calm hcalm hloyal
    cases hprogress

/-- **Deliveries come to an outcome.** -/
theorem Delivers.exists_outcome {cast : Cast} {history : List Asked}
    (h : c.Delivers event b s again asked s' progress) (hmultiplier : ¬ b.multiplier < 0.0)
    (hcalm : cast.Calm) (hloyal : cast.Loyal history asked) :
    ∃ outcome, progress = .done (.ok outcome) ∧ outcome ≠ .conflict := by
  refine h.progress_cases.resolve_right fun ⟨text, htext⟩ => ?_
  cases h with
  | ended => cases htext
  | tried _ htries =>
    subst htext
    exact Tries.not_crashed hmultiplier hcalm (Cast.loyal_append.mp hloyal).2 htries

/-! ### Other rows -/

theorem Tries.final_key (h : c.Tries event b row asked final progress) :
    ∀ next, final = some next → next.key = row.key := by
  intro next hfinal
  cases h with
  | panicked | unplanned => cases hfinal
  | unhandled _ hnext | succeeded _ _ hnext | rescheduled _ _ _ _ hnext
  | exhausted _ _ _ hnext =>
    subst hnext
    cases hfinal
    rfl

theorem Tries.find?_settled (h : c.Tries event b row asked final progress) {key : Key}
    (hkey : row.key ≠ key) : (s.settled final).find? key = s.find? key := by
  cases hfinal : final with
  | none => rfl
  | some next => exact Store.find?_replace_of_ne (h.final_key next hfinal ▸ hkey)

/-- **Other rows are not lost**, where nobody has taken the key of the marker. -/
theorem Enters.kept {entry : Outcome ⊕ Record} (h : c.Enters event s again asked s' entry)
    (hmarked : ∀ old gone, s.find? (c.key event.id) = some old →
      s.find? (old.deleted gone).key = none)
    {key : Key} (hkey : key ≠ c.key event.id) {other : Record} (hother : s.find? key = some other) :
    s'.find? key = some other := by
  cases h with
  | missing | skipped | resumed => exact hother
  | founded => exact (Store.find?_append ..).trans (by rw [hother]; rfl)
  | claimed lease now hfind =>
    rw [Store.find?_replace_of_ne ?_, hother]
    exact Store.key_of_find? hfind ▸ hkey.symm
  | @reopened old payload gone now hfind =>
    refine (Store.find?_append ..).trans ?_
    have hfree : (old.deleted gone).revised.key ≠ key := by
      rintro rfl
      exact absurd (hother.symm.trans (hmarked old gone hfind)) nofun
    have hold : old.key ≠ key := Store.key_of_find? hfind ▸ hkey.symm
    rw [show Store.find? _ key = some other by
      rw [Store.find?_refile, if_neg hfree, if_neg hold, hother]]
    rfl

theorem Enters.row_key (h : c.Enters event s again asked s' (.inr row)) :
    row.key = c.key event.id := by
  cases h with
  | founded | reopened => rfl
  | @claimed _ old lease now hfind =>
    show old.key = _
    exact Store.key_of_find? hfind
  | resumed hfind => exact Store.key_of_find? hfind

theorem Delivers.kept (h : c.Delivers event b s again asked s' progress)
    (hmarked : ∀ old gone, s.find? (c.key event.id) = some old →
      s.find? (old.deleted gone).key = none)
    {key : Key} (hkey : key ≠ c.key event.id) {other : Record} (hother : s.find? key = some other) :
    s'.find? key = some other := by
  cases h with
  | ended h => exact h.kept hmarked hkey hother
  | tried h htries =>
    rw [htries.find?_settled (h.row_key ▸ hkey.symm)]
    exact h.kept hmarked hkey hother

/-! ### New rows -/

/-- **A first delivery tries a new row** if none is found for the event, or one that has failed. -/
theorem Delivers.of_fresh (h : c.Delivers event b s false asked s' progress)
    (hfresh : ∀ old, s.find? (c.key event.id) = some old → old.status = .failed) :
    ∃ entered opened tried row final, asked = entered ++ tried ∧
      c.Enters event s false entered opened (.inr row) ∧ row.retryTimes = 0 ∧
      row.maxRetryTimes = event.maxRetryOverride.getD c.config.defaultMaxRetries ∧
      c.Tries event b row tried final progress := by
  cases h with
  | ended h =>
    cases h with
    | skipped hfind hstatus hpast =>
      obtain rfl := hstatus.symm.trans (hfresh _ hfind)
      rcases hpast with hsuccess | ⟨-, hagain⟩ | ⟨hretrying, -⟩
      · cases hsuccess
      · cases hagain
      · cases hretrying
  | tried h htries =>
    cases h with
    | founded now hfree hpayload =>
      exact ⟨_, _, _, _, _, rfl, .founded now hfree hpayload, rfl, rfl, htries⟩
    | reopened gone now hfind hfailed hpayload =>
      exact ⟨_, _, _, _, _, rfl, .reopened gone now hfind hfailed hpayload, rfl, rfl, htries⟩
    | claimed lease now hfind hcreated => exact absurd (hcreated.symm.trans (hfresh _ hfind)) nofun

/-! ### The refinement -/

/-- **Deliveries refine the machine.**  Let a worker be alone with a ledger that does not fail, where
the version of the event's row can be counted up and nobody has taken the key of its marker.  With
exponential backoff, whatever the clock shows and the handlers do, a first delivery and a later one
run as the machine does on what the surroundings answer.  Where no row is found, or one that has
failed, the first delivery tries a row without retries, which may have as many as the event allows, or
else the configuration.  Deliveries come to neither a conflict nor an error and never stall, one
handler is called at most, and for the event, and every other row is found as before.  Where the
questions to user code are answered without a panic, and the multiplier is not negative, they end with
an outcome. -/
theorem delivery_refines_machine {payload : Bytes} (again : Bool) (cast : Cast)
    (history : List Asked) (hrule : c.rule = .backoff b)
    (hpayload : c.codec.encode event.payload = .ok payload)
    (hlimit : event.maxRetries c.config.defaultMaxRetries ≤ greatestNat32)
    (hroom : ∀ row, s.find? (c.key event.id) = some row → row.HasRoom)
    (hmarked : ∀ row gone, s.find? (c.key event.id) = some row →
      s.find? (row.deleted gone).key = none) :
    ∃ asked s' progress,
      (c.delivery event again).run cast.reply ⟨s, history⟩ = (progress, ⟨s', history ++ asked⟩) ∧
      cast.Loyal history asked ∧ c.Delivers event b s again asked s' progress ∧
      (again = false → (∀ old, s.find? (c.key event.id) = some old → old.status = .failed) →
        ∃ entered opened tried row final, asked = entered ++ tried ∧
          c.Enters event s false entered opened (.inr row) ∧ row.retryTimes = 0 ∧
          row.maxRetryTimes = event.maxRetryOverride.getD c.config.defaultMaxRetries ∧
          c.Tries event b row tried final progress) ∧
      ((∃ outcome, progress = .done (.ok outcome) ∧ outcome ≠ .conflict) ∨
        ∃ text, progress = .crashed text) ∧
      (cast.Calm → ¬ b.multiplier < 0.0 → ∃ outcome, progress = .done (.ok outcome)) ∧
      (handlings asked).length ≤ 1 ∧ (∀ call ∈ handlings asked, call.event = event) ∧
      ∀ key, key ≠ c.key event.id → ∀ other, s.find? key = some other →
        s'.find? key = some other := by
  obtain ⟨asked, s', progress, hdelivers, hgives⟩ :=
    gives_delivery cast history again hrule hpayload hroom hlimit
  refine ⟨asked, s', progress, hgives, hgives.loyal, hdelivers, ?_, hdelivers.progress_cases, ?_, ?_,
    ?_, ?_⟩
  · rintro rfl hfresh
    exact hdelivers.of_fresh hfresh
  · intro hcalm hmultiplier
    obtain ⟨outcome, houtcome, -⟩ := hdelivers.exists_outcome hmultiplier hcalm hgives.loyal
    exact ⟨outcome, houtcome⟩
  · rcases hdelivers.handlings with hnone | ⟨slot, verdict, hone⟩
    · rw [hnone]
      exact Nat.zero_le 1
    · rw [hone]
      exact Nat.le_refl 1
  · intro call hcall
    rcases hdelivers.handlings with hnone | ⟨slot, verdict, hone⟩
    · rw [hnone] at hcall
      cases hcall
    · rw [hone] at hcall
      rw [List.mem_singleton.mp hcall]
  · exact fun key hkey other hother => hdelivers.kept hmarked hkey hother

end Consumer

/-! ### A small scene -/

/-- Surroundings in which time stands still, and handlers say what a script tells them to. -/
def Cast.still (script : Nat → Verdict) : Cast
  | history, .handle _ _ => script (handlings history).length
  | _, request => request.answer

theorem Cast.calm_still (script : Nat → Verdict) : (Cast.still script).Calm :=
  fun _ _ _ => ⟨fun _ => nofun, fun _ => nofun⟩

/-- One second before the first retry, and twice as long before each further one. -/
def Crew.doubling : Backoff :=
  ⟨.ofSeconds 1, 2.0, .ofSeconds 60⟩

/-- A consumer with one handler and exponential backoff, which allows so many retries. -/
def Crew.keeper (retries : Nat) : Consumer :=
  { clerk retries with rule := .backoff doubling }

def Consumer.retry? : Progress (Except Error Outcome) → Option (Nat × Instant)
  | .done (.ok (.rescheduled retryTimes t)) => some (retryTimes, t)
  | _ => none

theorem Consumer.eq_of_retry? {progress : Progress (Except Error Outcome)} {n : Nat} {t : Instant}
    (h : retry? progress = some (n, t)) : progress = .done (.ok (.rescheduled n t)) := by
  unfold retry? at h
  split at h
  · cases h
    rfl
  · cases h

/-- The row of another event that waits for a retry. -/
def Crew.bystander : Record :=
  { lapsed with id := 2, eventId := "f", status := .retrying, nextRetryTime := some default }

/-- A failed row is opened again, the new one is tried and put off for a second, and the row of another
event stays. -/
theorem Consumer.delivery_refines_machine_reopened :
    ∃ entered opened tried row final s',
      ((Crew.keeper 3).deliver Crew.parcel).run (Cast.still fun _ => .failed "x").reply
          ⟨⟨[Crew.lapsed, Crew.bystander], 2⟩, []⟩ =
        (.done (.ok (.rescheduled 1 ⟨1, 0⟩)), ⟨s', entered ++ tried⟩) ∧
      (Crew.keeper 3).Enters Crew.parcel ⟨[Crew.lapsed, Crew.bystander], 2⟩ false entered opened
        (.inr row) ∧ row.retryTimes = 0 ∧ row.maxRetryTimes = 3 ∧
      (Crew.keeper 3).Tries Crew.parcel Crew.doubling row tried final
        (.done (.ok (.rescheduled 1 ⟨1, 0⟩))) ∧
      (handlings (entered ++ tried)).length ≤ 1 ∧
      s'.find? Crew.bystander.key = some Crew.bystander := by
  have hfind : ∀ row, Store.find? ⟨[Crew.lapsed, Crew.bystander], 2⟩
      ((Crew.keeper 3).key Crew.parcel.id) = some row → row = Crew.lapsed := fun row hrow =>
    Option.some.inj (hrow.symm.trans (by decide))
  obtain ⟨asked, s', progress, hrun, -, -, hfresh, -, houtcome, honce, -, hkept⟩ :=
    delivery_refines_machine false (Cast.still fun _ => .failed "x") [] rfl rfl (by decide)
      (fun row hrow => hfind row hrow ▸ ⟨by decide, by decide, by decide⟩) fun row gone hrow => by
        obtain rfl := hfind row hrow
        show Store.find? _ (Crew.lapsed.deleted default).key = none
        decide
  obtain ⟨outcome, rfl⟩ := houtcome (Cast.calm_still _) (by decide)
  have hretry : retry? (((Crew.keeper 3).deliver Crew.parcel).run
      (Cast.still fun _ => .failed "x").reply ⟨⟨[Crew.lapsed, Crew.bystander], 2⟩, []⟩).1 =
        some (1, ⟨1, 0⟩) := by
    decide +kernel
  rw [show ((Crew.keeper 3).deliver Crew.parcel).run _ _ = _ from hrun] at hretry
  cases eq_of_retry? hretry
  obtain ⟨entered, opened, tried, row, final, rfl, henters, hnone, hlimit, htries⟩ :=
    hfresh rfl fun old hold => hfind old hold ▸ rfl
  exact ⟨entered, opened, tried, row, final, s', hrun, henters, hnone, hlimit, htries, honce,
    hkept _ (by decide) _ (by decide)⟩

end EventRelay
