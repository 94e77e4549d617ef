import EventRelay.Proofs.WorkUnit.Account

/-!
# What the callers of a unit of work are told

A call tells its caller how things stood when it got at the unit.  A record is told whether the unit
had been ended, whoever asks for the state how many events were held back, and a commit looks at the
mark after it has ended the unit: a mark that is set in between still counts.  If each call waits for
the ones before it, nothing is in between, and a commit that ends the unit publishes exactly if no
earlier call has set the mark (`Callers.Run.publishes_iff`).
-/

namespace EventRelay.Callers

variable {p : Producer} {log : List Entry} {callers callers' : Callers} {entry : Entry}

/-! ### What a step sees -/

theorem Run.record_step (hrun : Run p {} log callers) :
    Throughout (fun before entry => ∀ i event stage stage',
      entry = .moved i (.record event) stage stage' →
      stage = .made ∧
        stage' = .ended (if completed before then .refused .completed else .recorded)) log := by
  refine hrun.throughout fun log callers entry callers' prior hstep i event stage stage' hentry => ?_
  subst hentry
  cases hstep with
  | @moved u next calls _ _ _ _ hcall h =>
    obtain rfl : u = left log := prior.unit_eq
    cases h with
    | recorded h =>
      have hopen : completed log = false := (WorkUnit.record_eq_ok.mp h).1
      simp [hopen]
    | barred h =>
      obtain ⟨hover, rfl⟩ := WorkUnit.record_eq_error.mp h
      have hover' : completed log = true := hover
      simp [hover']

theorem Run.state_step (hrun : Run p {} log callers) :
    Throughout (fun before entry => ∀ i stage, entry = .moved i .state .made stage →
      stage = .counted (if completed before then [] else accepted before)) log := by
  refine hrun.throughout fun log callers entry callers' prior hstep i stage hentry => ?_
  subst hentry
  cases hstep with
  | @moved u next calls _ _ _ _ hcall h =>
    obtain rfl : u = left log := prior.unit_eq
    cases h with
    | counted => rfl

theorem Run.commit_step (hrun : Run p {} log callers) :
    Throughout (fun before entry => ∀ i events stage,
      entry = .moved i .commit (.holding events) stage →
      stage = if marked before then .ended (.refused (.rollbackOnly events.length))
        else .publishing (p.publishAll events)) log := by
  refine hrun.throughout fun log callers entry callers' prior hstep i events stage hentry => ?_
  subst hentry
  cases hstep with
  | @moved u next calls _ _ _ _ hcall h =>
    obtain rfl : u = left log := prior.unit_eq
    cases h with
    | doomed h =>
      have hmark : marked log = true := h
      simp [hmark]
    | sound h =>
      have hmark : marked log = false := h
      simp [hmark]

/-! ### Where a call stands -/

/-- What a caller knows of the events held back. -/
def knownPending? : UnitCall.Stage → Option (List Event)
  | .counted pending | .seen pending _ => some pending
  | .ended (.state u) => some u.pending
  | _ => none

theorem Step.came (h : Step p callers entry callers') {i : Nat} {call : UnitCall}
    {stage : UnitCall.Stage} (hcall : callers'.calls[i]? = some (call, stage)) :
    callers.calls[i]? = some (call, stage) ∨
      (stage = .made ∧ i = callers.calls.length ∧ entry = .made call) ∨
      (∃ stage', callers.calls[i]? = some (call, stage') ∧ entry = .moved i call stage' stage) ∨
      ∃ request next reply, callers.calls[i]? = some (.commit, .publishing (.ask request next)) ∧
        call = .commit ∧ stage = .publishing (next reply) ∧ entry = .asked i ⟨request, reply⟩ := by
  cases h with
  | @made u calls other =>
    rcases Nat.lt_or_ge i calls.length with hi | hi
    · exact .inl ((List.getElem?_append_left hi).symm.trans hcall)
    · rw [List.getElem?_append_right hi, List.getElem?_singleton] at hcall
      split at hcall
      next hlast =>
        cases hcall
        exact .inr (.inl ⟨rfl, Nat.le_antisymm (Nat.le_of_sub_eq_zero hlast) hi, rfl⟩)
      next => cases hcall
  | @moved u next calls j other stage₁ stage₂ hother h =>
    rcases getElem?_set_cases hcall with ⟨rfl, heq⟩ | ⟨-, hold⟩
    · cases heq
      exact .inr (.inr (.inl ⟨stage₁, hother, rfl⟩))
    · exact .inl hold
  | @asked u calls j request next hother reply =>
    rcases getElem?_set_cases hcall with ⟨rfl, heq⟩ | ⟨-, hold⟩
    · cases heq
      exact .inr (.inr (.inr ⟨request, next, reply, hother, rfl, rfl, rfl⟩))
    · exact .inl hold

theorem Run.answered (hrun : Run p {} log callers) {i : Nat} {call : UnitCall} {reply : UnitReply}
    (hcall : callers.calls[i]? = some (call, .ended reply)) :
    ∃ stage, Entry.moved i call stage (.ended reply) ∈ log := by
  induction hrun with
  | start => cases hcall
  | step prior h ih =>
    rcases h.came hcall with hold | ⟨hmade, -⟩ | ⟨stage, -, rfl⟩ | ⟨_, _, _, -, -, hstage, -⟩
    · obtain ⟨stage, hmem⟩ := ih hold
      exact ⟨stage, List.mem_append_left _ hmem⟩
    · cases hmade
    · exact ⟨stage, by simp⟩
    · cases hstage

theorem Run.pending_seen (hrun : Run p {} log callers) {i : Nat} {stage : UnitCall.Stage}
    {pending : List Event} (hcall : callers.calls[i]? = some (.state, stage))
    (hknown : knownPending? stage = some pending) :
    Entry.moved i .state .made (.counted pending) ∈ log := by
  induction hrun generalizing stage with
  | start => cases hcall
  | step prior h ih =>
    rcases h.came hcall with hold | ⟨rfl, -⟩ | ⟨stage', hold, rfl⟩ | ⟨_, _, _, -, hcommit, -⟩
    · exact List.mem_append_left _ (ih hold hknown)
    · cases hknown
    · cases h with
      | moved _ h =>
        cases h with
        | counted =>
          cases hknown
          simp
        | seen => exact List.mem_append_left _ (ih hold hknown)
        | told => exact List.mem_append_left _ (ih hold hknown)
    · cases hcommit

/-! ### Calls one after the other -/

namespace Entry

def made? : Entry → Option UnitCall
  | .made call => some call
  | _ => none

def answered? : Entry → Option Nat
  | .moved i _ _ (.ended _) => some i
  | _ => none

end Entry

/-- Each call is made when all calls before it have been answered. -/
def OneByOne (log : List Entry) : Prop :=
  Throughout (fun before entry => entry.made?.isSome →
    ∀ i < (before.filterMap Entry.made?).length, i ∈ before.filterMap Entry.answered?) log

theorem Step.kept (h : Step p callers entry callers') {i : Nat} {call : UnitCall}
    {reply : UnitReply} (hcall : callers.calls[i]? = some (call, .ended reply)) :
    callers'.calls[i]? = some (call, .ended reply) := by
  have hlt := (List.getElem?_eq_some_iff.mp hcall).1
  cases h with
  | made other => exact (List.getElem?_append_left hlt).trans hcall
  | @moved u next calls j other stage stage' hother h =>
    have hij : j ≠ i := by
      rintro rfl
      rw [hcall] at hother
      cases hother
      cases h
    exact (List.getElem?_set_ne hij).trans hcall
  | @asked u calls j request next hother reply =>
    have hij : j ≠ i := by
      rintro rfl
      rw [hcall] at hother
      cases hother
    exact (List.getElem?_set_ne hij).trans hcall

theorem Run.length_calls (hrun : Run p {} log callers) :
    (log.filterMap Entry.made?).length = callers.calls.length := by
  induction hrun with
  | start => rfl
  | step prior h ih => cases h <;> simp [ih, Entry.made?]

theorem Run.ended_of_answered (hrun : Run p {} log callers) {i : Nat}
    (hi : i ∈ log.filterMap Entry.answered?) :
    ∃ call reply, callers.calls[i]? = some (call, .ended reply) := by
  induction hrun with
  | start => cases hi
  | @step log callers callers' entry prior h ih =>
    rw [List.filterMap_append, List.mem_append] at hi
    rcases hi with hi | hi
    · obtain ⟨call, reply, hcall⟩ := ih hi
      exact ⟨call, reply, h.kept hcall⟩
    · cases h with
      | made call => simp [Entry.answered?] at hi
      | asked hcall reply => simp [Entry.answered?] at hi
      | @moved u next calls j call stage stage' hcall h =>
        have hlt := (List.getElem?_eq_some_iff.mp hcall).1
        cases stage' <;> simp [Entry.answered?] at hi
        subst hi
        exact ⟨call, _, List.getElem?_set_self hlt⟩

theorem Run.marked_iff (hrun : Run p {} log callers) :
    marked log = true ↔
      ∃ (i : Nat) (reply : UnitReply),
        callers.calls[i]? = some (.setRollbackOnly, .ended reply) := by
  induction hrun with
  | start =>
    refine ⟨fun h => (by cases h), ?_⟩
    rintro ⟨i, reply, hcall⟩
    cases hcall
  | @step log callers callers' entry prior h ih =>
    rw [marked_concat, Bool.or_eq_true]
    constructor
    · rintro (hold | hnew)
      · obtain ⟨i, reply, hcall⟩ := ih.mp hold
        exact ⟨i, reply, h.kept hcall⟩
      · cases h with
        | made call => cases hnew
        | asked hcall reply => cases hnew
        | @moved u next calls i call stage stage' hcall h =>
          have hlt := (List.getElem?_eq_some_iff.mp hcall).1
          cases h <;> cases hnew
          exact ⟨i, .marked, List.getElem?_set_self hlt⟩
    · rintro ⟨i, reply, hcall⟩
      rcases h.came hcall with hold | ⟨hmade, -⟩ | ⟨stage, -, rfl⟩ | ⟨_, _, _, -, hcommit, -⟩
      · exact .inl (ih.mpr ⟨i, reply, hold⟩)
      · cases hmade
      · exact .inr rfl
      · cases hcommit

/-- A call before that of a caller is to set the mark. -/
def MarkedBefore (callers : Callers) (i : Nat) : Prop :=
  ∃ j < i, ∃ stage, callers.calls[j]? = some (.setRollbackOnly, stage)

theorem Step.markedBefore_iff (h : Step p callers entry callers') {i : Nat} {call : UnitCall}
    {stage : UnitCall.Stage} (hcaller : callers.calls[i]? = some (call, stage)) :
    callers'.MarkedBefore i ↔ callers.MarkedBefore i := by
  have hi := (List.getElem?_eq_some_iff.mp hcaller).1
  constructor
  · rintro ⟨j, hj, stage, hcall⟩
    rcases h.came hcall with hold | ⟨-, rfl, -⟩ | ⟨stage', hold, -⟩ | ⟨_, _, _, -, hcommit, -⟩
    · exact ⟨j, hj, stage, hold⟩
    · exact absurd (Nat.lt_trans hj hi) (Nat.lt_irrefl _)
    · exact ⟨j, hj, stage', hold⟩
    · cases hcommit
  · rintro ⟨j, hj, stage, hcall⟩
    have hlt := (List.getElem?_eq_some_iff.mp hcall).1
    cases h with
    | made other => exact ⟨j, hj, stage, (List.getElem?_append_left hlt).trans hcall⟩
    | @moved u next calls k other stage₁ stage₂ hother h =>
      by_cases hk : k = j
      · subst hk
        rw [hcall] at hother
        cases hother
        exact ⟨k, hj, stage₂, List.getElem?_set_self hlt⟩
      · exact ⟨j, hj, stage, (List.getElem?_set_ne hk).trans hcall⟩
    | @asked u calls k request next hother reply =>
      have hk : k ≠ j := by
        rintro rfl
        rw [hcall] at hother
        cases hother
      exact ⟨j, hj, stage, (List.getElem?_set_ne hk).trans hcall⟩

/-- A commit has found that it may publish. -/
def Publishes : UnitCall.Stage → Prop
  | .publishing _ | .ended (.published _) => True
  | _ => False

/-- A commit has found the mark. -/
def Dooms : UnitCall.Stage → Prop
  | .ended (.refused (.rollbackOnly _)) => True
  | _ => False

/-- How calls stand that were made one after the other: all but the last one have been answered, and
commits have found the mark exactly if a call before them has set it. -/
structure Ordered (callers : Callers) : Prop where
  answered : ∀ i call stage, i + 1 < callers.calls.length →
    callers.calls[i]? = some (call, stage) → ∃ reply, stage = .ended reply
  publishes : ∀ i stage, callers.calls[i]? = some (.commit, stage) → Publishes stage →
    ¬ callers.MarkedBefore i
  dooms : ∀ i stage, callers.calls[i]? = some (.commit, stage) → Dooms stage →
    callers.MarkedBefore i

theorem Ordered.last (h : Ordered callers) {i : Nat} {call : UnitCall} {stage stage' : UnitCall.Stage}
    {u next : WorkUnit} (hcall : callers.calls[i]? = some (call, stage))
    (hmoves : call.Moves p u stage stage' next) : i + 1 = callers.calls.length := by
  have hlt := (List.getElem?_eq_some_iff.mp hcall).1
  by_contra hne
  obtain ⟨reply, rfl⟩ := h.answered i call stage (by omega) hcall
  cases hmoves

theorem Ordered.markedBefore_iff (h : Ordered callers) (hrun : Run p {} log callers) {i : Nat}
    {events : List Event} (hcall : callers.calls[i]? = some (.commit, .holding events)) :
    callers.MarkedBefore i ↔ marked log = true := by
  have hlt := (List.getElem?_eq_some_iff.mp hcall).1
  rw [hrun.marked_iff]
  constructor
  · rintro ⟨j, hj, stage, hmark⟩
    obtain ⟨reply, rfl⟩ := h.answered j _ stage (by omega) hmark
    exact ⟨j, reply, hmark⟩
  · rintro ⟨j, reply, hmark⟩
    have hlt' := (List.getElem?_eq_some_iff.mp hmark).1
    refine ⟨j, ?_, _, hmark⟩
    by_contra hj
    rcases Nat.lt_or_eq_of_le (Nat.not_lt.mp hj) with hij | rfl
    · obtain ⟨_, hstage⟩ := h.answered i _ _ (by omega) hcall
      cases hstage
    · rw [hcall] at hmark
      cases hmark

theorem Ordered.answered_step (h : Ordered callers) (hstep : Step p callers entry callers')
    (hmade : entry.made?.isSome → ∀ i < callers.calls.length,
      ∃ call reply, callers.calls[i]? = some (call, .ended reply))
    (i : Nat) (call : UnitCall) (stage : UnitCall.Stage) (hi : i + 1 < callers'.calls.length)
    (hcall : callers'.calls[i]? = some (call, stage)) : ∃ reply, stage = .ended reply := by
  cases hstep with
  | @made u calls other =>
    have hi' : i < calls.length := by
      simp only [List.length_append, List.length_singleton] at hi
      omega
    obtain ⟨call', reply, hended⟩ := hmade rfl i hi'
    rw [List.getElem?_append_left hi'] at hcall
    cases hended.symm.trans hcall
    exact ⟨reply, rfl⟩
  | @moved u next calls j other stage₁ stage₂ hother hmoves =>
    have hlast := h.last hother hmoves
    rw [List.length_set] at hi
    rcases getElem?_set_cases hcall with ⟨rfl, -⟩ | ⟨-, hold⟩
    · dsimp only at hlast
      omega
    · exact h.answered i call stage hi hold
  | @asked u calls j request next hother reply =>
    rw [List.length_set] at hi
    rcases getElem?_set_cases hcall with ⟨rfl, -⟩ | ⟨-, hold⟩
    · obtain ⟨_, hstage⟩ := h.answered j _ _ hi hother
      cases hstage
    · exact h.answered i call stage hi hold

theorem Ordered.step (h : Ordered callers) (hrun : Run p {} log callers)
    (hstep : Step p callers entry callers')
    (hmade : entry.made?.isSome → ∀ i < callers.calls.length,
      ∃ call reply, callers.calls[i]? = some (call, .ended reply)) : Ordered callers' := by
  refine ⟨h.answered_step hstep hmade, fun i stage hcall hpublishes => ?_,
    fun i stage hcall hdooms => ?_⟩
  · rcases hstep.came hcall with hold | ⟨rfl, -⟩ | ⟨stage', hold, rfl⟩ | ⟨_, _, _, hold, -, -, -⟩
    · rw [hstep.markedBefore_iff hold]
      exact h.publishes i stage hold hpublishes
    · exact hpublishes.elim
    · rw [hstep.markedBefore_iff hold]
      cases hstep with
      | @moved u next calls _ _ _ _ _ hmoves =>
        obtain rfl : u = left log := hrun.unit_eq
        cases hmoves with
        | sound hmark =>
          have hmark' : marked log = false := hmark
          rw [h.markedBefore_iff hrun hold, hmark']
          decide
        | published => exact h.publishes i _ hold trivial
        | took => exact hpublishes.elim
        | uncommitted => exact hpublishes.elim
        | doomed => exact hpublishes.elim
    · rw [hstep.markedBefore_iff hold]
      exact h.publishes i _ hold trivial
  · rcases hstep.came hcall with hold | ⟨rfl, -⟩ | ⟨stage', hold, rfl⟩ | ⟨_, _, _, -, -, rfl, -⟩
    · rw [hstep.markedBefore_iff hold]
      exact h.dooms i stage hold hdooms
    · exact hdooms.elim
    · rw [hstep.markedBefore_iff hold]
      cases hstep with
      | @moved u next calls _ _ _ _ _ hmoves =>
        obtain rfl : u = left log := hrun.unit_eq
        cases hmoves with
        | doomed hmark => exact (h.markedBefore_iff hrun hold).mpr hmark
        | uncommitted hover =>
          obtain ⟨-, rfl, -⟩ := WorkUnit.complete_eq_error.mp hover
          exact hdooms.elim
        | took => exact hdooms.elim
        | sound => exact hdooms.elim
        | published => exact hdooms.elim
    · exact hdooms.elim

theorem Run.ordered (hrun : Run p {} log callers) (hserial : OneByOne log) : Ordered callers := by
  induction hrun with
  | start =>
    refine ⟨fun i call stage hi => absurd hi (Nat.not_lt_zero _), fun i stage h => ?_,
      fun i stage h => ?_⟩
    · cases h
    · cases h
  | @step log callers callers' entry prior h ih =>
    obtain ⟨hbefore, hmade⟩ := throughout_concat.mp hserial
    refine (ih hbefore).step prior h fun hentry i hi => ?_
    exact prior.ended_of_answered (hmade hentry i (prior.length_calls ▸ hi))

/-- **A commit publishes exactly if the mark was not set before**, where each call waits for the ones
before it, and the commit is the call that ends the unit. -/
theorem Run.publishes_iff (hrun : Run p {} log callers) (hserial : OneByOne log) {i : Nat}
    {reply : UnitReply} (hcall : callers.calls[i]? = some (.commit, .ended reply))
    (hends : reply ≠ .refused .completed) :
    (∃ outcomes, reply = .published outcomes) ↔ ¬ callers.MarkedBefore i := by
  have hordered := hrun.ordered hserial
  constructor
  · rintro ⟨outcomes, rfl⟩
    exact hordered.publishes i _ hcall trivial
  · intro hunmarked
    have hended : callers.EndedBy i := ⟨_, _, hcall, hends⟩
    cases hrun.phase with
    | running _ _ hnobody => exact absurd hended (hnobody i)
    | concluded _ hwinner hfate honly =>
      obtain rfl := honly i hended
      cases hwinner.symm.trans hcall
      cases hfate with
      | doomed => exact absurd (hordered.dooms i _ hcall trivial) hunmarked
      | published => exact ⟨_, rfl⟩

/-! ### The whole account -/

/-- What is true of a unit of work, its log and its callers at every time. -/
structure Accounted (p : Producer) (log : List Entry) (callers : Callers) : Prop where
  /-- The unit holds back the events accepted until it is ended, and none afterwards. -/
  unit : callers.unit = left log
  /-- One commit or rollback at most is not told that the unit had been ended before. -/
  once : ∀ i j, callers.EndedBy i → callers.EndedBy j → i = j
  /-- A record is told whether the unit had been ended. -/
  recorded : ∀ i event reply, callers.calls[i]? = some (.record event, .ended reply) →
    ∃ before since, log = before ++ .moved i (.record event) .made (.ended reply) :: since ∧
      reply = if completed before then .refused .completed else .recorded
  /-- Nothing is published before the unit is ended, and then its events have one fate. -/
  phase : Phase p log callers
  /-- A commit that has ended the unit looks at the mark as it is then. -/
  looked : Throughout (fun before entry => ∀ i events stage,
    entry = .moved i .commit (.holding events) stage →
    stage = if marked before then .ended (.refused (.rollbackOnly events.length))
      else .publishing (p.publishAll events)) log
  /-- If each call waits for the ones before it, the calls made before decide. -/
  serial : OneByOne log → ∀ i reply, callers.calls[i]? = some (.commit, .ended reply) →
    reply ≠ .refused .completed →
    ((∃ outcomes, reply = .published outcomes) ↔ ¬ callers.MarkedBefore i)
  /-- Whoever asks for the state is told the events accepted before, or none if the unit had been
  ended. -/
  counted : ∀ i u, callers.calls[i]? = some (.state, .ended (.state u)) →
    ∃ before since, log = before ++ .moved i .state .made (.counted u.pending) :: since ∧
      u.pending = if completed before then [] else accepted before

/-- **A unit of work accounts for each event once.**  Let any callers make any calls to a new unit of
work, each getting at it whenever it gets its turn.  Events are accepted until the first commit or
rollback, and refused afterwards.  The call that ends the unit takes out all that was accepted: it
publishes each event once, in the order of the records, or it discards all of them and tells how
many they were. -/
theorem accounted (hrun : Run p {} log callers) : Accounted p log callers where
  unit := hrun.unit_eq
  once i j hi hj := by
    cases hrun.phase with
    | running _ _ hnobody => exact absurd hi (hnobody i)
    | concluded _ _ _ honly => exact (honly i hi).trans (honly j hj).symm
  recorded i event reply hcall := by
    obtain ⟨stage, hmem⟩ := hrun.answered hcall
    obtain ⟨before, since, hlog⟩ := List.append_of_mem hmem
    obtain ⟨rfl, hreply⟩ := hrun.record_step before _ since hlog i event stage _ rfl
    exact ⟨before, since, hlog, UnitCall.Stage.ended.inj hreply⟩
  phase := hrun.phase
  looked := hrun.commit_step
  serial hserial i reply hcall hends := hrun.publishes_iff hserial hcall hends
  counted i u hcall := by
    obtain ⟨before, since, hlog⟩ := List.append_of_mem (hrun.pending_seen hcall rfl)
    have hpending := hrun.state_step before _ since hlog i _ rfl
    exact ⟨before, since, hlog, UnitCall.Stage.counted.inj hpending⟩

def slip (id : String) : Event := ⟨id, "t", .null, default, none⟩

/-- A commit that is overtaken: while it publishes the event accepted before it, a record is refused,
the mark is set too late, and whoever asks finds nothing held back. -/
theorem accounted_overtaken :
    ∃ log callers, Run ⟨{}, .json⟩ {} log callers ∧ accepted log = [slip "a"] ∧
      callers.calls =
        [(.record (slip "a"), .ended .recorded),
          (.commit, .ended (.published [.unrecorded true])),
          (.record (slip "b"), .ended (.refused .completed)),
          (.setRollbackOnly, .ended .marked),
          (.state, .ended (.state ⟨[], true, true⟩))] ∧
      Accounted ⟨{}, .json⟩ log callers := by
  have h₀ : Run ⟨{}, .json⟩ {} [] {} := .start
  have h₁ := (h₀.step (.made (.record (slip "a")))).step (.moved (i := 0) rfl (.recorded rfl))
  have h₂ := (h₁.step (.made .commit)).step (.moved (i := 1) rfl (.took rfl))
  have h₃ := (h₂.step (.made (.record (slip "b")))).step (.moved (i := 2) rfl (.barred rfl))
  have h₄ := h₃.step (.moved (i := 1) rfl (.sound rfl))
  have h₅ := (h₄.step (.made .setRollbackOnly)).step (.moved (i := 3) rfl .marked)
  have h₆ := (h₅.step (@Step.asked _ _ _ 1 .now _ rfl (default : Instant))).step
    (@Step.asked _ _ _ 1 (.create _) _ rfl (.error (.ledger "down")))
  have h₇ := (h₆.step (.made .state)).step (.moved (i := 4) rfl .counted)
  have h₈ := (h₇.step (.moved (i := 4) rfl .seen)).step (.moved (i := 4) rfl .told)
  have h₉ := (h₈.step (@Step.asked _ _ _ 1 (.send _) _ rfl (.ok ()))).step
    (.moved (i := 1) rfl .published)
  exact ⟨_, _, h₉, rfl, rfl, accounted h₉⟩

end EventRelay.Callers
