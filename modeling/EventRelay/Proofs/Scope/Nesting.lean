import EventRelay.Scope

/-!
# Scopes inside scopes

A task that only records events and opens scopes, each of which ends, is a finite forest.  Inside an
open scope nothing is asked of the surroundings: the unit of work of the outermost scope gathers the
events, and remembers whether a scope inside it has failed (`WorkUnit.holding`).  So a forest is
published at the ends of its outermost scopes only.  Each gives all of its events, or none, and leaves
nothing behind for those after it.

How a scope inside another one has ended counts only if it has failed (`Activity.unfailed`).  Where
each scope ends well or badly, this is to say that not all of them have ended well.
-/

namespace EventRelay

namespace WorkUnit

/-- A unit of work that has taken up events, and is to be rolled back unless all went well. -/
def holding (u : WorkUnit) (events : List Event) (sound : Bool) : WorkUnit :=
  { u with pending := u.pending ++ events, rollbackOnly := u.rollbackOnly || !sound }

@[simp]
theorem holding_nil (u : WorkUnit) : u.holding [] true = u := by
  simp [holding]

theorem holding_holding (u : WorkUnit) (events more : List Event) (sound sound' : Bool) :
    (u.holding events sound).holding more sound' = u.holding (events ++ more) (sound && sound') := by
  simp [holding, Bool.or_assoc]

theorem setRollbackOnly_holding (u : WorkUnit) (events : List Event) (sound : Bool) :
    (u.holding events sound).setRollbackOnly = u.holding events false := by
  simp [holding, setRollbackOnly]

theorem record_of_open {u : WorkUnit} (hopen : u.completed = false) (event : Event) :
    u.record event = .ok (u.holding [event] true) := by
  simp [record, holding, hopen]

end WorkUnit

/-- **Publishing all events** is to publish each of them once, in their order, and nothing else. -/
theorem Producer.publishAll_bind {α : Type} (p : Producer) (events : List Event) (w : Work α) :
    ((p.publishAll events).bind fun _ => w) =
      events.foldr (fun event w => (p.publish event).bind fun _ => w) w := by
  induction events with
  | nil => rfl
  | cons event rest ih =>
    rw [List.foldr_cons, ← ih, publishAll]
    simp only [Work.bind_assoc, Work.bind_done]

namespace Activity

/-! ### Forests -/

mutual

/-- Whether an activity is built of records and of scopes that end well or badly. -/
def IsPlain : Activity → Prop
  | .record _ => True
  | .scope body ending => (ending = .succeeded ∨ ending = .failed) ∧ ArePlain body
  | .recordApart _ | .onUnit _ => False

def ArePlain : List Activity → Prop
  | [] => True
  | activity :: rest => activity.IsPlain ∧ ArePlain rest

end

mutual

/-- The events recorded in an activity and in all scopes inside it, in the order of the records. -/
def recorded : Activity → List Event
  | .record event | .recordApart event => [event]
  | .onUnit _ => []
  | .scope body _ => recordedAll body

def recordedAll : List Activity → List Event
  | [] => []
  | activity :: rest => activity.recorded ++ recordedAll rest

end

mutual

/-- Whether all scopes of an activity ended well, at any depth. -/
def endsWell : Activity → Bool
  | .record _ | .recordApart _ | .onUnit _ => true
  | .scope body ending => allEndWell body && decide (ending = .succeeded)

def allEndWell : List Activity → Bool
  | [] => true
  | activity :: rest => activity.endsWell && allEndWell rest

end

mutual

/-- What a plain activity gives its caller inside an open scope. -/
def trace : Activity → Trace
  | .record _ | .recordApart _ => .recorded (.ok .buffered)
  | .onUnit _ => .answered none
  | .scope body ending => .scope ending (traces body)

def traces : List Activity → List Trace
  | [] => []
  | activity :: rest => activity.trace :: traces rest

end

def published (activity : Activity) : List Event :=
  if activity.endsWell then activity.recorded else []

/-! ### Scopes that are given up -/

mutual

/-- Whether an activity is built of records and of scopes that end, be it by being given up. -/
def Ends : Activity → Prop
  | .record _ => True
  | .scope body ending => ending ≠ .stalled ∧ AllEnd body
  | .recordApart _ | .onUnit _ => False

def AllEnd : List Activity → Prop
  | [] => True
  | activity :: rest => activity.Ends ∧ AllEnd rest

end

mutual

/-- Whether no scope of an activity has failed, at any depth. -/
def unfailed : Activity → Bool
  | .record _ | .recordApart _ | .onUnit _ => true
  | .scope body ending => allUnfailed body && decide (ending ≠ .failed)

def allUnfailed : List Activity → Bool
  | [] => true
  | activity :: rest => activity.unfailed && allUnfailed rest

end

/-- The events that an outermost scope gives for publication, whichever way the scopes inside it have
ended. -/
def given (body : List Activity) (ending : Ending) : List Event :=
  if allUnfailed body && decide (ending = .succeeded) then recordedAll body else []

theorem ne_stalled {ending : Ending} (h : ending = .succeeded ∨ ending = .failed) :
    ending ≠ .stalled := by
  rcases h with rfl | rfl <;> decide

mutual

theorem ends_of_isPlain (activity : Activity) (hplain : activity.IsPlain) : activity.Ends := by
  cases activity with
  | record event => trivial
  | recordApart event => exact hplain.elim
  | onUnit call => exact hplain.elim
  | scope body ending => exact ⟨ne_stalled hplain.1, allEnd_of_arePlain body hplain.2⟩

theorem allEnd_of_arePlain (body : List Activity) (hplain : ArePlain body) : AllEnd body := by
  cases body with
  | nil => trivial
  | cons activity rest =>
    exact ⟨ends_of_isPlain activity hplain.1, allEnd_of_arePlain rest hplain.2⟩

end

mutual

theorem unfailed_eq_endsWell (activity : Activity) (hplain : activity.IsPlain) :
    activity.unfailed = activity.endsWell := by
  cases activity with
  | record event => rfl
  | recordApart event => exact hplain.elim
  | onUnit call => exact hplain.elim
  | scope body ending =>
    obtain ⟨hending, hbody⟩ := hplain
    rw [unfailed, endsWell, allUnfailed_eq_allEndWell body hbody]
    rcases hending with rfl | rfl <;> rfl

theorem allUnfailed_eq_allEndWell (body : List Activity) (hplain : ArePlain body) :
    allUnfailed body = allEndWell body := by
  cases body with
  | nil => rfl
  | cons activity rest =>
    rw [allUnfailed, allEndWell, unfailed_eq_endsWell activity hplain.1,
      allUnfailed_eq_allEndWell rest hplain.2]

end

theorem given_eq_published {body : List Activity} (hbody : ArePlain body) (ending : Ending) :
    given body ending = (scope body ending).published := by
  rw [given, published, endsWell, recorded, allUnfailed_eq_allEndWell body hbody]

/-! ### Inside an open scope -/

variable (p : Producer)

theorem leave_inside (u : WorkUnit) (t : Task) (ht : t.current?.isSome) (events : List Event)
    (sound : Bool) (ending : Ending) :
    t.leave p ⟨some (u.holding events sound)⟩ ending =
      .done ⟨some (u.holding events (sound && decide (ending ≠ .failed)))⟩ := by
  obtain ⟨outer, houter⟩ := Option.isSome_iff_exists.mp ht
  cases ending <;> simp [Task.leave, houter, Task.leaveInner, WorkUnit.setRollbackOnly_holding]

mutual

/-- **Inside an open scope nothing is published.**  An activity hands its events to the unit of work
that is open, and asks for nothing; a scope inside that was given up leaves its events there. -/
theorem run_open (activity : Activity) (hends : activity.Ends) (u : WorkUnit)
    (hopen : u.completed = false) :
    activity.run p ⟨some u⟩ =
      .done (some activity.trace, ⟨some (u.holding activity.recorded activity.unfailed)⟩) := by
  cases activity with
  | record event =>
    simp only [run, Task.record, WorkUnit.record_of_open hopen, Work.bind_done, trace, recorded,
      unfailed]
  | recordApart event => exact hends.elim
  | onUnit call => exact hends.elim
  | scope body ending =>
    obtain ⟨hstalled, hbody⟩ := hends
    have hinside := runAll_open body hbody u hopen
    simp only [run, Task.enter, Option.getD_some, hinside, Work.bind_done, if_true, hstalled,
      false_and, if_false, leave_inside p u ⟨some u⟩ rfl, trace, recorded, unfailed]

theorem runAll_open (body : List Activity) (hends : AllEnd body) (u : WorkUnit)
    (hopen : u.completed = false) :
    runAll p ⟨some u⟩ body =
      .done (true, traces body, ⟨some (u.holding (recordedAll body) (allUnfailed body))⟩) := by
  cases body with
  | nil => simp only [runAll, traces, recordedAll, allUnfailed, WorkUnit.holding_nil]
  | cons activity rest =>
    have hfirst := run_open activity hends.1 u hopen
    have hrest := runAll_open rest hends.2 (u.holding activity.recorded activity.unfailed) hopen
    simp only [runAll, hfirst, Work.bind_done, hrest, WorkUnit.holding_holding, traces,
      recordedAll, allUnfailed]

end

theorem runAll_inside (body : List Activity) (hplain : ArePlain body) (u : WorkUnit)
    (hopen : u.completed = false) :
    runAll p ⟨some u⟩ body =
      .done (true, traces body, ⟨some (u.holding (recordedAll body) (allEndWell body))⟩) := by
  rw [runAll_open p body (allEnd_of_arePlain body hplain) u hopen,
    allUnfailed_eq_allEndWell body hplain]

/-! ### The outermost end -/

theorem leave_outermost (events : List Event) (sound : Bool) (ending : Ending) :
    Task.leave p {} ⟨some (({} : WorkUnit).holding events sound)⟩ ending =
      (p.publishAll (if sound && decide (ending = .succeeded) then events else [])).bind
        fun _ => .done {} := by
  cases ending <;> cases sound <;> rfl

/-- A scope that no other one is around publishes what was recorded in it and in the scopes inside
it, in the order of the records, if it ended well and none inside has failed; otherwise it publishes
nothing.  The task is left as it was found. -/
theorem run_given {body : List Activity} {ending : Ending} (hends : (scope body ending).Ends) :
    run p {} (.scope body ending) =
      (p.publishAll (given body ending)).bind fun _ =>
        .done (some (scope body ending).trace, {}) := by
  obtain ⟨hstalled, hbody⟩ := hends
  have hinside := runAll_open p body hbody {} rfl
  simp only [run, Task.enter, Option.getD_none, hinside, Work.bind_done, if_true, hstalled,
    false_and, if_false, leave_outermost p, Work.bind_assoc, trace]
  rfl

/-- **Scopes publish all or nothing, at the outermost end.**  Where each scope ends well or badly, the
outermost one publishes what was recorded if all of them ended well, and nothing otherwise. -/
theorem run_outermost {body : List Activity} {ending : Ending}
    (hplain : (scope body ending).IsPlain) :
    run p {} (.scope body ending) =
      (p.publishAll (scope body ending).published).bind fun _ =>
        .done (some (scope body ending).trace, {}) := by
  rw [run_given p (ends_of_isPlain _ hplain), given_eq_published hplain.2]

/-- **The course of a task with scopes inside scopes.**  Nothing is asked of the surroundings while
an outermost scope is open, from its first record to its last; at its end the producer is to publish
the events recorded in it, one after the other, each once and in order, or none of them, as
`Activity.published` says.  Each scope gives its own ending to its caller, and what the task does next
it does as if nothing had been before. -/
theorem published_at_the_end (body : List Activity) (ending : Ending) (rest : List Activity)
    (hplain : (scope body ending).IsPlain) :
    runAll p (Task.enter {}) body =
        .done (true, traces body,
          ⟨some (({} : WorkUnit).holding (recordedAll body) (allEndWell body))⟩) ∧
      runAll p {} (.scope body ending :: rest) =
        (scope body ending).published.foldr (fun event w => (p.publish event).bind fun _ => w)
          ((runAll p {} rest).bind fun (finished, others, t) =>
            .done (finished, .scope ending (traces body) :: others, t)) := by
  refine ⟨runAll_inside p body hplain.2 {} rfl, ?_⟩
  rw [← Producer.publishAll_bind]
  simp only [runAll, run_outermost p hplain, Work.bind_assoc, Work.bind_done, trace]

def note (id : String) : Event := ⟨id, "t", .null, default, none⟩

/-- A scope that goes on after one inside it has failed publishes nothing, neither what came before
the failure nor what came after it; the next one publishes what was recorded in it and in the scope
inside it. -/
theorem published_at_the_end_recovered :
    runAll ⟨{}, .json⟩ {}
        [.scope [.record (note "a"), .scope [.record (note "b")] .failed, .record (note "c")]
            .succeeded,
          .scope [.record (note "d"), .scope [.record (note "e")] .succeeded] .succeeded] =
      (Producer.publish ⟨{}, .json⟩ (note "d")).bind fun _ =>
        (Producer.publish ⟨{}, .json⟩ (note "e")).bind fun _ => .done (true,
          [.scope .succeeded
              [.recorded (.ok .buffered), .scope .failed [.recorded (.ok .buffered)],
                .recorded (.ok .buffered)],
            .scope .succeeded
              [.recorded (.ok .buffered), .scope .succeeded [.recorded (.ok .buffered)]]], {}) := by
  have hplain : (scope [.record (note "a"), .scope [.record (note "b")] .failed,
      .record (note "c")] .succeeded).IsPlain := by simp [IsPlain, ArePlain]
  have hnext : (scope [.record (note "d"), .scope [.record (note "e")] .succeeded]
      .succeeded).IsPlain := by simp [IsPlain, ArePlain]
  rw [(published_at_the_end ⟨{}, .json⟩ _ _ [_] hplain).2,
    (published_at_the_end ⟨{}, .json⟩ _ _ [] hnext).2]
  simp [published, endsWell, allEndWell, recorded, recordedAll, Work.bind_assoc, runAll, traces,
    trace]

/-! ### Forests in order -/

theorem publishAll_append (events more : List Event) :
    p.publishAll (events ++ more) =
      (p.publishAll events).bind fun first => (p.publishAll more).bind fun second =>
        .done (first ++ second) := by
  induction events with
  | nil => exact (Work.bind_done_right _).symm
  | cons event events ih =>
    simp only [List.cons_append, Producer.publishAll, ih, Work.bind_assoc, Work.bind_done]

/-- **Scopes in a row.**  What they publish is what each of them publishes, one after the other. -/
theorem runAll_scopes {forest : List (List Activity × Ending)}
    (hends : ∀ tree ∈ forest, (scope tree.1 tree.2).Ends) :
    runAll p {} (forest.map fun tree => scope tree.1 tree.2) =
      (p.publishAll (forest.flatMap fun tree => given tree.1 tree.2)).bind fun _ =>
        .done (true, traces (forest.map fun tree => scope tree.1 tree.2), {}) := by
  induction forest with
  | nil => rfl
  | cons tree rest ih =>
    obtain ⟨hfirst, hrest⟩ := List.forall_mem_cons.mp hends
    simp only [List.map_cons, List.flatMap_cons, runAll, run_given p hfirst, ih hrest,
      publishAll_append, Work.bind_assoc, Work.bind_done, traces]

end Activity

end EventRelay
