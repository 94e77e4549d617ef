import EventRelay.Proofs.Scope.Nesting
import EventRelay.Proofs.WorkUnit.Callers

/-!
# Scopes that are given up

A scope inside another one may be given up on its way: the task that waits for it loses patience, or
contains a panic, and what surrounds it goes on.  Whoever gives a scope up never gets to the place
where its failure would be noted.  So the events that were recorded inside, the strays, stay in the
unit of work of the outermost scope, and share its fate (`Activity.strays_kept_back_iff`): nobody
publishes them if the outermost scope does not end well, or if some other scope has failed.
-/

namespace EventRelay.Activity

mutual

/-- The events recorded in those scopes of an activity that did not end well, and in the scopes
inside them. -/
def strays : Activity → List Event
  | .record _ | .recordApart _ | .onUnit _ => []
  | .scope body ending => if ending = .succeeded then straysAll body else recordedAll body

def straysAll : List Activity → List Event
  | [] => []
  | activity :: rest => activity.strays ++ straysAll rest

end

mutual

theorem strays_subset_recorded (activity : Activity) : activity.strays ⊆ activity.recorded := by
  cases activity with
  | record event => exact List.nil_subset _
  | recordApart event => exact List.nil_subset _
  | onUnit call => exact List.nil_subset _
  | scope body ending =>
    rw [strays, recorded]
    split
    · exact straysAll_subset_recordedAll body
    · exact List.Subset.refl _

theorem straysAll_subset_recordedAll (body : List Activity) :
    straysAll body ⊆ recordedAll body := by
  cases body with
  | nil => exact List.nil_subset _
  | cons activity rest =>
    rw [straysAll, recordedAll]
    refine List.append_subset.mpr ⟨?_, ?_⟩
    · exact List.subset_append_of_subset_left _ (strays_subset_recorded activity)
    · exact List.subset_append_of_subset_right _ (straysAll_subset_recordedAll rest)

end

/-- An outermost scope keeps its strays back if it gives nothing at all, or if there are none. -/
theorem disjoint_given_iff (body : List Activity) (ending : Ending) :
    (∀ event ∈ straysAll body, event ∉ given body ending) ↔
      ending ≠ .succeeded ∨ allUnfailed body = false ∨ straysAll body = [] := by
  constructor
  · intro hkept
    by_contra hnone
    obtain ⟨hending, hunfailed, hsome⟩ :
        ending = .succeeded ∧ allUnfailed body = true ∧ straysAll body ≠ [] := by
      simpa only [not_or, not_not, Bool.not_eq_false, ne_eq] using hnone
    obtain ⟨event, hevent⟩ := List.exists_mem_of_ne_nil _ hsome
    have hgiven : given body ending = recordedAll body := by
      simp only [given, hending, hunfailed, decide_true, Bool.and_self, if_true]
    exact hkept event hevent (hgiven ▸ straysAll_subset_recordedAll body hevent)
  · rintro (hending | hfailed | hnone) event hevent
    · simp [given, hending]
    · simp [given, hfailed]
    · simp [hnone] at hevent

/-- **The fate of strays.**  Let a task open scopes, one after the other, and let each of them, and
each scope inside them, end well, end badly or be given up.  The task publishes the events that its
outermost scopes give, one after the other, each once and in order, and is left without a scope.  An outermost scope keeps back all
events that were recorded in scopes inside it that did not end well, exactly if it did not end well
itself, or if a scope inside it has failed, or if there are no such events. -/
theorem strays_kept_back_iff (p : Producer) {forest : List (List Activity × Ending)}
    (hends : ∀ tree ∈ forest, (scope tree.1 tree.2).Ends) :
    runAll p {} (forest.map fun tree => scope tree.1 tree.2) =
        (forest.flatMap fun tree => given tree.1 tree.2).foldr
          (fun event w => (p.publish event).bind fun _ => w)
          (.done (true, traces (forest.map fun tree => scope tree.1 tree.2), {})) ∧
      ∀ tree ∈ forest, (∀ event ∈ straysAll tree.1, event ∉ given tree.1 tree.2) ↔
        tree.2 ≠ .succeeded ∨ allUnfailed tree.1 = false ∨ straysAll tree.1 = [] :=
  ⟨(runAll_scopes p hends).trans (p.publishAll_bind _ _), fun tree _ => disjoint_given_iff tree.1 tree.2⟩

/-- A scope that was given up does no harm next to one that has failed, and none if it is empty. -/
theorem strays_kept_back_next_to_failure :
    runAll ⟨{}, .json⟩ {}
        [.scope [.record (note "a"), .scope [.record (note "b")] .abandoned,
            .scope [.record (note "c")] .failed] .succeeded,
          .scope [.record (note "d"), .scope [] .abandoned] .succeeded] =
      (Producer.publish ⟨{}, .json⟩ (note "d")).bind fun _ =>
        .done (true,
          [.scope .succeeded
              [.recorded (.ok .buffered), .scope .abandoned [.recorded (.ok .buffered)],
                .scope .failed [.recorded (.ok .buffered)]],
            .scope .succeeded [.recorded (.ok .buffered), .scope .abandoned []]], {}) :=
  (@strays_kept_back_iff ⟨{}, .json⟩
    [([.record (note "a"), .scope [.record (note "b")] .abandoned,
        .scope [.record (note "c")] .failed], .succeeded),
      ([.record (note "d"), .scope [] .abandoned], .succeeded)]
    (by simp [Ends, AllEnd])).1

theorem after_unrecorded {α : Type} {p : Producer} {event : Event} {w : Work α}
    {history : List Asked} {f : Producer.Outcome → Work α} (now : Instant) (e : Error)
    (h : w.After history ((p.publish event).bind f)) :
    w.After (history ++ [⟨.now, now⟩] ++ [⟨.create (p.freshRecord event now), .error e⟩] ++
      [⟨.send event, .ok ()⟩]) (f (.unrecorded true)) := by
  have hnow := @Work.After.asked _ w history .now _ h now
  have hcreate := @Work.After.asked _ w _ (.create (p.freshRecord event now)) _ hnow (.error e)
  exact @Work.After.asked _ w _ (.send event) _ hcreate (.ok ())

/-- **A scope that was given up is published.**  A task records an event, opens a scope in which it
records another one, gives this scope up and ends well.  Both events are published, and the
transport gets the one that was given up, too. -/
theorem given_up_and_published :
    ∃ body, straysAll body = [note "b"] ∧ (scope body .succeeded).Ends ∧
      run ⟨{}, .json⟩ {} (.scope body .succeeded) =
        ((Producer.publish ⟨{}, .json⟩ (note "a")).bind fun _ =>
          (Producer.publish ⟨{}, .json⟩ (note "b")).bind fun _ => .done (some (.scope .succeeded
            [.recorded (.ok .buffered), .scope .abandoned [.recorded (.ok .buffered)]]), {})) ∧
      ∃ history rest, (run ⟨{}, .json⟩ {} (.scope body .succeeded)).After history rest ∧
        (⟨.send (note "b"), .ok ()⟩ : Asked) ∈ history := by
  have hends : (scope [.record (note "a"), .scope [.record (note "b")] .abandoned]
      .succeeded).Ends := by simp [Ends, AllEnd]
  refine ⟨_, rfl, hends, (run_given ⟨{}, .json⟩ hends).trans (Producer.publishAll_bind _ _ _), ?_⟩
  have hgiven : given [.record (note "a"), .scope [.record (note "b")] .abandoned] .succeeded =
      [note "a", note "b"] := rfl
  simp only [run_given ⟨{}, .json⟩ hends, hgiven, Producer.publishAll, Work.bind_assoc]
  exact ⟨_, _, after_unrecorded default (.ledger "down")
    (after_unrecorded default (.ledger "down") .start), by simp⟩

end EventRelay.Activity
