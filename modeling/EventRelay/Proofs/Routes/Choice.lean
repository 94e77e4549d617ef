import Mathlib.Data.List.Induction
import EventRelay.Routes
import EventRelay.Proofs.Alone.Basic

/-!
# The choice of a handler

The index of a list of handlers keeps what the list says, and their order: under each type the handlers
that name it (`Routes.filed_ofHandlers`), as often as they do, and apart from them those of every type
(`Routes.forAll_ofHandlers`).  So the first candidate that accepts is found by going through the list
itself, once for the type and once more for the handlers of every type (`Routes.choose_eq_search`).
-/

namespace EventRelay

/-! ### The search through the list -/

/-- **Whom an event of a type goes to.**  The first handler that names the type and accepts; if there is
none, the first handler of every type that accepts. -/
def Handler.search (handlers : List Handler) (type : String) (accepts : Nat → Bool) :
    Option Handler :=
  (handlers.find? fun h => h.types ≠ .all && h.types.matches type && accepts h.slot).or
    (handlers.find? fun h => h.types = .all && accepts h.slot)

/-- The places of a handler under a type. -/
def Handler.entries (h : Handler) (type : String) : List Nat :=
  match h.types with
  | .one known => if known = type then [h.slot] else []
  | .many types => List.replicate (types.count type) h.slot
  | .all => []

theorem Handler.find?_entries (h : Handler) (type : String) (accepts : Nat → Bool) :
    (h.entries type).find? accepts =
      (Option.guard (fun h => h.types ≠ .all && h.types.matches type && accepts h.slot) h).map
        (·.slot) := by
  obtain ⟨slot, types⟩ := h
  cases types with
  | one known =>
    by_cases hknown : known = type
    · cases haccepts : accepts slot <;>
        simp [entries, Option.guard, EventTypes.matches, hknown, haccepts]
    · simp [entries, Option.guard, EventTypes.matches, hknown]
  | many types =>
    show (List.replicate (types.count type) slot).find? accepts = _
    rw [List.find?_replicate]
    by_cases hmem : type ∈ types
    · cases haccepts : accepts slot <;>
        simp [Option.guard, EventTypes.matches, List.count_eq_zero, hmem, haccepts]
    · simp [Option.guard, EventTypes.matches, List.count_eq_zero, hmem]
  | all => rfl

namespace Routes

/-! ### The index -/

def filed (index : List (String × List Nat)) (type : String) : List Nat :=
  (index.lookup type).getD []

theorem filed_addTo (known : String) (slot : Nat) (index : List (String × List Nat))
    (type : String) :
    filed (addTo known slot index) type =
      filed index type ++ if known = type then [slot] else [] := by
  unfold filed
  fun_induction addTo known slot index with
  | case1 =>
    by_cases h : known = type
    · simp [h]
    · simp [List.lookup_cons, beq_false_of_ne (Ne.symm h), h]
  | case2 slots rest =>
    by_cases h : known = type
    · simp [h]
    · simp [List.lookup_cons, beq_false_of_ne (Ne.symm h), h]
  | case3 other slots rest hother ih =>
    by_cases h : type = other
    · subst h
      simp [Ne.symm hother]
    · simpa [List.lookup_cons, beq_false_of_ne h] using ih

theorem filed_addAll (types : List String) (slot : Nat) (index : List (String × List Nat))
    (type : String) :
    filed (types.foldl (fun index known => addTo known slot index) index) type =
      filed index type ++ List.replicate (types.count type) slot := by
  induction types generalizing index with
  | nil => simp
  | cons known rest ih =>
    rw [List.foldl_cons, ih, filed_addTo, List.append_assoc]
    by_cases h : known = type
    · simp [h, List.replicate_succ]
    · simp [h]

theorem filed_add (routes : Routes) (h : Handler) (type : String) :
    filed (routes.add h).byType type = filed routes.byType type ++ h.entries type := by
  unfold add Handler.entries
  cases h.types with
  | one known => exact filed_addTo known h.slot routes.byType type
  | many types => exact filed_addAll types h.slot routes.byType type
  | all => exact (List.append_nil _).symm

theorem forAll_add (routes : Routes) (h : Handler) :
    (routes.add h).forAll = routes.forAll ++ if h.types = .all then [h.slot] else [] := by
  unfold add
  cases h.types <;> simp

theorem ofHandlers_concat (handlers : List Handler) (h : Handler) :
    ofHandlers (handlers ++ [h]) = (ofHandlers handlers).add h :=
  List.foldl_concat ..

/-- **Under each type stand the handlers that name it, in the order of the list.** -/
theorem filed_ofHandlers (handlers : List Handler) (type : String) :
    filed (ofHandlers handlers).byType type = handlers.flatMap (·.entries type) := by
  induction handlers using List.reverseRecOn with
  | nil => rfl
  | append_singleton handlers h ih =>
    rw [ofHandlers_concat, filed_add, ih, List.flatMap_append, List.flatMap_singleton]

/-- **Apart from them stand the handlers of every type.** -/
theorem forAll_ofHandlers (handlers : List Handler) :
    (ofHandlers handlers).forAll = (handlers.filter (·.types = .all)).map (·.slot) := by
  induction handlers using List.reverseRecOn with
  | nil => rfl
  | append_singleton handlers h ih =>
    rw [ofHandlers_concat, forAll_add, ih, List.filter_append, List.map_append]
    by_cases hall : h.types = .all <;> simp [hall]

/-! ### The choice -/

theorem choose_ofHandlers (handlers : List Handler) (type : String) (accepts : Nat → Bool) :
    (ofHandlers handlers).choose type accepts =
      (Handler.search handlers type accepts).map (·.slot) := by
  have htyped : (filed (ofHandlers handlers).byType type).find? accepts =
      (handlers.find? fun h => h.types ≠ .all && h.types.matches type && accepts h.slot).map
        (·.slot) := by
    rw [filed_ofHandlers, List.find?_flatMap, ← List.findSome?_guard, List.map_findSome?]
    exact congrArg (List.findSome? · handlers) (funext fun h => h.find?_entries type accepts)
  have hall : (ofHandlers handlers).forAll.find? accepts =
      (handlers.find? fun h => h.types = .all && accepts h.slot).map (·.slot) := by
    rw [forAll_ofHandlers, List.find?_map, List.find?_filter]
    simp
  show ((filed (ofHandlers handlers).byType type) ++ (ofHandlers handlers).forAll).find? accepts = _
  rw [List.find?_append, htyped, hall, Handler.search, Option.map_or]

theorem search_eq_none_iff {handlers : List Handler} {type : String} {accepts : Nat → Bool} :
    Handler.search handlers type accepts = none ↔
      ∀ h ∈ handlers, h.types.matches type = true → accepts h.slot = false := by
  rw [Handler.search, Option.or_eq_none_iff, List.find?_eq_none, List.find?_eq_none]
  constructor
  · rintro ⟨htyped, hall⟩ h hh hmatches
    by_cases hevery : h.types = .all
    · simpa [hevery] using hall h hh
    · simpa [hevery, hmatches] using htyped h hh
  · intro hnone
    refine ⟨fun h hh hfound => ?_, fun h hh hfound => ?_⟩
    · simp only [Bool.and_eq_true] at hfound
      rw [hnone h hh hfound.1.2] at hfound
      exact absurd hfound.2 (by decide)
    · simp only [Bool.and_eq_true, decide_eq_true_eq] at hfound
      have hmatches : h.types.matches type = true := by rw [hfound.1]; rfl
      rw [hnone h hh hmatches] at hfound
      exact absurd hfound.2 (by decide)

theorem search_of_filter_eq {handlers others : List Handler}
    (hall : others.filter (·.types = .all) = handlers.filter (·.types = .all))
    (htyped : others.filter (·.types ≠ .all) = handlers.filter (·.types ≠ .all)) (type : String)
    (accepts : Nat → Bool) :
    Handler.search others type accepts = Handler.search handlers type accepts := by
  have hsplit : ∀ list : List Handler, Handler.search list type accepts =
      ((list.filter (·.types ≠ .all)).find? fun h => h.types.matches type && accepts h.slot).or
        ((list.filter (·.types = .all)).find? fun h => accepts h.slot) := by
    intro list
    rw [Handler.search, List.find?_filter, List.find?_filter]
    simp [Bool.and_assoc]
  rw [hsplit, hsplit, hall, htyped]

/-- **The index chooses whom the search through the list finds.**  For every list of handlers, whatever
types they name and how often, the choice is the first handler that names the type of the event and
accepts it, and without one the first handler of every type that accepts.  Nobody is chosen exactly if
nobody takes the type and accepts.  Where the handlers of every type stand among the others makes no
difference.  A consumer that asks the candidates one after the other comes to the same handler. -/
theorem choose_eq_search (handlers : List Handler) (type : String) (accepts : Nat → Bool) :
    (ofHandlers handlers).choose type accepts =
      (Handler.search handlers type accepts).map (·.slot) ∧
    ((ofHandlers handlers).choose type accepts = none ↔
      ∀ h ∈ handlers, h.types.matches type = true → accepts h.slot = false) ∧
    (∀ others : List Handler,
      others.filter (·.types = .all) = handlers.filter (·.types = .all) →
      others.filter (·.types ≠ .all) = handlers.filter (·.types ≠ .all) →
        (ofHandlers others).choose type accepts = (ofHandlers handlers).choose type accepts) ∧
    ∀ (cast : Cast) (event : Event), event.eventType = type →
      (∀ history slot, cast history (.accepts slot event) = .ok (accepts slot)) →
        ∀ s history, ∃ asked,
          (Work.firstThat (fun slot => .request (.accepts slot event))
            ((ofHandlers handlers).candidates event.eventType)).Gives cast ⟨s, history⟩ asked s
              (.done ((ofHandlers handlers).choose type accepts)) := by
  refine ⟨choose_ofHandlers handlers type accepts, ?_, fun others hall htyped => ?_, ?_⟩
  · rw [choose_ofHandlers, Option.map_eq_none_iff]
    exact search_eq_none_iff
  · rw [choose_ofHandlers, choose_ofHandlers, search_of_filter_eq hall htyped]
  · rintro cast event rfl haccepts s history
    let question : Nat → Except String Bool → Asked := fun slot answer =>
      ⟨.accepts slot event, answer⟩
    have hasks : ∀ slot history, ∃ answer,
        (Work.request (.accepts slot event)).Gives cast ⟨s, history⟩ [question slot answer] s
          (.done answer) := fun slot history => ⟨_, .cue rfl rfl .done⟩
    obtain ⟨asked, hpicked⟩ := Work.gives_firstThat hasks
      ((ofHandlers handlers).candidates event.eventType) history
    -- what was asked was answered by the cast
    have hfound : ∀ {progress result}, (Work.firstThat (fun slot => .request (.accepts slot event))
        ((ofHandlers handlers).candidates event.eventType)).Gives cast ⟨s, history⟩ asked s
          progress → Picks question ((ofHandlers handlers).candidates event.eventType) asked result →
        result = .ok ((ofHandlers handlers).choose event.eventType accepts) := by
      intro progress result hgives hpicks
      refine hpicks.eq_find? fun slot answer hmem => ?_
      obtain ⟨before, hanswer⟩ := hgives.loyal.of_mem hmem rfl
      exact hanswer.trans (haccepts _ slot)
    rcases hpicked with ⟨found, hpicks, hgives⟩ | ⟨text, hpicks, hgives⟩
    · rw [← Except.ok.inj (hfound hgives hpicks)]
      exact ⟨asked, hgives⟩
    · cases hfound hgives hpicks

/-- A handler that names a type twice declines, and the next one that names it is chosen before a
handler of every type, which may stand anywhere. -/
theorem choose_eq_search_declined :
    let twice : Handler := ⟨1, .many ["t", "u", "t"]⟩
    let handlers : List Handler := [⟨0, .all⟩, twice, ⟨2, .one "t"⟩]
    let others : List Handler := [twice, ⟨2, .one "t"⟩, ⟨0, .all⟩]
    (ofHandlers handlers).choose "t" (· ≠ 1) = some 2 ∧
      (ofHandlers others).choose "t" (· ≠ 1) = (ofHandlers handlers).choose "t" (· ≠ 1) := by
  intro twice handlers others
  obtain ⟨hsearch, -, horder, -⟩ := choose_eq_search handlers "t" (· ≠ 1)
  refine ⟨hsearch.trans ?_, horder others ?_ ?_⟩
  · decide
  · decide
  · decide

end Routes

end EventRelay
