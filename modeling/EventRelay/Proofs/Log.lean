import Mathlib.Data.List.Basic

/-!
# Logs

A log grows at its end, and what is said of an entry concerns what stands in front of it.
-/

namespace EventRelay

theorem concat_eq_append_cons {α : Type} {log before since : List α} {x y : α} :
    log ++ [x] = before ++ y :: since ↔
      (since = [] ∧ before = log ∧ y = x) ∨
        ∃ since', since = since' ++ [x] ∧ log = before ++ y :: since' := by
  constructor
  · intro h
    rcases List.eq_nil_or_concat since with rfl | ⟨since', z, rfl⟩
    · obtain ⟨rfl, hy⟩ := List.append_inj' h rfl
      exact .inl ⟨rfl, rfl, (List.singleton_inj.mp hy).symm⟩
    · rw [List.concat_eq_append, ← List.cons_append, ← List.append_assoc] at h
      obtain ⟨hlog, hz⟩ := List.append_inj' h rfl
      obtain rfl := List.singleton_inj.mp hz
      exact .inr ⟨since', List.concat_eq_append .., hlog⟩
  · rintro (⟨rfl, rfl, rfl⟩ | ⟨since', rfl, rfl⟩)
    · rfl
    · simp

theorem cut_cases {α : Type} {before since before' since' : List α} {x y : α}
    (h : before ++ x :: since = before' ++ y :: since') :
    (before = before' ∧ x = y ∧ since = since') ∨
      (∃ between, before' = before ++ x :: between ∧ since = between ++ y :: since') ∨
        ∃ between, before = before' ++ y :: between ∧ since' = between ++ x :: since := by
  rcases List.append_eq_append_iff.mp h with ⟨between, hbefore, hsince⟩ | ⟨between, hbefore, hsince⟩
  · cases between with
    | nil =>
      obtain ⟨hx, hrest⟩ := List.cons.inj hsince
      exact .inl ⟨by rw [hbefore, List.append_nil], hx, hrest⟩
    | cons z between =>
      obtain ⟨rfl, hrest⟩ := List.cons.inj hsince
      exact .inr (.inl ⟨between, hbefore, hrest⟩)
  · cases between with
    | nil =>
      obtain ⟨hx, hrest⟩ := List.cons.inj hsince
      exact .inl ⟨by rw [hbefore, List.append_nil], hx.symm, hrest.symm⟩
    | cons z between =>
      obtain ⟨rfl, hrest⟩ := List.cons.inj hsince
      exact .inr (.inr ⟨between, hbefore, hrest⟩)

theorem length_filterMap_le_one {α β : Type} {f : α → Option β} {log : List α}
    (h : ∀ before x between y since b, log = before ++ x :: between ++ y :: since →
      f x = some b → f y = none) : (log.filterMap f).length ≤ 1 := by
  induction log with
  | nil => exact Nat.zero_le 1
  | cons x rest ih =>
    cases hx : f x with
    | none =>
      rw [List.filterMap_cons_none hx]
      refine ih fun before x' between y since b hrest hb => ?_
      exact h (x :: before) x' between y since b (by rw [hrest]; rfl) hb
    | some b =>
      have hnone : rest.filterMap f = [] := by
        refine List.filterMap_eq_nil_iff.mpr fun y hy => ?_
        obtain ⟨between, since, rfl⟩ := List.append_of_mem hy
        exact h [] x between y since b rfl hx
      rw [List.filterMap_cons_some hx, hnone]
      exact Nat.le_refl 1

theorem length_le_one_of_nodup {α : Type} {log : List α} (hnodup : log.Nodup)
    (h : ∀ x ∈ log, ∀ y ∈ log, x = y) : log.length ≤ 1 := by
  match log with
  | [] => exact Nat.zero_le 1
  | [x] => exact Nat.le_refl 1
  | x :: y :: rest =>
    have hsame := h x (by simp) y (by simp)
    simp [hsame] at hnodup

theorem getElem?_set_cases {α : Type} {l : List α} {i j : Nat} {a b : α}
    (h : (l.set i a)[j]? = some b) : (i = j ∧ b = a) ∨ (i ≠ j ∧ l[j]? = some b) := by
  rw [List.getElem?_set] at h
  by_cases hij : i = j
  · rw [if_pos hij] at h
    split at h
    · exact .inl ⟨hij, (Option.some.inj h).symm⟩
    · cases h
  · rw [if_neg hij] at h
    exact .inr ⟨hij, h⟩

/-- A property of each entry of a log and of what stands in front of it. -/
def Throughout {α : Type} (P : List α → α → Prop) (log : List α) : Prop :=
  ∀ before x since, log = before ++ x :: since → P before x

theorem throughout_nil {α : Type} {P : List α → α → Prop} : Throughout P [] := by
  intro before x since hlog
  cases before <;> cases hlog

theorem throughout_concat {α : Type} {P : List α → α → Prop} {log : List α} {x : α} :
    Throughout P (log ++ [x]) ↔ Throughout P log ∧ P log x := by
  constructor
  · intro h
    refine ⟨fun before y since hlog => ?_, h log x [] rfl⟩
    exact h before y (since ++ [x]) (concat_eq_append_cons.mpr (.inr ⟨since, rfl, hlog⟩))
  · rintro ⟨hlog, hx⟩ before y since h
    rcases concat_eq_append_cons.mp h with ⟨-, rfl, rfl⟩ | ⟨since', -, h'⟩
    · exact hx
    · exact hlog before y since' h'

theorem throughout_cons {α : Type} {P : List α → α → Prop} {log : List α} {x : α} :
    Throughout P (x :: log) ↔ P [] x ∧ Throughout (fun before => P (x :: before)) log := by
  constructor
  · intro h
    refine ⟨h [] x log rfl, fun before y since hlog => ?_⟩
    exact h (x :: before) y since (congrArg (x :: ·) hlog)
  · rintro ⟨hx, hlog⟩ before y since h
    cases before with
    | nil =>
      obtain ⟨rfl, -⟩ := List.cons.inj h
      exact hx
    | cons z before =>
      obtain ⟨rfl, hrest⟩ := List.cons.inj h
      exact hlog before y since hrest

instance Throughout.decidable {α : Type} : {P : List α → α → Prop} →
    [∀ before x, Decidable (P before x)] → (log : List α) → Decidable (Throughout P log)
  | _, _, [] => .isTrue throughout_nil
  | P, _, x :: rest =>
    let _ : Decidable (Throughout (fun before => P (x :: before)) rest) :=
      Throughout.decidable rest
    decidable_of_iff (P [] x ∧ Throughout (fun before => P (x :: before)) rest) throughout_cons.symm

theorem throughout_append {α : Type} {P : List α → α → Prop} {first rest : List α} :
    Throughout P (first ++ rest) ↔
      Throughout P first ∧ Throughout (fun before => P (first ++ before)) rest := by
  induction first generalizing P with
  | nil => exact ⟨fun h => ⟨throughout_nil, h⟩, fun h => h.2⟩
  | cons x first ih => rw [List.cons_append, throughout_cons, throughout_cons, ih, and_assoc]; rfl

end EventRelay
