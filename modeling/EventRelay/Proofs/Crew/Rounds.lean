import EventRelay.Proofs.Crew.Roster
import Mathlib.Data.List.Induction

/-!
# Turns at the ledger

The steps of a crew are single requests, and a worker may lose its turn at any of them.  Where only
the calls of the ledger are interleaved, a worker that has made one goes on until it is about to make
the next: the clock, the transport and user code are asked right behind what the same worker asked
before (`Turnwise`).  New workers may begin at any time.  So nobody else calls the ledger between two
of its calls by one worker, as far as what the worker asks in between follows the first of them
(`Turnwise.none_between`).
-/

namespace EventRelay

def Request.isLedgerCall : Request → Bool
  | .find _ | .create _ | .update _ | .tombstone _ _ | .due _ _ => true
  | .now | .send _ | .accepts _ _ | .handle _ _ | .supports _ _ | .escalate _ _ _ _ => false

namespace Entry

/-- A worker has made a request, or has crashed over it. -/
def isTurn : Entry → Bool
  | .asked _ _ _ | .crashed _ _ => true
  | .began _ | .handedOut _ _ => false

def isLedgerCall : Entry → Bool
  | .asked _ request _ | .crashed _ request => request.isLedgerCall
  | .began _ | .handedOut _ _ => false

theorem cleared?_eq_none {e : Entry} (h : e.isLedgerCall = false) : e.cleared? = none := by
  cases e with
  | began | handedOut => rfl
  | asked i request | crashed i request =>
    cases request with
    | now | send | accepts | handle | supports | escalate => rfl
    | find | create | update | tombstone | due => cases h

end Entry

/-- The last request of all was made by this worker, and was answered. -/
def hasTurn (i : Nat) (log : List Entry) : Bool :=
  ((log.filter Entry.isTurn).getLast?.bind (Entry.ask? i)).isSome

theorem hasTurn_concat {i : Nat} {log : List Entry} {e : Entry} (h : e.isTurn = true) :
    hasTurn i (log ++ [e]) = (e.ask? i).isSome := by
  unfold hasTurn
  rw [List.filter_append, List.filter_cons_of_pos h, List.filter_nil, List.getLast?_concat]
  rfl

theorem hasTurn_concat_idle {i : Nat} {log : List Entry} {e : Entry} (h : e.isTurn = false) :
    hasTurn i (log ++ [e]) = hasTurn i log := by
  unfold hasTurn
  rw [List.filter_append, List.filter_cons_of_neg (ne_true_of_eq_false h), List.filter_nil,
    List.append_nil]

/-- A worker makes a call of the ledger, or goes on with what it was doing, or begins. -/
def Entry.InTurn (log : List Entry) : Entry → Prop
  | .asked i request _ => request.isLedgerCall = true ∨ (asksOf i log).isEmpty = true ∨
      hasTurn i log = true
  | .began _ | .crashed _ _ | .handedOut _ _ => True

instance (log : List Entry) : (e : Entry) → Decidable (e.InTurn log)
  | .asked _ _ _ => inferInstanceAs (Decidable (_ ∨ _ ∨ _))
  | .began _ | .crashed _ _ | .handedOut _ _ => .isTrue trivial

/-- **Workers take turns at the ledger only.** -/
def Turnwise (log : List Entry) : Prop :=
  Throughout Entry.InTurn log

instance (log : List Entry) : Decidable (Turnwise log) :=
  inferInstanceAs (Decidable (Throughout Entry.InTurn log))

section Between

variable {before since rest : List Entry} {i : Nat} {first request : Request} {answer : first.Reply}
  {reply : request.Reply}

/-- A worker that has asked something before, and asks for what is no call of the ledger, has had
its turn. -/
theorem Turnwise.hasTurn_of_local
    (h : Turnwise (before ++ .asked i first answer :: (since ++ .asked i request reply :: rest)))
    (hlocal : request.isLedgerCall = false) :
    hasTurn i (before ++ .asked i first answer :: since) = true := by
  have hturn := h (before ++ .asked i first answer :: since) (.asked i request reply) rest (by simp)
  rcases hturn with hcall | hempty | hturn
  · rw [hlocal] at hcall
    cases hcall
  · rw [asksOf_cut] at hempty
    simp at hempty
  · exact hturn

theorem Turnwise.none_since (h : Turnwise (before ++ .asked i first answer :: since))
    (hturn : hasTurn i (before ++ .asked i first answer :: since) = true)
    (hsince : ∀ asked ∈ asksOf i since, asked.1.isLedgerCall = false) :
    ∀ e ∈ since, e.isLedgerCall = false := by
  induction since using List.reverseRecOn with
  | nil => exact List.forall_mem_nil _
  | append_singleton since last ih =>
    have hcut : before ++ .asked i first answer :: (since ++ [last]) =
        (before ++ .asked i first answer :: since) ++ [last] := by simp
    rw [asksOf_concat] at hsince
    have hprior : Turnwise (before ++ .asked i first answer :: since) :=
      (throughout_concat.mp (hcut ▸ h)).1
    have hasked : ∀ asked ∈ asksOf i since, asked.1.isLedgerCall = false := fun asked hmem =>
      hsince asked (List.mem_append_left _ hmem)
    rw [hcut] at hturn
    cases hlast : last.isTurn with
    | false =>
      -- somebody has begun, and the worker still has its turn
      rw [hasTurn_concat_idle hlast] at hturn
      refine List.forall_mem_append.mpr ⟨ih hprior hturn hasked, List.forall_mem_singleton.mpr ?_⟩
      cases last with
      | began | handedOut => rfl
      | asked | crashed => cases hlast
    | true =>
      rw [hasTurn_concat hlast] at hturn
      obtain ⟨⟨request, reply⟩, hown⟩ := Option.isSome_iff_exists.mp hturn
      obtain rfl := eq_of_ask? hown
      have hlocal : request.isLedgerCall = false :=
        hsince ⟨request, reply⟩ (List.mem_append_right _ (by simp [hown]))
      exact List.forall_mem_append.mpr
        ⟨ih hprior (h.hasTurn_of_local hlocal) hasked, List.forall_mem_singleton.mpr hlocal⟩

/-- Between a worker's step and a later one that is no call of the ledger, nobody has called the
ledger if the worker itself has not. -/
theorem Turnwise.none_between
    (h : Turnwise (before ++ .asked i first answer :: (since ++ .asked i request reply :: rest)))
    (hlocal : request.isLedgerCall = false)
    (hsince : ∀ asked ∈ asksOf i since, asked.1.isLedgerCall = false) :
    ∀ e ∈ since, e.isLedgerCall = false := by
  have hcut : before ++ .asked i first answer :: (since ++ .asked i request reply :: rest) =
      (before ++ .asked i first answer :: since) ++ .asked i request reply :: rest := by simp
  exact Turnwise.none_since (throughout_append.mp (hcut ▸ h)).1 (h.hasTurn_of_local hlocal) hsince

end Between

end EventRelay
