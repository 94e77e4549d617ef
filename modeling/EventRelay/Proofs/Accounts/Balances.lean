import EventRelay.Accounts.Basic
import EventRelay.Proofs.Log
import Mathlib.Data.List.Induction

/-!
# Balances and what is told of them

What a call does to the balances of a book, which events it tells of, and how balances are reckoned
from events alone.  `Call.effect` is the table of all calls.  It has one line in which the two fall
apart: a transfer whose source has the amount and whose target was never opened has taken the amount
by the time it fails, and tells of nothing (`Call.Strays`).

Where no call strays, a call that fails changes nothing, a transfer changes no total, and the balances
are what they are reckoned to be (`recounted_eq`).
-/

namespace EventRelay.Accounts

/-! ### Lists of balances -/

def total : List (String × Int) → Int
  | [] => 0
  | (_, balance) :: rest => balance + total rest

section Balances

variable {balances : List (String × Int)} {account : String} {old : Int}

theorem lookup_cons_ite (other first : String) (balance : Int) (rest : List (String × Int)) :
    ((first, balance) :: rest).lookup other =
      if other = first then some balance else rest.lookup other := by
  by_cases h : other = first
  · rw [if_pos h, h, List.lookup_cons_self]
  · rw [if_neg h, List.lookup_cons, beq_false_of_ne h]

theorem lookup_setBalance (account other : String) (new : Int) (balances : List (String × Int)) :
    (setBalance account new balances).lookup other =
      if other = account then some new else balances.lookup other := by
  induction balances with
  | nil => rw [setBalance, lookup_cons_ite]
  | cons entry rest ih =>
    obtain ⟨first, balance⟩ := entry
    unfold setBalance
    by_cases hfirst : first = account
    · rw [if_pos hfirst, lookup_cons_ite, lookup_cons_ite, hfirst]
      split <;> rfl
    · rw [if_neg hfirst, lookup_cons_ite, lookup_cons_ite, ih]
      by_cases hother : other = first
      · rw [if_pos hother, if_pos hother, if_neg (by rw [hother]; exact hfirst)]
      · rw [if_neg hother, if_neg hother]

theorem setBalance_same (h : balances.lookup account = some old) :
    setBalance account old balances = balances := by
  induction balances with
  | nil => cases h
  | cons entry rest ih =>
    obtain ⟨first, balance⟩ := entry
    unfold setBalance
    by_cases hfirst : first = account
    · rw [lookup_cons_ite, if_pos hfirst.symm] at h
      rw [if_pos hfirst, hfirst, Option.some.inj h]
    · rw [lookup_cons_ite, if_neg (Ne.symm hfirst)] at h
      rw [if_neg hfirst, ih h]

theorem total_setBalance (h : balances.lookup account = some old) (new : Int) :
    total (setBalance account new balances) = total balances - old + new := by
  induction balances with
  | nil => cases h
  | cons entry rest ih =>
    obtain ⟨first, balance⟩ := entry
    unfold setBalance
    by_cases hfirst : first = account
    · rw [lookup_cons_ite, if_pos hfirst.symm] at h
      rw [if_pos hfirst, ← Option.some.inj h]
      simp only [total]
      omega
    · rw [lookup_cons_ite, if_neg (Ne.symm hfirst)] at h
      have hrest := ih h
      rw [if_neg hfirst]
      simp only [total] at hrest ⊢
      omega

end Balances

/-! ### Calls -/

inductive Call where
  | opening (account : String) (initial : Int)
  | withdrawal (account : String) (amount : Int)
  | deposit (account : String) (amount : Int)
  | transfer (t : Transfer)

/-- What a call gives its caller, what balances it leaves, and what it tells of: the types and the
payloads of its events. -/
structure Effect where
  result : Except AccountError Unit
  balances : List (String × Int)
  told : List (String × Json)

def taken (account : String) (amount : Int) (balances : List (String × Int)) :
    Except AccountError (List (String × Int)) :=
  match balances.lookup account with
  | none => .error (.notOpened account)
  | some balance =>
    if balance < amount then .error (.insufficientFunds balance amount)
    else .ok (setBalance account (balance - amount) balances)

def added (account : String) (amount : Int) (balances : List (String × Int)) :
    Except AccountError (List (String × Int)) :=
  match balances.lookup account with
  | none => .error (.notOpened account)
  | some balance => .ok (setBalance account (balance + amount) balances)

def opened (account : String) (initial : Int) : String × Json :=
  ("account.opened", Keeper.payload account "initial_balance" initial)

def withdrawn (account : String) (amount : Int) : String × Json :=
  ("account.withdrawn", Keeper.payload account "amount" amount)

def deposited (account : String) (amount : Int) : String × Json :=
  ("account.deposited", Keeper.payload account "amount" amount)

namespace Call

/-- **What calls do.** -/
def effect (balances : List (String × Int)) : Call → Effect
  | .opening account initial =>
    ⟨.ok (), setBalance account initial balances, [opened account initial]⟩
  | .withdrawal account amount =>
    match taken account amount balances with
    | .error e => ⟨.error e, balances, []⟩
    | .ok next => ⟨.ok (), next, [withdrawn account amount]⟩
  | .deposit account amount =>
    match added account amount balances with
    | .error e => ⟨.error e, balances, []⟩
    | .ok next => ⟨.ok (), next, [deposited account amount]⟩
  | .transfer t =>
    match taken t.source t.amount balances with
    | .error e => ⟨.error e, balances, []⟩
    | .ok between =>
      match added t.target t.amount between with
      | .error e => ⟨.error e, between, []⟩
      | .ok next => ⟨.ok (), next, [withdrawn t.source t.amount, deposited t.target t.amount]⟩

/-- The call is a transfer of something that its source has to a target that there is not. -/
def Strays (balances : List (String × Int)) : Call → Prop
  | .transfer t => t.amount ≠ 0 ∧ (∃ balance, balances.lookup t.source = some balance ∧
      t.amount ≤ balance) ∧ balances.lookup t.target = none
  | .opening _ _ | .withdrawal _ _ | .deposit _ _ => False

end Call

def Fits64 (amount : Int) : Prop :=
  leastInt64 ≤ amount ∧ amount ≤ greatestInt64

def TakenFits (account : String) (amount : Int) (balances : List (String × Int)) : Prop :=
  Fits64 amount ∧ ∀ balance, balances.lookup account = some balance → amount ≤ balance →
    Fits64 (balance - amount)

def AddedFits (account : String) (amount : Int) (balances : List (String × Int)) : Prop :=
  Fits64 amount ∧ ∀ balance, balances.lookup account = some balance → Fits64 (balance + amount)

/-- No amount in a call and no balance that it leaves overflows. -/
def Call.Fits (balances : List (String × Int)) : Call → Prop
  | .opening _ initial => Fits64 initial
  | .withdrawal account amount => TakenFits account amount balances
  | .deposit account amount => AddedFits account amount balances
  | .transfer t => TakenFits t.source t.amount balances ∧
      ∀ between, taken t.source t.amount balances = .ok between →
        AddedFits t.target t.amount between

section Effect

variable {balances next : List (String × Int)} {account : String} {amount : Int}

theorem taken_eq_ok (h : taken account amount balances = .ok next) :
    ∃ balance, balances.lookup account = some balance ∧ amount ≤ balance ∧
      next = setBalance account (balance - amount) balances := by
  unfold taken at h
  split at h
  · cases h
  · split at h
    · cases h
    · exact ⟨_, ‹_›, by omega, (Except.ok.inj h).symm⟩

theorem taken_of_lookup_none (h : balances.lookup account = none) :
    taken account amount balances = .error (.notOpened account) := by
  unfold taken
  rw [h]

theorem less_of_taken_eq_error {e : AccountError} {balance : Int}
    (h : taken account amount balances = .error e) (hlookup : balances.lookup account = some balance) :
    balance < amount ∧ e = .insufficientFunds balance amount := by
  unfold taken at h
  rw [hlookup] at h
  by_cases hless : balance < amount
  · simp only [if_pos hless] at h
    exact ⟨hless, (Except.error.inj h).symm⟩
  · simp only [if_neg hless] at h
    cases h

theorem taken_eq_error {e : AccountError} (h : taken account amount balances = .error e) :
    ¬ ∃ balance, balances.lookup account = some balance ∧ amount ≤ balance := by
  rintro ⟨balance, hlookup, hle⟩
  have hless := (less_of_taken_eq_error h hlookup).1
  omega

theorem added_eq_ok (h : added account amount balances = .ok next) :
    ∃ balance, balances.lookup account = some balance ∧
      next = setBalance account (balance + amount) balances := by
  unfold added at h
  split at h
  · cases h
  · exact ⟨_, ‹_›, (Except.ok.inj h).symm⟩

theorem added_eq_error {e : AccountError} (h : added account amount balances = .error e) :
    balances.lookup account = none := by
  unfold added at h
  split at h
  · assumption
  · cases h

theorem added_of_lookup_none (h : balances.lookup account = none) :
    added account amount balances = .error (.notOpened account) := by
  unfold added
  rw [h]

theorem lookup_eq_none_of_taken (h : taken account amount balances = .ok next) (other : String) :
    next.lookup other = none ↔ balances.lookup other = none := by
  obtain ⟨balance, hlookup, -, rfl⟩ := taken_eq_ok h
  rw [lookup_setBalance]
  by_cases hother : other = account
  · simp [hother, hlookup]
  · rw [if_neg hother]

theorem total_taken (h : taken account amount balances = .ok next) :
    total next = total balances - amount := by
  obtain ⟨balance, hlookup, -, rfl⟩ := taken_eq_ok h
  rw [total_setBalance hlookup]
  omega

theorem total_added (h : added account amount balances = .ok next) :
    total next = total balances + amount := by
  obtain ⟨balance, hlookup, rfl⟩ := added_eq_ok h
  rw [total_setBalance hlookup]
  omega

/-- **How a transfer ends**: it is refused and nothing has happened, or it strays, or both of its
parts work. -/
theorem Call.transfer_cases (t : Transfer) (balances : List (String × Int)) :
    (¬ (transfer t).Strays balances ∧
        ∃ e, (transfer t).effect balances = ⟨.error e, balances, []⟩) ∨
      ((transfer t).Strays balances ∧ ∃ e between, total between = total balances - t.amount ∧
        (transfer t).effect balances = ⟨.error e, between, []⟩) ∨
      (¬ (transfer t).Strays balances ∧ ∃ between next,
        taken t.source t.amount balances = .ok between ∧ added t.target t.amount between = .ok next ∧
        (transfer t).effect balances =
          ⟨.ok (), next, [withdrawn t.source t.amount, deposited t.target t.amount]⟩) := by
  cases htaken : taken t.source t.amount balances with
  | error e =>
    refine .inl ⟨fun hstrays => taken_eq_error htaken hstrays.2.1, e, ?_⟩
    simp only [effect, htaken]
  | ok between =>
    obtain ⟨balance, hsource, hle, hbetween⟩ := taken_eq_ok htaken
    cases hadded : added t.target t.amount between with
    | ok next =>
      refine .inr (.inr ⟨fun hstrays => ?_, between, next, rfl, hadded, ?_⟩)
      · obtain ⟨old, htarget, -⟩ := added_eq_ok hadded
        rw [(lookup_eq_none_of_taken htaken t.target).mpr hstrays.2.2] at htarget
        cases htarget
      · simp only [effect, htaken, hadded]
    | error e =>
      have htarget := (lookup_eq_none_of_taken htaken t.target).mp (added_eq_error hadded)
      have heffect : (transfer t).effect balances = ⟨.error e, between, []⟩ := by
        simp only [effect, htaken, hadded]
      by_cases hzero : t.amount = 0
      · rw [hzero, Int.sub_zero, setBalance_same hsource] at hbetween
        exact .inl ⟨fun hstrays => hstrays.1 hzero, e, by rw [heffect, hbetween]⟩
      · exact .inr (.inl ⟨⟨hzero, ⟨balance, hsource, hle⟩, htarget⟩, e, between,
          total_taken htaken, heffect⟩)

/-- **What calls leave when they fail**: they tell of nothing, and the balances are as they were
unless the call strays. -/
theorem Call.effect_of_error {c : Call} (h : (c.effect balances).result.isOk = false) :
    (c.effect balances).told = [] ∧
      ((c.effect balances).balances = balances ↔ ¬ c.Strays balances) := by
  cases c with
  | opening account initial => cases h
  | withdrawal account amount | deposit account amount =>
    simp only [effect] at h ⊢
    split at h
    · exact ⟨rfl, iff_of_true rfl id⟩
    · cases h
  | transfer t =>
    rcases transfer_cases t balances with ⟨hstrays, e, heffect⟩ |
      ⟨hstrays, e, between, htotal, heffect⟩ | ⟨-, between, next, -, -, heffect⟩
    · rw [heffect]
      exact ⟨rfl, iff_of_true rfl hstrays⟩
    · rw [heffect]
      refine ⟨rfl, iff_of_false (fun hsame => hstrays.1 ?_) (not_not_intro hstrays)⟩
      have hsame : between = balances := hsame
      rw [hsame] at htotal
      omega
    · rw [heffect] at h
      cases h

/-- **A transfer that does not stray keeps the total.** -/
theorem Call.total_transfer {t : Transfer} (h : ¬ (transfer t).Strays balances) :
    total ((transfer t).effect balances).balances = total balances := by
  rcases transfer_cases t balances with ⟨-, e, heffect⟩ | ⟨hstrays, -⟩ |
    ⟨-, between, next, htaken, hadded, heffect⟩
  · rw [heffect]
  · exact absurd hstrays h
  · rw [heffect]
    have hbetween := total_taken htaken
    have hnext := total_added hadded
    simp only
    omega

end Effect

/-! ### Balances from events -/

/-- What an event says about a balance. -/
inductive Posting where
  | set (amount : Int)
  | subtract (amount : Int)
  | add (amount : Int)

def Posting.on : Posting → Option Int → Option Int
  | .set amount, _ => some amount
  | .subtract amount, balance? => balance?.map (· - amount)
  | .add amount, balance? => balance?.map (· + amount)

/-- The account that an event is about, and what it says: an opened account is set, what was
withdrawn is subtracted, and what was deposited is added. -/
def posting? (told : String × Json) : Option (String × Posting) := do
  let account ← (told.2.get "account").text?
  match told.1 with
  | "account.opened" =>
    (told.2.get "initial_balance").signed?.map fun amount => (account, .set amount)
  | "account.withdrawn" =>
    (told.2.get "amount").signed?.map fun amount => (account, .subtract amount)
  | "account.deposited" => (told.2.get "amount").signed?.map fun amount => (account, .add amount)
  | _ => none

/-- The balances as they are reckoned by somebody who is told of one more event. -/
def recount (known : String → Option Int) (told : String × Json) : String → Option Int :=
  match posting? told with
  | none => known
  | some (account, posting) => fun other =>
    if other = account then posting.on (known account) else known other

def recounted (told : List (String × Json)) : String → Option Int :=
  told.foldl recount fun _ => none

def known (balances : List (String × Int)) : String → Option Int :=
  fun account => balances.lookup account

section Recount

variable {balances next : List (String × Int)} {account : String} {amount : Int}

theorem posting?_opened (account : String) (h : Fits64 amount) :
    posting? (opened account amount) = some (account, .set amount) := by
  have hread : (Json.integer amount).signed? = some amount := if_pos h.2
  show ((Json.integer amount).signed?.map fun amount => (account, Posting.set amount)) = _
  rw [hread]
  rfl

theorem posting?_withdrawn (account : String) (h : Fits64 amount) :
    posting? (withdrawn account amount) = some (account, .subtract amount) := by
  have hread : (Json.integer amount).signed? = some amount := if_pos h.2
  show ((Json.integer amount).signed?.map fun amount => (account, Posting.subtract amount)) = _
  rw [hread]
  rfl

theorem posting?_deposited (account : String) (h : Fits64 amount) :
    posting? (deposited account amount) = some (account, .add amount) := by
  have hread : (Json.integer amount).signed? = some amount := if_pos h.2
  show ((Json.integer amount).signed?.map fun amount => (account, Posting.add amount)) = _
  rw [hread]
  rfl

theorem recount_known {told : String × Json} {posting : Posting} {new : Int}
    (hread : posting? told = some (account, posting))
    (hnew : posting.on (balances.lookup account) = some new) :
    recount (known balances) told = known (setBalance account new balances) := by
  funext other
  simp only [recount, hread, known, lookup_setBalance, hnew]

theorem recount_opened (h : Fits64 amount) :
    recount (known balances) (opened account amount) =
      known (setBalance account amount balances) :=
  recount_known (posting?_opened account h) rfl

theorem recount_taken (h : taken account amount balances = .ok next) (hfits : Fits64 amount) :
    recount (known balances) (withdrawn account amount) = known next := by
  obtain ⟨balance, hlookup, -, rfl⟩ := taken_eq_ok h
  exact recount_known (posting?_withdrawn account hfits) (by rw [hlookup]; rfl)

theorem recount_added (h : added account amount balances = .ok next) (hfits : Fits64 amount) :
    recount (known balances) (deposited account amount) = known next := by
  obtain ⟨balance, hlookup, rfl⟩ := added_eq_ok h
  exact recount_known (posting?_deposited account hfits) (by rw [hlookup]; rfl)

/-- **What a call tells of is what it does**, unless it strays. -/
theorem Call.recount_effect {c : Call} (hfits : c.Fits balances) (h : ¬ c.Strays balances) :
    (c.effect balances).told.foldl recount (known balances) =
      known (c.effect balances).balances := by
  cases c with
  | opening account initial => exact recount_opened hfits
  | withdrawal account amount =>
    simp only [effect]
    split
    · rfl
    · exact recount_taken ‹_› hfits.1
  | deposit account amount =>
    simp only [effect]
    split
    · rfl
    · exact recount_added ‹_› hfits.1
  | transfer t =>
    rcases transfer_cases t balances with ⟨-, e, heffect⟩ | ⟨hstrays, -⟩ |
      ⟨-, between, next, htaken, hadded, heffect⟩
    · rw [heffect]
      rfl
    · exact absurd hstrays h
    · rw [heffect]
      have hdeposit := (hfits.2 between htaken).1
      rw [List.foldl_cons, List.foldl_cons, List.foldl_nil, recount_taken htaken hfits.1.1,
        recount_added hadded hdeposit]

end Recount

/-! ### Sequences of calls -/

/-- The balances that calls leave one after the other, and what they tell of. -/
def course (calls : List Call) : List (String × Int) × List (String × Json) :=
  calls.foldl (fun x c => ((c.effect x.1).balances, x.2 ++ (c.effect x.1).told)) ([], [])

def balancesAfter (calls : List Call) : List (String × Int) := (course calls).1

def toldBy (calls : List Call) : List (String × Json) := (course calls).2

section Sequences

variable {calls : List Call} {c : Call}

theorem balancesAfter_concat :
    balancesAfter (calls ++ [c]) = (c.effect (balancesAfter calls)).balances := by
  simp only [balancesAfter, course, List.foldl_append, List.foldl_cons, List.foldl_nil]

theorem toldBy_concat :
    toldBy (calls ++ [c]) = toldBy calls ++ (c.effect (balancesAfter calls)).told := by
  simp only [balancesAfter, toldBy, course, List.foldl_append, List.foldl_cons, List.foldl_nil]

/-- **Balances are what they are reckoned to be**, as long as no call strays. -/
theorem recounted_eq (hfits : Throughout (fun before c => c.Fits (balancesAfter before)) calls)
    (hstrays : Throughout (fun before c => ¬ c.Strays (balancesAfter before)) calls) :
    recounted (toldBy calls) = known (balancesAfter calls) := by
  induction calls using List.reverseRecOn with
  | nil => rfl
  | append_singleton calls c ih =>
    obtain ⟨hfits, hcall⟩ := throughout_concat.mp hfits
    obtain ⟨hstrays, hkeeps⟩ := throughout_concat.mp hstrays
    rw [toldBy_concat, balancesAfter_concat, recounted, List.foldl_append]
    have hbefore := ih hfits hstrays
    unfold recounted at hbefore
    rw [hbefore]
    exact Call.recount_effect hcall hkeeps

end Sequences

end EventRelay.Accounts
