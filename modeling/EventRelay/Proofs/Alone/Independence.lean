import Mathlib.Data.List.Forall2
import Mathlib.Data.List.Perm.Basic
import Mathlib.Logic.Equiv.Basic
import EventRelay.Proofs.Alone.Delivery
import EventRelay.Proofs.Alone.Twins
import EventRelay.Proofs.Crew.Publications
import EventRelay.Proofs.Crew.Reopening
import EventRelay.Proofs.Crew.Trail

/-!
# Calls about different things

A call on a ledger concerns the rows about one thing: those with one event, action and owner group,
the deleted ones among them.  All other rows it leaves as they are (`Store.Elsewhere`), and of what it
finds only its own rows and the number of the next row depend on the ledger (`Store.Twins`).  So it is
carried out alike on two ledgers that have the same rows about its thing (`Work.Twins.run`).

That a call about something else came first is such a difference.  `Errand.independent` says that two
calls about different things may change places: what they come to and what they ask of others remains,
and so do the rows, up to the numbers of those that the two calls have made.
-/

namespace EventRelay

open Work (Progress Phase)

/-! ### Surroundings that stand still -/

/-- A clock that stands still, and a transport and user code that answer by what they are asked. -/
def Cast.fixed (answers : (request : Request) → request.Reply) : Cast :=
  fun _ request => answers request

theorem Work.Gives.overflow {α : Type} {cast : Cast} {s s' : Store} {history : List Asked}
    {request : Request} {next : request.Reply → Work α} {overflow : Overflow}
    (h : s.serve request = some (.error overflow, s')) :
    (Work.ask request next).Gives cast ⟨s, history⟩ [] s' (.crashed overflow.message) := by
  unfold Gives
  rw [run, Cast.reply, h, List.append_nil]

/-! ### What is asked of others, and what numbers are given -/

/-- Everything that was not asked of the ledger, in its order. -/
def cues (asked : List Asked) : List Request :=
  (asked.map Sigma.fst).filter (·.isCall = false)

def Asked.issue? : Asked → Option (Key × Int)
  | ⟨.create _, .ok (.created r)⟩ => some (r.key, r.id)
  | _ => none

/-- The numbers that were given to new rows. -/
def issued (asked : List Asked) : List (Key × Int) :=
  asked.filterMap Asked.issue?

theorem cues_cons_aside {request : Request} (hcall : request.isCall = false)
    (reply : request.Reply) (asked : List Asked) :
    cues (⟨request, reply⟩ :: asked) = request :: cues asked := by
  simp [cues, hcall]

theorem cues_cons_call {request : Request} (hcall : request.isCall = true)
    (reply : request.Reply) (asked : List Asked) :
    cues (⟨request, reply⟩ :: asked) = cues asked := by
  simp [cues, hcall]

theorem issued_cons_none {x : Asked} (h : x.issue? = none) (asked : List Asked) :
    issued (x :: asked) = issued asked :=
  List.filterMap_cons_none h

theorem issued_append (asked asked' : List Asked) :
    issued (asked ++ asked') = issued asked ++ issued asked' :=
  List.filterMap_append

/-- The same request on both ledgers, apart from the number of a row that is spoken of. -/
inductive Request.Twin (key : Key) (first second : Int) (made : Bool) : Request → Request → Prop
  | same {request : Request} (h : request.isAlarm = false) :
      Twin key first second made request request
  | alarm {slot : Nat} {event : Event} {r r₂ : Record} {reason : String} (hkey : r.key = key)
      (h : Record.Twin first second made r r₂) :
      Twin key first second made (.escalate slot event r reason) (.escalate slot event r₂ reason)

/-! ### Ledgers -/

def Key.subject (key : Key) : Key :=
  .active key.eventId key.action key.ownerGroup

namespace Store

variable {s s' s'' s₂ : Store} {key : Key} {first second : Int} {made : Bool} {r r₂ : Record}

/-- **Keyed ledgers have the same rows where they find the same**, up to a change of the rows. -/
theorem Keyed.perm_map {t : Store} {f : Record → Record} (hs : s.Keyed) (ht : t.Keyed)
    (hkey : ∀ r, (f r).key = r.key) (hfind : ∀ key, t.find? key = (s.find? key).map f) :
    t.rows.Perm (s.rows.map f) := by
  have hnodup : (s.rows.map f).Nodup := by
    refine List.Nodup.of_map Record.key ?_
    rw [List.map_map, show Record.key ∘ f = Record.key from funext hkey]
    exact hs
  refine (List.perm_ext_iff_of_nodup (List.Nodup.of_map _ ht) hnodup).mpr fun r => ?_
  rw [ht.mem_iff, hfind, Option.map_eq_some_iff, List.mem_map]
  constructor
  · rintro ⟨x, hx, rfl⟩
    exact ⟨x, mem_of_find? hx, rfl⟩
  · rintro ⟨x, hx, rfl⟩
    exact ⟨x, by rw [hkey]; exact hs.find? hx, rfl⟩

/-- **What a call leaves alone.** -/
structure Elsewhere (key : Key) (s s' : Store) : Prop where
  find : ∀ other : Key, other.subject ≠ key.subject → s'.find? other = s.find? other
  keyed : s.Keyed → s'.Keyed

theorem Elsewhere.refl (key : Key) (s : Store) : Elsewhere key s s :=
  ⟨fun _ _ => rfl, id⟩

theorem Elsewhere.trans (h : Elsewhere key s s') (h' : Elsewhere key s' s'') :
    Elsewhere key s s'' :=
  ⟨fun other hother => (h'.find other hother).trans (h.find other hother), h'.keyed ∘ h.keyed⟩

theorem Elsewhere.mem_iff (h : Elsewhere key s s') (hkeyed : s.Keyed)
    (hr : r.subject ≠ key.subject) : r ∈ s'.rows ↔ r ∈ s.rows := by
  rw [(h.keyed hkeyed).mem_iff, hkeyed.mem_iff, h.find r.key hr]

/-- The key of what a call is to change. -/
def Call.key? : Call → Option Key
  | .create r | .update r | .tombstone r _ => some r.key
  | .find _ | .due _ _ => none

theorem Elsewhere.performs {c : Call} {response : Response} (h : s.Performs c response s')
    (hc : c.key? = some key) : Elsewhere key s s' where
  keyed hkeyed := hkeyed.performs h
  find other hother := by
    cases h with
    | found | selected | existing | refused | overflowed | kept => rfl
    | @created r hfree =>
      obtain rfl := Option.some.inj hc
      rw [find?_append, if_neg fun h => hother ?_, Option.or_none]
      rw [← h]
      rfl
    | @updated r stored hfind =>
      obtain rfl := Option.some.inj hc
      exact find?_replace_of_ne fun h => hother (by rw [← h]; rfl)
    | @deleted r stored now hfind =>
      obtain rfl := Option.some.inj hc
      have hstored : stored.key = r.key := key_of_find? hfind
      rw [find?_refile, if_neg fun h => hother ?_, if_neg fun h => hother ?_]
      · rw [← hstored, h]
      · rw [← hstored, ← h]
        rfl
    | @lost r stored now o hfind =>
      obtain rfl := Option.some.inj hc
      rw [find?_erase, if_neg fun h => hother (by rw [h])]

theorem Elsewhere.perform {c : Call} (hc : c.key? = some key) (h : (s.perform c).2 = s') :
    Elsewhere key s s' :=
  h ▸ .performs (s.performs c) hc

/-! #### Two ledgers -/

/-- **Ledgers on which a call is carried out alike.** -/
structure Twins (key : Key) (first second : Int) (made : Bool) (s s₂ : Store) : Prop where
  own : Option.Rel (Record.Twin first second made) (s.find? key) (s₂.find? key)
  beside : ∀ other : Key, other.subject = key.subject → other ≠ key →
    s₂.find? other = s.find? other
  next : s.lastId + 1 = first + made.toNat
  next₂ : s₂.lastId + 1 = second + made.toNat

namespace Twins

theorem of_find? (hnext : s.lastId + 1 = first) (hnext₂ : s₂.lastId + 1 = second)
    (h : ∀ other : Key, other.subject = key.subject → s₂.find? other = s.find? other) :
    s.Twins key first second false s₂ where
  own := by
    rw [h key rfl]
    cases s.find? key with
    | none => exact .none
    | some r => exact .some (.same r)
  beside other hother _ := h other hother
  next := hnext.trans (Int.add_zero _).symm
  next₂ := hnext₂.trans (Int.add_zero _).symm

theorem own_cases (h : s.Twins key first second made s₂) :
    (s.find? key = none ∧ s₂.find? key = none) ∨
      ∃ row row₂, s.find? key = some row ∧ s₂.find? key = some row₂ ∧
        Record.Twin first second made row row₂ := by
  have hown := h.own
  generalize s.find? key = row at hown ⊢
  generalize s₂.find? key = row₂ at hown ⊢
  cases hown with
  | none => exact .inl ⟨rfl, rfl⟩
  | some htwin => exact .inr ⟨_, _, rfl, rfl, htwin⟩

theorem find?_eq (h : s.Twins key first second false s₂) {other : Key}
    (hother : other.subject = key.subject) : s₂.find? other = s.find? other := by
  by_cases hkey : other = key
  · subst hkey
    rcases h.own_cases with ⟨hfind, hfind₂⟩ | ⟨row, row₂, hfind, hfind₂, htwin⟩
    · rw [hfind, hfind₂]
    · cases htwin
      rw [hfind, hfind₂]
  · exact h.beside other hother hkey

theorem next_eq (h : s.Twins key first second false s₂) : s.lastId + 1 = first :=
  h.next.trans (Int.add_zero _)

theorem next₂_eq (h : s.Twins key first second false s₂) : s₂.lastId + 1 = second :=
  h.next₂.trans (Int.add_zero _)

theorem extended (h : s.Twins key first second false s₂) (hkey : r.key = key)
    (hfree : s.find? key = none) (htwin : Record.Twin first second true r r₂) :
    (s.extended r).Twins key first second true (s₂.extended r₂) where
  own := by
    subst hkey
    have hfree₂ := (h.find?_eq rfl).trans hfree
    rw [← htwin.key_eq] at hfree₂
    rw [find?_extended hfree, ← htwin.key_eq, find?_extended hfree₂]
    exact .some htwin
  beside other hother hne := by
    subst hkey
    rw [find?_extended_of_ne (Ne.symm hne), find?_extended_of_ne (htwin.key_eq.symm ▸ Ne.symm hne)]
    exact h.beside other hother hne
  next := congrArg (· + 1) h.next_eq
  next₂ := congrArg (· + 1) h.next₂_eq

theorem replace (h : s.Twins key first second made s₂) (hkey : r.key = key)
    (htwin : Record.Twin first second made r r₂) :
    (s.replace r).Twins key first second made (s₂.replace r₂) where
  own := by
    have hkey₂ := htwin.key_eq.trans hkey
    rcases h.own_cases with ⟨hfind, hfind₂⟩ | ⟨row, row₂, hfind, hfind₂, -⟩
    · rw [find?_replace, find?_replace, hfind, hfind₂]
      exact .none
    · rw [find?_replace_of_eq hfind hkey, find?_replace_of_eq hfind₂ hkey₂]
      exact .some htwin
  beside other hother hne := by
    subst hkey
    rw [find?_replace_of_ne (Ne.symm hne), find?_replace_of_ne (htwin.key_eq.symm ▸ Ne.symm hne)]
    exact h.beside other hother hne
  next := h.next
  next₂ := h.next₂

/-- **Creating** gives the row that is there, or makes one: this is where a difference comes in. -/
theorem create (h : s.Twins key first second false s₂) (hkey : r.key = key) :
    (∃ winner : Record, winner.key = key ∧ s.create r = (.existing winner, s) ∧
        s₂.create r = (.existing winner, s₂)) ∨
      ∃ s' s₂', s.create r = (.created { r with id := first }, s') ∧
        s₂.create r = (.created { r with id := second }, s₂') ∧
        s'.Twins key first second true s₂' := by
  subst hkey
  have hsame := h.find?_eq rfl
  cases hfind : s.find? r.key with
  | some winner =>
    refine .inl ⟨winner, key_of_find? hfind, ?_, ?_⟩
    · simp only [Store.create, hfind]
    · simp only [Store.create, hsame, hfind]
  | none =>
    refine .inr ⟨_, _, ?_, ?_, h.extended (r := { r with id := first }) rfl hfind (.made rfl)⟩
    · simp only [Store.create, hfind, h.next_eq, Store.extended]
    · simp only [Store.create, hsame, hfind, h.next₂_eq, Store.extended]

/-- **A changed copy** is treated the same on both. -/
theorem update (h : s.Twins key first second made s₂) (hkey : r.key = key)
    (htwin : Record.Twin first second made r r₂) :
    (∃ accepted s' s₂', s.update r = (.ok accepted, s') ∧ s₂.update r₂ = (.ok accepted, s₂') ∧
        s'.Twins key first second made s₂') ∨
      ∃ overflow, s.update r = (.error overflow, s) ∧ s₂.update r₂ = (.error overflow, s₂) := by
  subst hkey
  have hkey₂ := htwin.key_eq
  rcases h.own_cases with ⟨hfind, hfind₂⟩ | ⟨stored, stored₂, hfind, hfind₂, hstored⟩
  · refine .inl ⟨false, s, s₂, ?_, ?_, h⟩
    · simp only [Store.update, hfind]
    · simp only [Store.update, hkey₂, hfind₂]
  · -- both are refused, or accepted, or cannot be counted up
    have hversion₂ : stored₂.version = r₂.version ↔ stored.version = r.version := by
      rw [hstored.version_eq, htwin.version_eq]
    by_cases hguard : stored.version = r.version ∧ stored.status.isTerminal = false
    · rcases htwin.revise_cases with ⟨hnext, hnext₂⟩ | ⟨overflow, hover, hover₂⟩
      · refine .inl ⟨true, _, _, ?_, ?_, h.replace (r := r.revised) rfl htwin.revised⟩
        · simp only [Store.update, hfind, hguard, hnext, and_self, if_true]
        · simp only [Store.update, hkey₂, hfind₂, hversion₂, hstored.status_eq, hguard, hnext₂,
            and_self, if_true]
      · refine .inr ⟨overflow, ?_, ?_⟩
        · simp only [Store.update, hfind, hguard, hover, and_self, if_true]
        · simp only [Store.update, hkey₂, hfind₂, hversion₂, hstored.status_eq, hguard, hover₂,
            and_self, if_true]
    · refine .inl ⟨false, s, s₂, ?_, ?_, h⟩
      · simp only [Store.update, hfind, if_neg hguard]
      · simp only [Store.update, hkey₂, hfind₂, hversion₂, hstored.status_eq, if_neg hguard]

theorem refile (h : s.Twins key first second false s₂) (old new : Record) :
    (s.refile old new).Twins key first second false (s₂.refile old new) :=
  of_find? h.next_eq h.next₂_eq fun other hother => by
    rw [find?_refile, find?_refile, h.find?_eq hother]

theorem erase (h : s.Twins key first second false s₂) (gone : Key) :
    (s.erase gone).Twins key first second false (s₂.erase gone) :=
  of_find? h.next_eq h.next₂_eq fun other hother => by
    rw [find?_erase, find?_erase, h.find?_eq hother]

/-- **A deletion**, which comes before a row is made, is the same on both. -/
theorem tombstone (h : s.Twins key first second false s₂) (hkey : r.key = key) (now : Instant) :
    ∃ done s' s₂', s.tombstone r now = (done, s') ∧ s₂.tombstone r now = (done, s₂') ∧
      s'.Twins key first second false s₂' := by
  subst hkey
  have hsame := h.find?_eq rfl
  cases hfind : s.find? r.key with
  | none =>
    refine ⟨.ok false, s, s₂, ?_, ?_, h⟩
    · simp only [Store.tombstone, hfind]
    · simp only [Store.tombstone, hsame, hfind]
  | some stored =>
    have hfind₂ := hsame.trans hfind
    by_cases hversion : stored.version = r.version
    · cases hrevise : (stored.deleted now).revise with
      | ok marked =>
        have hrevisable : stored.Revisable :=
          Record.revisable_of_version (r := stored.deleted now) rfl
            (Record.revisable_of_revise hrevise)
        exact ⟨_, _, _, tombstone_of_revisable hfind hversion hrevisable,
          tombstone_of_revisable hfind₂ hversion hrevisable, h.refile _ _⟩
      | error overflow =>
        refine ⟨.error overflow, _, _, ?_, ?_, h.erase r.key⟩
        · simp only [Store.tombstone, hfind, hversion, hrevise, if_true]
        · simp only [Store.tombstone, hfind₂, hversion, hrevise, if_true]
    · refine ⟨.ok false, s, s₂, ?_, ?_, h⟩
      · simp only [Store.tombstone, hfind, if_neg hversion]
      · simp only [Store.tombstone, hfind₂, if_neg hversion]

end Twins

end Store

/-! ### Two runs -/

/-- **How two runs compare** that begin at `s` and `s₂`. -/
structure Work.Alike (key : Key) (first second : Int) (phase phase' : Phase)
    (s s₂ : Store) (asked asked₂ : List Asked) (s' s₂' : Store) : Prop where
  /-- Whoever has come to a row keeps to it. -/
  stays : ∀ made, phase = .holding made → phase' = .holding made
  rows : s'.Twins key first second phase'.made s₂'
  elsewhere : s.Elsewhere key s'
  elsewhere₂ : s₂.Elsewhere key s₂'
  issued : issued asked = if phase'.made = phase.made then [] else [(key, first)]
  cues : List.Forall₂ (Request.Twin key first second phase'.made) (cues asked) (cues asked₂)

namespace Work.Alike

variable {key : Key} {first second : Int} {phase phase' phase₁ : Phase}
  {s s₁ s' s₂ s₁₂ s₂' : Store} {asked asked₂ : List Asked}

theorem ended (h : s'.Twins key first second phase.made s₂') (hs : s.Elsewhere key s')
    (hs₂ : s₂.Elsewhere key s₂') : Alike key first second phase phase s s₂ [] [] s' s₂' where
  stays _ := id
  rows := h
  elsewhere := hs
  elsewhere₂ := hs₂
  issued := (if_pos rfl).symm
  cues := .nil

theorem aside (h : Alike key first second phase phase' s s₂ asked asked₂ s' s₂')
    {request request₂ : Request} (hcall : request.isCall = false) (hcall₂ : request₂.isCall = false)
    (htwin : Request.Twin key first second phase'.made request request₂) (reply : request.Reply)
    (reply₂ : request₂.Reply) :
    Alike key first second phase phase' s s₂ (⟨request, reply⟩ :: asked)
      (⟨request₂, reply₂⟩ :: asked₂) s' s₂' where
  stays := h.stays
  rows := h.rows
  elsewhere := h.elsewhere
  elsewhere₂ := h.elsewhere₂
  issued := by
    rw [issued_cons_none (by cases request <;> first | rfl | cases hcall)]
    exact h.issued
  cues := by
    rw [cues_cons_aside hcall, cues_cons_aside hcall₂]
    exact .cons htwin h.cues

theorem call (h : Alike key first second phase phase' s₁ s₁₂ asked asked₂ s' s₂')
    {request request₂ : Request} (hcall : request.isCall = true) (hcall₂ : request₂.isCall = true)
    {reply : request.Reply} {reply₂ : request₂.Reply}
    (hissue : Asked.issue? ⟨request, reply⟩ = none) (hs : s.Elsewhere key s₁)
    (hs₂ : s₂.Elsewhere key s₁₂) :
    Alike key first second phase phase' s s₂ (⟨request, reply⟩ :: asked)
      (⟨request₂, reply₂⟩ :: asked₂) s' s₂' where
  stays := h.stays
  rows := h.rows
  elsewhere := hs.trans h.elsewhere
  elsewhere₂ := hs₂.trans h.elsewhere₂
  issued := by
    rw [issued_cons_none hissue]
    exact h.issued
  cues := by
    rw [cues_cons_call hcall, cues_cons_call hcall₂]
    exact h.cues

theorem create (h : Alike key first second (.holding true) phase' s₁ s₁₂ asked asked₂ s' s₂')
    {r : Record} (hkey : r.key = key) (hs : s.Elsewhere key s₁) (hs₂ : s₂.Elsewhere key s₁₂) :
    Alike key first second .seeking phase' s s₂
      (⟨.create r, .ok (.created { r with id := first })⟩ :: asked)
      (⟨.create r, .ok (.created { r with id := second })⟩ :: asked₂) s' s₂' where
  stays _ hholding := nomatch hholding
  rows := h.rows
  elsewhere := hs.trans h.elsewhere
  elsewhere₂ := hs₂.trans h.elsewhere₂
  issued := by
    have hrest := h.issued
    rw [h.stays true rfl] at hrest ⊢
    subst hkey
    exact congrArg (_ :: ·) hrest
  cues := h.cues

theorem settle (h : Alike key first second (.holding false) phase' s s₂ asked asked₂ s' s₂') :
    Alike key first second .seeking phase' s s₂ asked asked₂ s' s₂' :=
  { h with stays := fun _ hholding => nomatch hholding }

theorem mem_issued (h : Alike key first second .seeking phase' s s₂ asked asked₂ s' s₂')
    {other : Key} {id : Int} : (other, id) ∈ EventRelay.issued asked ↔
      phase'.made = true ∧ other = key ∧ id = first := by
  rw [h.issued, show Phase.seeking.made = false from rfl]
  cases phase'.made <;> simp

end Work.Alike

/-- **Twins are carried out alike on ledgers that are.**  They come to the same result. -/
theorem Work.Twins.run {α : Type} {key : Key} {first second : Int} {phase : Phase} {w w₂ : Work α}
    (answers : (request : Request) → request.Reply)
    (h : w.Twins key first second Phase.Same phase w₂) {s s₂ : Store}
    (hs : s.Twins key first second phase.made s₂) (history history₂ : List Asked) :
    ∃ phase' asked asked₂ s' s₂' progress,
      w.Gives (.fixed answers) ⟨s, history⟩ asked s' progress ∧
      w₂.Gives (.fixed answers) ⟨s₂, history₂⟩ asked₂ s₂' progress ∧
      Alike key first second phase phase' s s₂ asked asked₂ s' s₂' := by
  induction h generalizing s s₂ history history₂ with
  | done hsame =>
    cases hsame
    exact ⟨_, _, _, _, _, _, .done, .done, .ended hs (.refl key s) (.refl key s₂)⟩
  | crash => exact ⟨_, _, _, _, _, _, .crash, .crash, .ended hs (.refl key s) (.refl key s₂)⟩
  | @aside phase request next next₂ hcall halarm hnext ih =>
    obtain ⟨phase', asked, asked₂, s', s₂', progress, hgives, hgives₂, halike⟩ :=
      ih (answers request) hs _ _
    exact ⟨phase', _, _, s', s₂', progress, .cue hcall rfl hgives, .cue hcall rfl hgives₂,
      halike.aside hcall hcall (.same halarm) _ _⟩
  | @alarm made slot event r r₂ reason next next₂ hkey htwin hnext ih =>
    obtain ⟨phase', asked, asked₂, s', s₂', progress, hgives, hgives₂, halike⟩ :=
      ih (answers (.escalate slot event r reason)) (answers (.escalate slot event r₂ reason)) hs _ _
    obtain rfl := halike.stays made rfl
    exact ⟨_, _, _, s', s₂', progress, .cue rfl rfl hgives, .cue rfl rfl hgives₂,
      halike.aside rfl rfl (.alarm hkey htwin) _ _⟩
  | @find next next₂ hnext ih =>
    obtain ⟨phase', asked, asked₂, s', s₂', progress, hgives, hgives₂, halike⟩ :=
      ih (s.find? key) (fun row hrow => Store.key_of_find? hrow) hs _ _
    exact ⟨phase', _, _, s', s₂', progress, .find rfl hgives, .find (hs.find?_eq rfl) hgives₂,
      halike.call rfl rfl rfl (.refl key s) (.refl key s₂)⟩
  | @create draft next next₂ hkey hexisting hcreated ihexisting ihcreated =>
    rcases hs.create hkey with
      ⟨winner, hwinner, hcreate, hcreate₂⟩ | ⟨s₁, s₁₂, hcreate, hcreate₂, hs₁⟩
    · obtain ⟨phase', asked, asked₂, s', s₂', progress, hgives, hgives₂, halike⟩ :=
        ihexisting winner hwinner hs _ _
      exact ⟨phase', _, _, s', s₂', progress, .create hcreate hgives, .create hcreate₂ hgives₂,
        halike.call rfl rfl rfl (.refl key s) (.refl key s₂)⟩
    · have hthere : s.Elsewhere key s₁ :=
        .perform (c := .create draft) (congrArg some hkey) (congrArg Prod.snd hcreate)
      have hthere₂ : s₂.Elsewhere key s₁₂ :=
        .perform (c := .create draft) (congrArg some hkey) (congrArg Prod.snd hcreate₂)
      obtain ⟨phase', asked, asked₂, s', s₂', progress, hgives, hgives₂, halike⟩ :=
        ihcreated hs₁ _ _
      exact ⟨phase', _, _, s', s₂', progress, .create hcreate hgives, .create hcreate₂ hgives₂,
        halike.create hkey hthere hthere₂⟩
  | @tombstone r now next next₂ hkey hnext ih =>
    obtain ⟨done, s₁, s₁₂, hdone, hdone₂, hs₁⟩ := hs.tombstone hkey now
    have hthere : s.Elsewhere key s₁ :=
      .perform (c := .tombstone r now) (congrArg some hkey) (congrArg Prod.snd hdone)
    have hthere₂ : s₂.Elsewhere key s₁₂ :=
      .perform (c := .tombstone r now) (congrArg some hkey) (congrArg Prod.snd hdone₂)
    cases done with
    | ok accepted =>
      obtain ⟨phase', asked, asked₂, s', s₂', progress, hgives, hgives₂, halike⟩ :=
        ih accepted hs₁ _ _
      exact ⟨phase', _, _, s', s₂', progress, .tombstone hdone hgives, .tombstone hdone₂ hgives₂,
        halike.call rfl rfl rfl hthere hthere₂⟩
    | error overflow =>
      exact ⟨.seeking, [], [], s₁, s₁₂, _, .overflow (by rw [Store.serve, hdone]; rfl),
        .overflow (by rw [Store.serve, hdone₂]; rfl), .ended hs₁ hthere hthere₂⟩
  | @update made r r₂ next next₂ hkey htwin hnext ih =>
    rcases hs.update hkey htwin with
      ⟨accepted, s₁, s₁₂, hdone, hdone₂, hs₁⟩ | ⟨overflow, hdone, hdone₂⟩
    · have hthere : s.Elsewhere key s₁ :=
        .perform (c := .update r) (congrArg some hkey) (congrArg Prod.snd hdone)
      have hthere₂ : s₂.Elsewhere key s₁₂ :=
        .perform (c := .update r₂) (congrArg some (htwin.key_eq.trans hkey))
          (congrArg Prod.snd hdone₂)
      obtain ⟨phase', asked, asked₂, s', s₂', progress, hgives, hgives₂, halike⟩ :=
        ih accepted hs₁ _ _
      exact ⟨phase', _, _, s', s₂', progress, .update hdone hgives, .update hdone₂ hgives₂,
        halike.call rfl rfl rfl hthere hthere₂⟩
    · exact ⟨.holding made, [], [], s, s₂, _, .overflow (by rw [Store.serve, hdone]; rfl),
        .overflow (by rw [Store.serve, hdone₂]; rfl), .ended hs (.refl key s) (.refl key s₂)⟩
  | settle h ih =>
    obtain ⟨phase', asked, asked₂, s', s₂', progress, hgives, hgives₂, halike⟩ :=
      ih hs history history₂
    exact ⟨phase', asked, asked₂, s', s₂', progress, hgives, hgives₂, halike.settle⟩

/-! ### Calls -/

/-- What a call is about, and the key of the row that it works on. -/
def Errand.subject? : Errand → Option Key
  | .deliver c event | .redeliver c event => some (c.key event.id)
  | .publish p event => some (p.key event.id)
  | .scan _ _ | .replay _ _ => none

theorem Errand.subject_of_subject? {errand : Errand} {key : Key} (h : errand.subject? = some key) :
    key.subject = key := by
  cases errand with
  | deliver | redeliver | publish =>
    cases h
    rfl
  | scan | replay => cases h

theorem Errand.twins {errand : Errand} {key : Key} (h : errand.subject? = some key)
    (first second : Int) :
    errand.work.Twins key first second Phase.Same .seeking errand.work := by
  cases errand with
  | deliver c event =>
    cases h
    exact (c.twins_deliver event).bind fun _ _ _ hsame => .done (congrArg Report.delivery hsame)
  | redeliver c event =>
    cases h
    exact (c.twins_redeliver event).bind fun _ _ _ hsame => .done (congrArg Report.delivery hsame)
  | publish p event =>
    cases h
    exact (p.twins_publish event).bind fun _ _ _ hsame => .done (congrArg Report.publication hsame)
  | scan | replay => cases h

/-- What a call comes to. -/
structure Errand.Account where
  progress : Progress Report
  asked : List Asked
  store : Store

/-- A call that is carried out on a ledger, in surroundings that stand still. -/
def Errand.carriedOut (answers : (request : Request) → request.Reply) (errand : Errand)
    (s : Store) : Errand.Account :=
  match errand.work.run (Cast.fixed answers).reply ⟨s, []⟩ with
  | (progress, scene) => ⟨progress, scene.history, scene.store⟩

theorem Errand.alike (answers : (request : Request) → request.Reply) {errand : Errand} {key : Key}
    (h : errand.subject? = some key) {first second : Int} {s s₂ : Store}
    (hs : s.Twins key first second false s₂) :
    ∃ phase, (errand.carriedOut answers s₂).progress = (errand.carriedOut answers s).progress ∧
      Work.Alike key first second .seeking phase s s₂ (errand.carriedOut answers s).asked
        (errand.carriedOut answers s₂).asked (errand.carriedOut answers s).store
        (errand.carriedOut answers s₂).store := by
  obtain ⟨phase, asked, asked₂, s', s₂', progress, hgives, hgives₂, halike⟩ :=
    (errand.twins h first second).run answers hs [] []
  have hrun : errand.carriedOut answers s = ⟨progress, asked, s'⟩ := by
    rw [carriedOut, hgives]
    rfl
  have hrun₂ : errand.carriedOut answers s₂ = ⟨progress, asked₂, s₂'⟩ := by
    rw [carriedOut, hgives₂]
    rfl
  rw [hrun, hrun₂]
  exact ⟨phase, rfl, halike⟩

theorem Errand.elsewhere (answers : (request : Request) → request.Reply) {errand : Errand}
    {key : Key} (h : errand.subject? = some key) (s : Store) :
    s.Elsewhere key (errand.carriedOut answers s).store := by
  obtain ⟨phase, -, halike⟩ := errand.alike answers h (.of_find? (s := s) rfl rfl fun _ _ => rfl)
  exact halike.elsewhere

/-! ### Renumbering -/

/-- A record with another number, if it is one of the rows that were given one. -/
def Record.renumbered (given : List (Key × Int)) (number : Int → Int) (r : Record) : Record :=
  if (r.key, r.id) ∈ given then { r with id := number r.id } else r

/-- A request that speaks of such a row by its other number. -/
def Request.renumbered (given : List (Key × Int)) (number : Int → Int) : Request → Request
  | .escalate slot event r reason => .escalate slot event (r.renumbered given number) reason
  | request => request

@[simp] theorem Record.key_renumbered (given : List (Key × Int)) (number : Int → Int)
    (r : Record) : (r.renumbered given number).key = r.key := by
  unfold renumbered
  split <;> rfl

theorem Store.find?_renumbered {given : List (Key × Int)} {key : Key}
    (h : ∀ id, (key, id) ∉ given) (number : Int → Int) (s : Store) :
    (s.find? key).map (Record.renumbered given number) = s.find? key := by
  cases hfind : s.find? key with
  | none => rfl
  | some r => exact congrArg some (if_neg (key_of_find? hfind ▸ h r.id))

/-- Whether renumbering makes the difference that there is between two ledgers. -/
structure Renumbers (given : List (Key × Int)) (number : Int → Int) (key : Key)
    (first second : Int) (made : Bool) : Prop where
  mem_iff : ∀ (other : Key) (id : Int), other.subject = key.subject →
    ((other, id) ∈ given ↔ made = true ∧ other = key ∧ id = first)
  number : made = true → number first = second

namespace Renumbers

variable {given : List (Key × Int)} {number : Int → Int} {key : Key} {first second : Int}
  {made : Bool} (h : Renumbers given number key first second made)

include h

theorem record {r r₂ : Record} (hkey : r.key = key) (htwin : Record.Twin first second made r r₂) :
    r₂ = r.renumbered given number := by
  unfold Record.renumbered
  cases htwin with
  | same =>
    rw [if_neg fun hmem => ?_]
    exact absurd ((h.mem_iff r.key r.id (by rw [hkey])).mp hmem).1 (by decide)
  | made hid =>
    rw [if_pos ((h.mem_iff r.key r.id (by rw [hkey])).mpr ⟨rfl, hkey, hid⟩), hid, h.number rfl]

theorem find? {s s₂ : Store} (hs : s.Twins key first second made s₂) {other : Key}
    (hother : other.subject = key.subject) :
    s₂.find? other = (s.find? other).map (Record.renumbered given number) := by
  by_cases hkey : other = key
  · subst hkey
    rcases hs.own_cases with ⟨hfind, hfind₂⟩ | ⟨row, row₂, hfind, hfind₂, htwin⟩
    · rw [hfind, hfind₂, Option.map_none]
    · rw [hfind, hfind₂, Option.map_some, h.record (Store.key_of_find? hfind) htwin]
  · rw [hs.beside other hother hkey]
    exact (s.find?_renumbered (fun id hmem => hkey ((h.mem_iff other id hother).mp hmem).2.1) _).symm

theorem request {request request₂ : Request}
    (htwin : Request.Twin key first second made request request₂) :
    request₂ = request.renumbered given number := by
  cases htwin with
  | same hquiet => cases request <;> first | rfl | cases hquiet
  | alarm hkey htwin => rw [Request.renumbered, ← h.record hkey htwin]

theorem cues {requests requests₂ : List Request}
    (hcues : List.Forall₂ (Request.Twin key first second made) requests requests₂) :
    requests₂ = requests.map (Request.renumbered given number) := by
  induction hcues with
  | nil => rfl
  | cons htwin _ ih => rw [List.map_cons, ← ih, h.request htwin]

end Renumbers

theorem exists_exchange (n : Int) (made made' : Bool) :
    ∃ σ : Equiv.Perm Int, (made = true → σ n = n + made'.toNat) ∧
      (made' = true → σ (n + made.toNat) = n) ∧
      ∀ id, σ id ≠ id → made = true ∧ made' = true ∧ (id = n ∨ id = n + 1) := by
  by_cases hboth : made = true ∧ made' = true
  · obtain ⟨rfl, rfl⟩ := hboth
    refine ⟨Equiv.swap n (n + 1), fun _ => Equiv.swap_apply_left .., fun _ =>
      Equiv.swap_apply_right .., fun id hid => ⟨rfl, rfl, ?_⟩⟩
    by_contra hneither
    obtain ⟨hn, hn'⟩ := not_or.mp hneither
    exact hid (Equiv.swap_apply_of_ne_of_ne hn hn')
  · refine ⟨Equiv.refl Int, fun hmade => ?_, fun hmade => ?_, fun id hid => absurd rfl hid⟩
    · cases made' with
      | false => exact (Int.add_zero n).symm
      | true => exact absurd ⟨hmade, rfl⟩ hboth
    · cases made with
      | false => exact Int.add_zero n
      | true => exact absurd ⟨rfl, hmade⟩ hboth

/-- **The numbers of the new rows change places.** -/
theorem exists_renumbers {given : List (Key × Int)} {ka kb : Key} (hne : ka.subject ≠ kb.subject)
    {n : Int} {made made' : Bool}
    (hgiven : ∀ key id, (key, id) ∈ given ↔
      (made = true ∧ key = ka ∧ id = n) ∨ (made' = true ∧ key = kb ∧ id = n + made.toNat)) :
    ∃ σ : Equiv.Perm Int, (∀ id, σ id ≠ id → ∃ key, (key, id) ∈ given) ∧
      Renumbers given σ ka n (n + made'.toNat) made ∧
      Renumbers given σ kb (n + made.toNat) n made' := by
  obtain ⟨σ, hσ, hσ', hmoved⟩ := exists_exchange n made made'
  refine ⟨σ, fun id hid => ?_, ⟨fun other id hother => ?_, hσ⟩, ⟨fun other id hother => ?_, hσ'⟩⟩
  · obtain ⟨rfl, rfl, rfl | rfl⟩ := hmoved id hid
    · exact ⟨ka, (hgiven _ _).mpr (.inl ⟨rfl, rfl, rfl⟩)⟩
    · exact ⟨kb, (hgiven _ _).mpr (.inr ⟨rfl, rfl, rfl⟩)⟩
  · rw [hgiven, or_iff_left]
    rintro ⟨-, rfl, -⟩
    exact hne hother.symm
  · rw [hgiven, or_iff_right]
    rintro ⟨-, rfl, -⟩
    exact hne hother

/-- **What is found after two calls in either order**: `sa` and `sb` are the ledgers after the first
call of each order, `sab` and `sba` those after the second one. -/
theorem Store.find?_exchanged {given : List (Key × Int)} {number : Int → Int} {ka kb : Key}
    {first second first' second' : Int} {made made' : Bool} {s sa sb sab sba : Store}
    (hne : ka.subject ≠ kb.subject)
    (hgiven : ∀ key id, (key, id) ∈ given → key = ka ∨ key = kb)
    (ha : Renumbers given number ka first second made)
    (hb : Renumbers given number kb first' second' made')
    (hsa : s.Elsewhere ka sa) (hsb : s.Elsewhere kb sb) (hsab : sa.Elsewhere kb sab)
    (hsba : sb.Elsewhere ka sba) (hrows : sa.Twins ka first second made sba)
    (hrows' : sab.Twins kb first' second' made' sb) (key : Key) :
    sba.find? key = (sab.find? key).map (Record.renumbered given number) := by
  by_cases hown : key.subject = ka.subject
  · rw [hsab.find key (hown ▸ hne)]
    exact ha.find? hrows hown
  by_cases hown' : key.subject = kb.subject
  · rw [hsba.find key hown]
    exact hb.find? hrows' hown'
  · -- a row that neither call is about
    rw [hsba.find key hown, hsb.find key hown', hsab.find key hown', hsa.find key hown]
    refine (s.find?_renumbered (fun id hmem => ?_) number).symm
    rcases hgiven key id hmem with rfl | rfl
    · exact hown rfl
    · exact hown' rfl

/-! ### Independence -/

/-- **Calls about different things may change places.**  The clock stands still, the transport and
user code answer by what they are asked, and the ledger does not fail.  Two deliveries of different
events, first or later ones and of whatever owner groups, or a publication and a delivery, come to the
same in either order, and ask for the same.  The rows are the same in the end, up to the numbers that
the two calls gave to the rows that they made; those are not deleted by them, so that no marker is made
from such a number.  Each call leaves all rows as they are that have another event, action or owner
group than its own. -/
theorem Errand.independent (answers : (request : Request) → request.Reply) {a b : Errand}
    {ka kb : Key} (ha : a.subject? = some ka) (hb : b.subject? = some kb) (hne : ka ≠ kb)
    {s : Store} (hkeyed : s.Keyed) :
    let a₁ := a.carriedOut answers s
    let b₂ := b.carriedOut answers a₁.store
    let b₁ := b.carriedOut answers s
    let a₂ := a.carriedOut answers b₁.store
    let given := issued (a₁.asked ++ b₂.asked)
    (a₂.progress = a₁.progress ∧ b₁.progress = b₂.progress) ∧
    (∃ σ : Equiv.Perm Int, (∀ id, σ id ≠ id → ∃ key, (key, id) ∈ given) ∧
      cues a₂.asked = (cues a₁.asked).map (Request.renumbered given σ) ∧
      cues b₁.asked = (cues b₂.asked).map (Request.renumbered given σ) ∧
      a₂.store.rows.Perm (b₂.store.rows.map (Record.renumbered given σ)) ∧
      a₂.store.lastId = b₂.store.lastId) ∧
    (∀ r : Record, r.subject ≠ ka → (r ∈ a₁.store.rows ↔ r ∈ s.rows) ∧
      (r ∈ a₂.store.rows ↔ r ∈ b₁.store.rows)) ∧
    (∀ r : Record, r.subject ≠ kb → (r ∈ b₁.store.rows ↔ r ∈ s.rows) ∧
      (r ∈ b₂.store.rows ↔ r ∈ a₁.store.rows)) := by
  intro a₁ b₂ b₁ a₂ given
  have hka := subject_of_subject? ha
  have hkb := subject_of_subject? hb
  have hsubject : ka.subject ≠ kb.subject := by rw [hka, hkb]; exact hne
  have hspared : s.Elsewhere ka a₁.store := a.elsewhere answers ha s
  have hspared' : s.Elsewhere kb b₁.store := b.elsewhere answers hb s
  have hspared₂ : b₁.store.Elsewhere ka a₂.store := a.elsewhere answers ha b₁.store
  have hspared₂' : a₁.store.Elsewhere kb b₂.store := b.elsewhere answers hb a₁.store
  have hkeyed₁ := hspared.keyed hkeyed
  have hkeyed₁' := hspared'.keyed hkeyed
  -- the first call on the ledger as it is, and after the second one
  have htwins : s.Twins ka (s.lastId + 1) (b₁.store.lastId + 1) false b₁.store :=
    .of_find? rfl rfl fun other hother => hspared'.find other (hother ▸ hsubject)
  obtain ⟨phase, hprogress, halike⟩ := a.alike answers ha htwins
  -- the second call after the first one, and on the ledger as it is
  have htwins' : a₁.store.Twins kb (a₁.store.lastId + 1) (s.lastId + 1) false s :=
    .of_find? rfl rfl fun other hother =>
      (hspared.find other (hother ▸ Ne.symm hsubject)).symm
  obtain ⟨phase', hprogress', halike'⟩ := b.alike answers hb htwins'
  have hnext : a₁.store.lastId + 1 = s.lastId + 1 + phase.made.toNat := halike.rows.next
  have hnext' : b₁.store.lastId + 1 = s.lastId + 1 + phase'.made.toNat := halike'.rows.next₂
  have hgiven : ∀ key id, (key, id) ∈ given ↔
      (phase.made = true ∧ key = ka ∧ id = s.lastId + 1) ∨
        (phase'.made = true ∧ key = kb ∧ id = s.lastId + 1 + phase.made.toNat) := fun key id => by
    show (key, id) ∈ issued (a₁.asked ++ b₂.asked) ↔ _
    rw [issued_append, List.mem_append, halike.mem_issued, halike'.mem_issued, hnext]
  obtain ⟨σ, hmoved, hnumbers, hnumbers'⟩ := exists_renumbers hsubject hgiven
  rw [← hnext'] at hnumbers
  rw [← hnext] at hnumbers'
  have hfind := Store.find?_exchanged hsubject
    (fun key id hmem => ((hgiven key id).mp hmem).imp (·.2.1) (·.2.1)) hnumbers hnumbers' hspared
    hspared' hspared₂' hspared₂ halike.rows halike'.rows
  refine ⟨⟨hprogress, hprogress'⟩, ⟨σ, hmoved, hnumbers.cues halike.cues,
    hnumbers'.cues halike'.cues, ?_, ?_⟩, fun r hr => ⟨?_, ?_⟩, fun r hr => ⟨?_, ?_⟩⟩
  · exact Store.Keyed.perm_map (hspared₂'.keyed hkeyed₁) (hspared₂.keyed hkeyed₁')
      (Record.key_renumbered given σ) hfind
  · have hlast : a₂.store.lastId + 1 = b₁.store.lastId + 1 + phase.made.toNat := halike.rows.next₂
    have hlast' : b₂.store.lastId + 1 = a₁.store.lastId + 1 + phase'.made.toNat := halike'.rows.next
    omega
  · exact hspared.mem_iff hkeyed (hka.symm ▸ hr)
  · exact hspared₂.mem_iff hkeyed₁' (hka.symm ▸ hr)
  · exact hspared'.mem_iff hkeyed (hkb.symm ▸ hr)
  · exact hspared₂'.mem_iff hkeyed₁ (hkb.symm ▸ hr)

/-! #### Two calls about one event -/

/-- Surroundings in which every handler fails. -/
def Crew.failing : (request : Request) → request.Reply
  | .handle _ _ => Verdict.failed "x"
  | request => request.answer

def Crew.urgent : Errand :=
  .deliver { clerk 0 with chain := [7] } parcel

def Crew.notice : Errand :=
  .publish herald parcel

/-- A failed row is opened again and fails once more, while its event is also published.  The two new
rows change their numbers, and the escalation handler is told of its row by the other number. -/
theorem Errand.independent_reopened :
    let a₁ := Crew.urgent.carriedOut Crew.failing ⟨[Crew.lapsed], 1⟩
    let b₂ := Crew.notice.carriedOut Crew.failing a₁.store
    let b₁ := Crew.notice.carriedOut Crew.failing ⟨[Crew.lapsed], 1⟩
    let a₂ := Crew.urgent.carriedOut Crew.failing b₁.store
    let given := issued (a₁.asked ++ b₂.asked)
    b₂.store.rows.map (fun r => (r.action, r.deleteMarker, r.id)) =
      [(.consume, 1, 1), (.consume, 0, 2), (.publish, 0, 3)] ∧
    a₂.store.rows.map (fun r => (r.action, r.deleteMarker, r.id)) =
      [(.publish, 0, 2), (.consume, 1, 1), (.consume, 0, 3)] ∧
    ∃ σ : Equiv.Perm Int, cues a₂.asked = (cues a₁.asked).map (Request.renumbered given σ) ∧
      a₂.store.rows.Perm (b₂.store.rows.map (Record.renumbered given σ)) := by
  intro a₁ b₂ b₁ a₂ given
  have hkeyed : Store.Keyed ⟨[Crew.lapsed], 1⟩ := List.nodup_singleton _
  obtain ⟨-, ⟨σ, -, hcues, -, hrows, -⟩, -⟩ :=
    Errand.independent Crew.failing (a := Crew.urgent) (b := Crew.notice) rfl rfl (by decide) hkeyed
  refine ⟨?_, ?_, σ, hcues, hrows⟩
  · decide
  · decide

end EventRelay
