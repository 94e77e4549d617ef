import EventRelay.Ledger.Guarded

/-!
# Courses of work

Work is a tree that branches with every reply, and what is to be said of it concerns the paths
through the tree.  A `Course` names the positions that a worker can be at and says how a request and
its reply move it from one to the next.  `w.Follows course ends s` says that work `w`, begun at `s`,
makes such moves only, for all replies, and ends as its last position says.

There is one rule for each way of composing work, so that a program is brought onto its course one
function at a time.
-/

namespace EventRelay

/-- A call of the ledger that failed, and had no effect. -/
def Request.Fails : (r : Request) → r.Reply → Error → Prop
  | .find _, reply, e => reply = .error e
  | .create _, reply, e => reply = .error e
  | .update _, reply, e => reply = .error e
  | .tombstone _ _, reply, e => reply = .error e
  | .due _ _, reply, e => reply = .error e
  | .now, _, _ | .send _, _, _ | .accepts _ _, _, _ | .handle _ _, _, _ => False
  | .supports _ _, _, _ | .escalate _ _ _ _, _, _ => False

deriving instance Inhabited for Record

/-- Some reply to a request, and to a call of the ledger one that has not failed. -/
def Request.answer : (request : Request) → request.Reply
  | .now => (default : Instant)
  | .find _ => .ok none
  | .create _ => .ok (.existing default)
  | .update _ => .ok true
  | .tombstone _ _ => .ok true
  | .due _ _ => .ok []
  | .send _ => .ok ()
  | .accepts _ _ => .ok true
  | .handle _ _ => Verdict.ok
  | .supports _ _ => .ok true
  | .escalate _ _ _ _ => Verdict.ok

theorem Request.not_fails_answer (request : Request) (e : Error) :
    ¬ request.Fails request.answer e := by
  intro h
  cases request <;> first | exact h.elim | cases h

/-- How surroundings may answer. -/
abbrev Manner := (request : Request) → request.Reply → Prop

/-- The moves that a worker can make, and where it may crash. -/
structure Course (σ : Type) where
  moves : σ → (r : Request) → r.Reply → σ → Prop
  crashes : σ → String → Prop

namespace Work

variable {σ τ α β ε : Type}

/-- Whether work keeps to a course, whatever the replies are. -/
def Follows (course : Course σ) (ends : σ → α → Prop) : Work α → σ → Prop
  | .done a, s => ends s a
  | .crash text, s => course.crashes s text
  | .ask r next, s =>
    ∀ reply, ∃ s', course.moves s r reply s' ∧ (next reply).Follows course ends s'

variable {course : Course σ} {ends : σ → α → Prop} {s : σ}

theorem Follows.ask {r : Request} {next : r.Reply → Work α}
    (h : ∀ reply, ∃ s', course.moves s r reply s' ∧ (next reply).Follows course ends s') :
    (Work.ask r next).Follows course ends s := h

theorem Follows.mono {ends' : σ → α → Prop} {w : Work α} (hw : w.Follows course ends s)
    (hends : ∀ s' a, ends s' a → ends' s' a) : w.Follows course ends' s := by
  induction w generalizing s with
  | done a => exact hends s a hw
  | crash text => exact hw
  | ask r next ih =>
    intro reply
    obtain ⟨s', hmove, hnext⟩ := hw reply
    exact ⟨s', hmove, ih reply hnext⟩

theorem Follows.bind {m : σ → β → Prop} {w : Work β} {f : β → Work α}
    (hw : w.Follows course m s)
    (hf : ∀ s' b, m s' b → (f b).Follows course ends s') :
    (w.bind f).Follows course ends s := by
  induction w generalizing s with
  | done b => exact hf s b hw
  | crash text => exact hw
  | ask r next ih =>
    intro reply
    obtain ⟨s', hmove, hnext⟩ := hw reply
    exact ⟨s', hmove, ih reply hnext⟩

theorem Follows.onOk {m : σ → Except ε β → Prop} {ends : σ → Except ε α → Prop}
    {w : Work (Except ε β)} {f : β → Work (Except ε α)} (hw : w.Follows course m s)
    (hok : ∀ s' b, m s' (.ok b) → (f b).Follows course ends s')
    (herror : ∀ s' e, m s' (.error e) → ends s' (.error e)) :
    (w.onOk f).Follows course ends s := by
  refine hw.bind fun s' result hm => ?_
  cases result with
  | ok b => exact hok s' b hm
  | error e => exact herror s' e hm

theorem Follows.widen {course' : Course τ} {ends' : τ → α → Prop} (f : σ → τ)
    (hmoves : ∀ s r reply s', course.moves s r reply s' → course'.moves (f s) r reply (f s'))
    (hcrashes : ∀ s text, course.crashes s text → course'.crashes (f s) text)
    (hends : ∀ s a, ends s a → ends' (f s) a) {w : Work α} (hw : w.Follows course ends s) :
    w.Follows course' ends' (f s) := by
  induction w generalizing s with
  | done a => exact hends s a hw
  | crash text => exact hcrashes s text hw
  | ask r next ih =>
    intro reply
    obtain ⟨s', hmove, hnext⟩ := hw reply
    exact ⟨f s', hmoves s r reply s' hmove, ih reply hnext⟩

theorem follows_firstThat {question : Nat → Work (Except String Bool)} {slots : List Nat}
    (hquestion : ∀ slot ∈ slots, (question slot).Follows course
      (fun s' answer => s' = s ∧ ∀ text, answer = .error text → course.crashes s text) s) :
    (firstThat question slots).Follows course
      (fun s' found => s' = s ∧ ∀ slot, found = some slot → slot ∈ slots) s := by
  induction slots with
  | nil => exact ⟨rfl, fun slot h => by cases h⟩
  | cons slot rest ih =>
    refine (hquestion slot (List.mem_cons_self ..)).bind fun s' answer ⟨hs, hcrash⟩ => ?_
    subst hs
    match answer with
    | .ok true => exact ⟨rfl, fun found h => by cases h; exact List.mem_cons_self ..⟩
    | .ok false =>
      have hrest := ih fun other hother => hquestion other (List.mem_cons_of_mem _ hother)
      refine hrest.mono fun s'' found ⟨hs, hmem⟩ => ⟨hs, fun other h => ?_⟩
      exact List.mem_cons_of_mem _ (hmem other h)
    | .error text => exact hcrash text rfl

theorem follows_write {ends : σ → Except Error (Option Record) → Prop} {r : Record} {t : Transition}
    {s' : Instant → σ} (hnow : ∀ now, course.moves s .now now (s' now))
    (hbarred : ∀ now e, r.transition t now = .error e → ends (s' now) (.error e))
    (hwrite : ∀ now next, r.transition t now = .ok next → ∀ reply, ∃ s'',
      course.moves (s' now) (.update next) reply s'' ∧
        ends s'' (reply.map fun done => if done then some next.revised else none)) :
    (r.write t).Follows course ends s := by
  refine .ask fun now => ⟨s' now, hnow now, ?_⟩
  cases hnext : r.transition t now with
  | error e => exact hbarred now e hnext
  | ok next =>
    refine .ask fun reply => ?_
    obtain ⟨s'', hmove, hend⟩ := hwrite now next hnext reply
    refine ⟨s'', hmove, ?_⟩
    match reply with
    | .ok true => exact hend
    | .ok false => exact hend
    | .error e => exact hend

end Work

end EventRelay
