import EventRelay.Proofs.Work.Follows

/-!
# Histories of work

The requests of a worker with the replies to them, in their order, are its history.  What concerns
the calls of escalation handlers is said of histories, as a course whose positions they are: a call
has to be warranted by the history before it, and whoever has made one asks for nothing more
(`Work.alarmed`).  Most work makes no such call at all (`Work.Quiet`), and is on that course whatever
warrants one.
-/

namespace EventRelay

/-- A request and the reply to it. -/
abbrev Asked := (request : Request) × request.Reply

def Request.isAlarm : Request → Bool
  | .escalate _ _ _ _ => true
  | .now | .find _ | .create _ | .update _ | .tombstone _ _ | .due _ _ => false
  | .send _ | .accepts _ _ | .handle _ _ | .supports _ _ => false

def Silent (history : List Asked) : Prop :=
  ∀ asked ∈ history, asked.1.isAlarm = false

theorem silent_nil : Silent [] := List.forall_mem_nil _

theorem silent_append {history more : List Asked} :
    Silent (history ++ more) ↔ Silent history ∧ Silent more :=
  List.forall_mem_append

theorem silent_singleton {asked : Asked} : Silent [asked] ↔ asked.1.isAlarm = false :=
  List.forall_mem_singleton

theorem Silent.concat {history : List Asked} (h : Silent history) (request : Request)
    (hquiet : request.isAlarm = false) (reply : request.Reply) :
    Silent (history ++ [⟨request, reply⟩]) :=
  silent_append.mpr ⟨h, silent_singleton.mpr hquiet⟩

namespace Work

variable {α β ε : Type}

/-! ### Work without calls of escalation handlers -/

/-- Whether work calls no escalation handler, whatever the replies are. -/
def Quiet : Work α → Prop
  | .done _ | .crash _ => True
  | .ask request next => request.isAlarm = false ∧ ∀ reply, (next reply).Quiet

theorem Quiet.ask {request : Request} {next : request.Reply → Work α}
    (hrequest : request.isAlarm = false) (hnext : ∀ reply, (next reply).Quiet) :
    (Work.ask request next).Quiet := ⟨hrequest, hnext⟩

theorem Quiet.bind {w : Work β} {f : β → Work α} (hw : w.Quiet) (hf : ∀ b, (f b).Quiet) :
    (w.bind f).Quiet := by
  induction w with
  | done b => exact hf b
  | crash text => trivial
  | ask request next ih => exact ⟨hw.1, fun reply => ih reply (hw.2 reply)⟩

theorem Quiet.onOk {w : Work (Except ε β)} {f : β → Work (Except ε α)} (hw : w.Quiet)
    (hf : ∀ b, (f b).Quiet) : (w.onOk f).Quiet := by
  refine hw.bind fun result => ?_
  cases result with
  | ok b => exact hf b
  | error e => trivial

theorem quiet_firstThat {question : Nat → Work (Except String Bool)} {slots : List Nat}
    (hquestion : ∀ slot, (question slot).Quiet) :
    (firstThat question slots).Quiet := by
  induction slots with
  | nil => trivial
  | cons slot rest ih =>
    refine (hquestion slot).bind fun answer => ?_
    match answer with
    | .ok true => trivial
    | .ok false => exact ih
    | .error text => trivial

theorem quiet_write (r : Record) (t : Transition) : (r.write t).Quiet := by
  refine .ask rfl fun now => ?_
  cases r.transition t now with
  | error e => trivial
  | ok next =>
    refine .ask rfl fun reply => ?_
    match reply with
    | .ok true => trivial
    | .ok false => trivial
    | .error e => trivial

theorem Quiet.of_follows {σ : Type} {course : Course σ} {ends : σ → α → Prop} {w : Work α} {s : σ}
    (hw : w.Follows course ends s)
    (hmoves : ∀ s request reply s', course.moves s request reply s' → request.isAlarm = false) :
    w.Quiet := by
  induction w generalizing s with
  | done a => trivial
  | crash text => trivial
  | ask request next ih =>
    refine .ask ?_ fun reply => ?_
    · obtain ⟨s', hmove, -⟩ := hw request.answer
      exact hmoves s request _ s' hmove
    · obtain ⟨s', -, hnext⟩ := hw reply
      exact ih reply hnext

/-! ### Histories as positions -/

/-- The course of work that calls an escalation handler when its history warrants it, and asks for
nothing after that. -/
def alarmed (warrants : List Asked → Request → Prop) : Course (List Asked) where
  moves history request reply history' :=
    Silent history ∧ (request.isAlarm = true → warrants history request) ∧
      history' = history ++ [⟨request, reply⟩]
  crashes history _ := Silent history

variable {warrants : List Asked → Request → Prop} {history : List Asked}

theorem alarmed_quiet (h : Silent history) {request : Request} (hquiet : request.isAlarm = false)
    (reply : request.Reply) :
    (alarmed warrants).moves history request reply (history ++ [⟨request, reply⟩]) :=
  ⟨h, fun halarm => absurd (hquiet.symm.trans halarm) (by decide), rfl⟩

theorem Quiet.follows {w : Work α} (hw : w.Quiet) (h : Silent history) :
    w.Follows (alarmed warrants) (fun history' _ => Silent history') history := by
  induction w generalizing history with
  | done a => exact h
  | crash text => exact h
  | ask request next ih =>
    refine .ask fun reply => ⟨_, alarmed_quiet h hw.1 reply, ?_⟩
    exact ih reply (hw.2 reply) (h.concat request hw.1 reply)

theorem Follows.eq_done {ends : List Asked → α → Prop} {w : Work α}
    (hw : w.Follows (alarmed warrants) ends history) (h : ¬ Silent history) :
    ∃ a, w = .done a ∧ ends history a := by
  cases w with
  | done a => exact ⟨a, rfl, hw⟩
  | crash text => exact absurd hw h
  | ask request next =>
    obtain ⟨history', hmove, -⟩ := hw request.answer
    exact absurd hmove.1 h

end Work

end EventRelay
