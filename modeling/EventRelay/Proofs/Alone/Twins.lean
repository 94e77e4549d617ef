import EventRelay.Consumer
import EventRelay.Proofs.Alone.Basic
import EventRelay.Proofs.Producer.Account

/-!
# Work on two ledgers

One call is carried out twice, on ledgers that agree about its event and may differ in everything else.
The next row may then get another number on the second ledger, and this is all the difference that
the call can make.  `Work.Twins` says so of two pieces of work: they ask for the same, up to the number
of the row that they have made (`Record.Twin`), and whatever they are answered they remain twins.

A worker makes one row at most, before it does anything to it.  So there is a time when it is seeking
its row, in which both copies are the same in every respect, and a time when it holds one (`Phase`).

There is one rule for each way of composing work, and one lemma for each function of `Consumer` and
`Producer`, in the order of these.
-/

namespace EventRelay

/-! ### Records -/

/-- The same record on both ledgers, apart from the number that it got there if it was made. -/
inductive Record.Twin (first second : Int) : (made : Bool) → Record → Record → Prop
  | same (r : Record) : Twin first second false r r
  | made {r : Record} (h : r.id = first) : Twin first second true r { r with id := second }

namespace Record.Twin

variable {first second : Int} {made : Bool} {r r₂ : Record}

theorem eq_with_id (h : Twin first second made r r₂) : r₂ = { r with id := r₂.id } := by
  cases h <;> rfl

theorem key_eq (h : Twin first second made r r₂) : r₂.key = r.key :=
  (congrArg key h.eq_with_id).trans rfl

theorem version_eq (h : Twin first second made r r₂) : r₂.version = r.version :=
  (congrArg version h.eq_with_id).trans rfl

theorem status_eq (h : Twin first second made r r₂) : r₂.status = r.status :=
  (congrArg status h.eq_with_id).trans rfl

theorem revised (h : Twin first second made r r₂) : Twin first second made r.revised r₂.revised := by
  cases h with
  | same => exact .same _
  | made h => exact .made h

theorem revise_cases (h : Twin first second made r r₂) :
    (r.revise = .ok r.revised ∧ r₂.revise = .ok r₂.revised) ∨
      ∃ overflow, r.revise = .error overflow ∧ r₂.revise = .error overflow := by
  have hboth : r₂.revise = r.revise.map fun next => { next with id := r₂.id } := by
    rw [h.eq_with_id]
    unfold revise
    cases within64 .add (r.version + 1) <;> rfl
  cases hrevise : r.revise with
  | error overflow => exact .inr ⟨overflow, rfl, by rw [hboth, hrevise]; rfl⟩
  | ok next =>
    obtain rfl := revise_eq_ok hrevise
    refine .inl ⟨rfl, ?_⟩
    rw [hboth, hrevise, h.eq_with_id]
    rfl

theorem transition_cases (h : Twin first second made r r₂) (t : Transition) (now : Instant) :
    (∃ next next₂, r.transition t now = .ok next ∧ r₂.transition t now = .ok next₂ ∧
        next.key = r.key ∧ Twin first second made next next₂) ∨
      ∃ e, r.transition t now = .error e ∧ r₂.transition t now = .error e := by
  cases hnext : r.transition t now with
  | error e =>
    refine .inr ⟨e, rfl, ?_⟩
    unfold transition at hnext ⊢
    rw [h.status_eq]
    split at hnext
    · cases hnext
    · rename_i hcannot
      rw [if_neg hcannot, hnext]
  | ok next =>
    have hkey := key_transition hnext
    cases h with
    | same => exact .inl ⟨next, next, rfl, hnext, hkey, .same next⟩
    | made hid =>
      have hnext₂ : transition { r with id := second } t now = .ok { next with id := second } := by
        obtain ⟨hcan, rfl⟩ := Record.transition_cases hnext
        unfold transition
        rw [if_pos (show r.status.canBecome t.status = true from hcan)]
        cases t <;> rfl
      exact .inl ⟨next, _, rfl, hnext₂, hkey, .made ((id_transition hnext).trans hid)⟩

end Record.Twin

/-! ### Work -/

/-- How far a worker has come. -/
inductive Work.Phase where
  /-- It has no row yet, and may still make one. -/
  | seeking
  /-- It goes on with a row that it has made, or that was there; or it is over. -/
  | holding (made : Bool)

open Work (Phase)

/-- Whether the row of a worker has been made by it. -/
def Work.Phase.made : Work.Phase → Bool
  | .seeking => false
  | .holding made => made

/-- **Work that is the same on two ledgers.**  It concerns itself with the row under `key`, and a row
that it makes gets the number `first` on one ledger and `second` on the other. -/
inductive Work.Twins {α : Type} (key : Key) (first second : Int) (ends : Phase → α → α → Prop) :
    Phase → Work α → Work α → Prop
  | done {phase : Phase} {a a₂ : α} (h : ends phase a a₂) :
      Twins key first second ends phase (.done a) (.done a₂)
  | crash {phase : Phase} {text : String} :
      Twins key first second ends phase (.crash text) (.crash text)
  /-- The clock, the transport and user code are asked for the same. -/
  | aside {phase : Phase} {request : Request} {next next₂ : request.Reply → Work α}
      (hcall : request.isCall = false) (halarm : request.isAlarm = false)
      (hnext : ∀ reply, Twins key first second ends phase (next reply) (next₂ reply)) :
      Twins key first second ends phase (.ask request next) (.ask request next₂)
  /-- Escalation handlers are told of the same row, and what they reply makes no difference. -/
  | alarm {made : Bool} {slot : Nat} {event : Event} {r r₂ : Record} {reason : String}
      {next next₂ : Verdict → Work α} (hkey : r.key = key)
      (htwin : Record.Twin first second made r r₂)
      (hnext : ∀ reply reply₂,
        Twins key first second ends (.holding made) (next reply) (next₂ reply₂)) :
      Twins key first second ends (.holding made) (.ask (.escalate slot event r reason) next)
        (.ask (.escalate slot event r₂ reason) next₂)
  | find {next next₂ : Except Error (Option Record) → Work α}
      (hnext : ∀ row?, (∀ row, row? = some row → row.key = key) →
        Twins key first second ends .seeking (next (.ok row?)) (next₂ (.ok row?))) :
      Twins key first second ends .seeking (.ask (.find key) next) (.ask (.find key) next₂)
  | create {draft : Record} {next next₂ : Except Error Creation → Work α} (hkey : draft.key = key)
      (hexisting : ∀ row : Record, row.key = key →
        Twins key first second ends .seeking (next (.ok (.existing row)))
          (next₂ (.ok (.existing row))))
      (hcreated : Twins key first second ends (.holding true)
        (next (.ok (.created { draft with id := first })))
        (next₂ (.ok (.created { draft with id := second })))) :
      Twins key first second ends .seeking (.ask (.create draft) next) (.ask (.create draft) next₂)
  /-- A row that was there is deleted before another one is made. -/
  | tombstone {r : Record} {now : Instant} {next next₂ : Except Error Bool → Work α}
      (hkey : r.key = key)
      (hnext : ∀ accepted,
        Twins key first second ends .seeking (next (.ok accepted)) (next₂ (.ok accepted))) :
      Twins key first second ends .seeking (.ask (.tombstone r now) next)
        (.ask (.tombstone r now) next₂)
  | update {made : Bool} {r r₂ : Record} {next next₂ : Except Error Bool → Work α}
      (hkey : r.key = key) (htwin : Record.Twin first second made r r₂)
      (hnext : ∀ accepted,
        Twins key first second ends (.holding made) (next (.ok accepted)) (next₂ (.ok accepted))) :
      Twins key first second ends (.holding made) (.ask (.update r) next) (.ask (.update r₂) next₂)
  /-- A worker may go on with the row that was there. -/
  | settle {w w₂ : Work α} (h : Twins key first second ends (.holding false) w w₂) :
      Twins key first second ends .seeking w w₂

abbrev Work.Phase.Same {α : Type} : Work.Phase → α → α → Prop :=
  fun _ a a₂ => a = a₂

abbrev Work.Phase.Stays {α : Type} (phase : Work.Phase) : Work.Phase → α → α → Prop :=
  fun phase' a a₂ => phase' = phase ∧ a = a₂

namespace Work.Twins

variable {α β ε : Type} {key : Key} {first second : Int} {made : Bool} {phase : Phase}
  {ends : Phase → α → α → Prop}

theorem bind {m : Phase → β → β → Prop} {w w₂ : Work β} {f f₂ : β → Work α}
    (hw : Twins key first second m phase w w₂)
    (hf : ∀ phase b b₂, m phase b b₂ → Twins key first second ends phase (f b) (f₂ b₂)) :
    Twins key first second ends phase (w.bind f) (w₂.bind f₂) := by
  induction hw with
  | done h => exact hf _ _ _ h
  | crash => exact .crash
  | aside hcall halarm hnext ih => exact .aside hcall halarm ih
  | alarm hkey htwin hnext ih => exact .alarm hkey htwin ih
  | find hnext ih => exact .find ih
  | create hkey hexisting hcreated ihexisting ihcreated =>
    exact .create hkey ihexisting ihcreated
  | tombstone hkey hnext ih => exact .tombstone hkey ih
  | update hkey htwin hnext ih => exact .update hkey htwin ih
  | settle h ih => exact .settle ih

theorem firstThat {question : Nat → Work (Except String Bool)}
    (hquestion : ∀ slot, Twins key first second phase.Stays phase (question slot) (question slot))
    (slots : List Nat) :
    Twins key first second phase.Stays phase (Work.firstThat question slots)
      (Work.firstThat question slots) := by
  induction slots with
  | nil => exact .done ⟨rfl, rfl⟩
  | cons slot rest ih =>
    refine (hquestion slot).bind fun phase' answer answer₂ ⟨hphase, hsame⟩ => ?_
    subst hphase hsame
    match answer with
    | .ok true => exact .done ⟨rfl, rfl⟩
    | .ok false => exact ih
    | .error text => exact .crash

end Work.Twins

/-! ### The functions of consumers and producers -/

section Functions

variable {key : Key} {first second : Int} {made : Bool} {r r₂ : Record}

/-- What guarded writes of twins give. -/
inductive Record.Wrote (key : Key) (first second : Int) (made : Bool) :
    Phase → Except Error (Option Record) → Except Error (Option Record) → Prop
  | stored {r r₂ : Record} (hkey : r.key = key) (h : Record.Twin first second made r r₂) :
      Wrote key first second made (.holding made) (.ok (some r)) (.ok (some r₂))
  | refused : Wrote key first second made (.holding made) (.ok none) (.ok none)
  | barred {e : Error} : Wrote key first second made (.holding made) (.error e) (.error e)

theorem Record.twins_write (hkey : r.key = key) (h : Record.Twin first second made r r₂)
    (t : Transition) :
    Work.Twins key first second (Record.Wrote key first second made) (.holding made) (r.write t)
      (r₂.write t) := by
  refine .aside rfl rfl fun now => ?_
  rcases h.transition_cases t now with ⟨next, next₂, hnext, hnext₂, hsame, htwin⟩ | ⟨e, he, he₂⟩
  · simp only [hnext, hnext₂]
    refine .update (hsame.trans hkey) htwin fun accepted => ?_
    cases accepted with
    | true => exact .done (.stored (hsame.trans hkey) htwin.revised)
    | false => exact .done .refused
  · simp only [he, he₂]
    exact .done .barred

theorem Record.twins_write_onOk {α : Type} {ends : Phase → Except Error α → Except Error α → Prop}
    (hkey : r.key = key) (h : Record.Twin first second made r r₂) (t : Transition)
    {f f₂ : Option Record → Work (Except Error α)}
    (hstored : ∀ stored stored₂ : Record, stored.key = key →
      Record.Twin first second made stored stored₂ →
      Work.Twins key first second ends (.holding made) (f (some stored)) (f₂ (some stored₂)))
    (hrefused : Work.Twins key first second ends (.holding made) (f none) (f₂ none))
    (hbarred : ∀ e, ends (.holding made) (.error e) (.error e)) :
    Work.Twins key first second ends (.holding made) ((r.write t).onOk f) ((r₂.write t).onOk f₂) := by
  refine (Record.twins_write hkey h t).bind fun phase result result₂ hwrote => ?_
  cases hwrote with
  | stored hkey htwin => exact hstored _ _ hkey htwin
  | refused => exact hrefused
  | barred => exact .done (hbarred _)

theorem Escalation.twins_escalate (chain : List Nat) (event : Event) (reason : String)
    (hkey : r.key = key) (h : Record.Twin first second made r r₂) :
    Work.Twins key first second Phase.Same (.holding made)
      (Escalation.escalate chain event r reason) (Escalation.escalate chain event r₂ reason) := by
  refine Work.Twins.bind (.firstThat (fun slot => .aside rfl rfl fun _ => .done ⟨rfl, rfl⟩) chain)
    fun phase found found₂ ⟨hphase, hsame⟩ => ?_
  subst hphase hsame
  cases found with
  | none => exact .done rfl
  | some slot => exact .alarm hkey h fun reply reply₂ => .done rfl

namespace Consumer

variable (c : Consumer) (event : Event)

theorem twins_conclude (hkey : r.key = key) (h : Record.Twin first second made r r₂)
    (t : Transition) (outcome : Outcome) :
    Work.Twins key first second Phase.Same (.holding made) (conclude r t outcome)
      (conclude r₂ t outcome) :=
  Record.twins_write_onOk hkey h t (fun _ _ _ _ => .done rfl) (.done rfl) fun _ => rfl

theorem twins_giveUp (hkey : r.key = key) (h : Record.Twin first second made r r₂)
    (message reason : String) :
    Work.Twins key first second Phase.Same (.holding made) (c.giveUp event r message reason)
      (c.giveUp event r₂ message reason) := by
  refine Record.twins_write_onOk hkey h _ (fun stored stored₂ hkey htwin => ?_) (.done rfl)
    fun _ => rfl
  exact (Escalation.twins_escalate c.chain event reason hkey htwin).bind fun _ _ _ _ => .done rfl

theorem twins_onFailure (hkey : r.key = key) (h : Record.Twin first second made r r₂)
    (reason : String) :
    Work.Twins key first second Phase.Same (.holding made) (c.onFailure event r reason)
      (c.onFailure event r₂ reason) := by
  have hretries : r₂.retryTimes = r.retryTimes :=
    (congrArg Record.retryTimes h.eq_with_id).trans rfl
  have hmax : r₂.maxRetryTimes = r.maxRetryTimes :=
    (congrArg Record.maxRetryTimes h.eq_with_id).trans rfl
  unfold onFailure
  rw [hretries, hmax]
  split
  · cases next32 r.retryTimes with
    | error overflow => exact .crash
    | ok n =>
      refine .aside rfl rfl fun now => ?_
      cases c.rule.time now n with
      | error fault => exact .crash
      | ok t => exact twins_conclude hkey h _ _
  · exact twins_giveUp c event hkey h _ _

theorem twins_attempt (hkey : r.key = key) (h : Record.Twin first second made r r₂) :
    Work.Twins key first second Phase.Same (.holding made) (c.attempt event r)
      (c.attempt event r₂) := by
  refine Work.Twins.bind (.firstThat (fun slot => .aside rfl rfl fun _ => .done ⟨rfl, rfl⟩) _)
    fun phase found found₂ ⟨hphase, hsame⟩ => ?_
  subst hphase hsame
  cases found with
  | none => exact twins_conclude hkey h _ _
  | some slot =>
    refine .aside rfl rfl fun verdict => ?_
    cases verdict with
    | ok => exact twins_conclude hkey h _ _
    | failed reason | panicked text => exact twins_onFailure c event hkey h _

inductive Hold.Twins (key : Key) (first second : Int) :
    Phase → Except Error Hold → Except Error Hold → Prop
  | owned {made : Bool} {r r₂ : Record} (hkey : r.key = key)
      (h : Record.Twin first second made r r₂) :
      Twins key first second (.holding made) (.ok (.owned r)) (.ok (.owned r₂))
  | busy {phase : Phase} {status : Status} :
      Twins key first second phase (.ok (.busy status)) (.ok (.busy status))
  | error {phase : Phase} {e : Error} : Twins key first second phase (.error e) (.error e)

theorem twins_join (hkey : r.key = key) :
    Work.Twins key first second (Hold.Twins key first second) .seeking (c.join r) (c.join r) := by
  unfold join
  cases r.status with
  | created =>
    refine .settle (.aside rfl rfl fun now => ?_)
    exact Record.twins_write_onOk hkey (.same r) _ (fun _ _ hkey htwin => .done (.owned hkey htwin))
      (.done .busy) fun _ => .error
  | retrying | success | failed => exact .done .busy

theorem twins_found (hkey : c.key event.id = key) :
    Work.Twins key first second (Hold.Twins key first second) .seeking (c.found event)
      (c.found event) := by
  refine .aside rfl rfl fun now => ?_
  cases c.codec.encode event.payload with
  | error e => exact .done .error
  | ok payload =>
    exact .create hkey (fun winner hwinner => c.twins_join hwinner) (.done (.owned hkey (.made rfl)))

theorem twins_reopen (hkey : c.key event.id = key) (hrow : r.key = key) :
    Work.Twins key first second (Hold.Twins key first second) .seeking (c.reopen event r)
      (c.reopen event r) := by
  refine .aside rfl rfl fun now => .tombstone hrow fun accepted => ?_
  cases accepted with
  | true => exact c.twins_found event hkey
  | false => exact .done .busy

theorem twins_acquire (hkey : c.key event.id = key) :
    Work.Twins key first second (Hold.Twins key first second) .seeking (c.acquire event)
      (c.acquire event) := by
  unfold acquire
  rw [hkey]
  refine .find fun row? hrow => ?_
  cases row? with
  | none => exact c.twins_found event hkey
  | some row =>
    by_cases hfailed : row.status = .failed
    · simp only [hfailed, if_true]
      exact c.twins_reopen event hkey (hrow row rfl)
    · simp only [hfailed, if_false]
      exact c.twins_join (hrow row rfl)

/-- **A first delivery** makes no other difference than the number of its row. -/
theorem twins_deliver :
    Work.Twins (c.key event.id) first second Phase.Same .seeking (c.deliver event)
      (c.deliver event) := by
  refine (c.twins_acquire event rfl).bind fun phase hold hold₂ hholds => ?_
  cases hholds with
  | owned hkey h => exact c.twins_attempt event hkey h
  | busy | error => exact .done rfl

/-- **So does a later one**, which makes no row. -/
theorem twins_redeliver :
    Work.Twins (c.key event.id) first second Phase.Same .seeking (c.redeliver event)
      (c.redeliver event) := by
  refine .find fun row? hrow => ?_
  cases row? with
  | none => exact .done rfl
  | some row =>
    have hkey := hrow row rfl
    refine .settle ?_
    cases hstatus : row.status with
    | retrying =>
      simp only [hstatus]
      exact c.twins_attempt event hkey (.same row)
    | created =>
      simp only [hstatus]
      refine .aside rfl rfl fun now => ?_
      exact Record.twins_write_onOk hkey (.same row) _
        (fun _ _ hkey htwin => c.twins_attempt event hkey htwin) (.done rfl) fun _ => rfl
    | success | failed =>
      simp only [hstatus]
      exact .done rfl

end Consumer

namespace Producer

variable (p : Producer) (event : Event)

theorem twins_send (hkey : r.key = key) (h : Record.Twin first second made r r₂) :
    Work.Twins key first second Phase.Same (.holding made) (send event r) (send event r₂) := by
  refine .aside rfl rfl fun reply => ?_
  cases reply with
  | ok => exact (Record.twins_write hkey h _).bind fun _ _ _ _ => .done rfl
  | error e => exact (Record.twins_write hkey h _).bind fun _ _ _ _ => .done rfl

/-- **A publication** makes no other difference either. -/
theorem twins_publish :
    Work.Twins (p.key event.id) first second Phase.Same .seeking (p.publish event)
      (p.publish event) := by
  refine .aside rfl rfl fun now => .create rfl (fun row hrow => ?_) ?_
  · by_cases hsuccess : row.status = .success
    · simp only [hsuccess, if_true]
      exact .done rfl
    · simp only [hsuccess, if_false]
      exact .settle (twins_send event hrow (.same row))
  · exact twins_send event rfl (.made rfl)

end Producer

end Functions

end EventRelay
