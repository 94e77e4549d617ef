import EventRelay.Proofs.Alone.Basic
import EventRelay.Proofs.Crew.Publications

/-!
# Work that tends a row

A worker that replays a row concerns itself with no other one: it looks for the row, and has a changed
copy of it stored, once.  `w.Tends manner r ends written?` says this of work `w` and a row `r`, where
`written?` is the row as the worker has had it stored, `manner` is how the surroundings answer, and
`ends` says how the work ends, with the row as it is stored then.

The ledger is taken at its word.  As nobody else writes the row, it is found as it is and the copy is
accepted, unless the call fails (`Request.About.given`); so work that tends a row can be followed
without knowing anything of the rest of the ledger, nor of those who work on it.
-/

namespace EventRelay

open Work (Progress)

def Manner.Faulty (manner : Manner) : Prop :=
  ∃ (request : Request) (reply : request.Reply) (e : Error),
    request.Fails reply e ∧ manner request reply

/-- A question to user code that is answered by a panic. -/
inductive Request.Panics : (request : Request) → request.Reply → Prop
  | accepts {slot : Nat} {event : Event} {text : String} :
      Panics (.accepts slot event) (.error text)
  | supports {slot : Nat} {eventType : String} {text : String} :
      Panics (.supports slot eventType) (.error text)

def Manner.Panicky (manner : Manner) : Prop :=
  ∃ (request : Request) (reply : request.Reply), request.Panics reply ∧ manner request reply

/-! ### Requests about a row -/

/-- What a worker that tends a row asks for: the row itself, and to have a changed copy stored. -/
inductive Request.About (r : Record) : (written? : Option Record) → Request → Prop
  | aside {written? : Option Record} {request : Request} (h : request.isCall = false) :
      About r written? request
  | find : About r none (.find r.key)
  | update {next : Record} (hkey : next.key = r.key) (hversion : next.version = r.version) :
      About r none (.update next)

/-- What it is given, and the row as it has had it stored after that. -/
inductive Request.Given (manner : Manner) (r : Record) :
    (written? : Option Record) → (request : Request) → request.Reply → Option Record → Prop
  | aside {written? : Option Record} {request : Request} {reply : request.Reply}
      (h : request.isCall = false) (hmanner : manner request reply) :
      Given manner r written? request reply written?
  | fault {written? : Option Record} {request : Request} {reply : request.Reply} {e : Error}
      (h : request.Fails reply e) (hmanner : manner request reply) :
      Given manner r written? request reply written?
  | found (hmanner : manner (.find r.key) (.ok (some r))) :
      Given manner r none (.find r.key) (.ok (some r)) none
  | stored {next : Record} (hmanner : manner (.update next) (.ok true)) :
      Given manner r none (.update next) (.ok true) (some next.revised)

/-- **Work that tends a row**, which it has had stored as `written?`. -/
def Work.Tends {α : Type} (manner : Manner) (r : Record)
    (ends : Option Record → Progress α → Prop) : (written? : Option Record) → Work α → Prop
  | written?, .done a => ends written? (.done a)
  | written?, .crash text => ends written? (.crashed text)
  | written?, .ask request next => request.About r written? ∧
      ∀ reply written', request.Given manner r written? reply written' →
        (next reply).Tends manner r ends written'

/-! ### Ledgers that differ in some rows -/

/-- Whether a ledger has the rows of another one, in their order, up to those under certain keys. -/
structure Store.SameBut (touched : Key → Prop) (s s' : Store) : Prop where
  find : ∀ key, ¬ touched key → s'.find? key = s.find? key
  keys : s'.rows.map Record.key = s.rows.map Record.key
  lastId : s'.lastId = s.lastId

namespace Store

variable {s s' s'' : Store} {touched touched' : Key → Prop}

theorem SameBut.refl (touched : Key → Prop) (s : Store) : s.SameBut touched s :=
  ⟨fun _ _ => rfl, rfl, rfl⟩

theorem SameBut.trans (h : s.SameBut touched s') (h' : s'.SameBut touched s'') :
    s.SameBut touched s'' :=
  ⟨fun key hkey => (h'.find key hkey).trans (h.find key hkey), h'.keys.trans h.keys,
    h'.lastId.trans h.lastId⟩

theorem SameBut.mono (h : s.SameBut touched s') (hmore : ∀ key, touched key → touched' key) :
    s.SameBut touched' s' :=
  ⟨fun key hkey => h.find key fun hold => hkey (hmore key hold), h.keys, h.lastId⟩

theorem SameBut.replace (s : Store) (r : Record) : s.SameBut (· = r.key) (s.replace r) :=
  ⟨fun _ hkey => find?_replace_of_ne (Ne.symm hkey), map_key_replace s r, rfl⟩

theorem SameBut.keyed (h : s.SameBut touched s') (hkeyed : s.Keyed) : s'.Keyed := by
  unfold Keyed
  rw [h.keys]
  exact hkeyed

theorem SameBut.mem (h : s.SameBut touched s') (hkeyed : s.Keyed) {r : Record} (hr : r ∈ s.rows)
    (hkey : ¬ touched r.key) : r ∈ s'.rows :=
  mem_of_find? ((h.find r.key hkey).trans (hkeyed.find? hr))

/-- **A ledger is told by its keys and by what is found under them.** -/
theorem eq_of_find? (hkeyed : s.Keyed) (hkeys : s'.rows.map Record.key = s.rows.map Record.key)
    (hlast : s'.lastId = s.lastId) (hfind : ∀ r ∈ s.rows, s'.find? r.key = s.find? r.key) :
    s' = s := by
  have hkeyed' : s'.Keyed := by
    unfold Keyed
    rw [hkeys]
    exact hkeyed
  have hlength : s'.rows.length = s.rows.length := by
    rw [← List.length_map (f := Record.key), hkeys, List.length_map]
  have hrows : s'.rows = s.rows := by
    refine List.ext_getElem hlength fun i hi hi' => ?_
    have hkey : s'.rows[i].key = s.rows[i].key := by
      rw [← List.getElem_map Record.key (h := by simpa using hi),
        ← List.getElem_map Record.key (h := by simpa using hi')]
      simp only [hkeys]
    have hsame := hfind s.rows[i] (List.getElem_mem hi')
    rw [← hkey, hkeyed'.find? (List.getElem_mem hi), hkey,
      hkeyed.find? (List.getElem_mem hi')] at hsame
    exact Option.some.inj hsame
  cases s
  cases s'
  cases hrows
  cases hlast
  rfl

end Store

/-! ### What the ledger does to a row that is tended -/

namespace Request.About

variable {manner : Manner} {r : Record} {written? : Option Record} {request : Request}
  {s s' : Store}

/-- **A worker that tends a row is given what it expects**, if the ledger has the row as the worker
has had it stored.  Other rows stay as they are. -/
theorem given (h : request.About r written?) (hfind : s.find? r.key = some (written?.getD r))
    (hopen : r.status.isTerminal = false) (hrevisable : r.Revisable) {reply : request.Reply}
    (hreply : s.Replies request reply s') (hmanner : manner request reply) :
    ∃ written', request.Given manner r written? reply written' ∧
      s'.find? r.key = some (written'.getD r) ∧ s.SameBut (· = r.key) s' := by
  rcases hreply with hreply | ⟨⟨e, hfails⟩, rfl⟩
  · cases h with
    | aside hcall =>
      have hsame : s' = s := by
        cases request <;> first | exact hreply | cases hcall
      subst hsame
      exact ⟨written?, .aside hcall hmanner, hfind, .refl _ _⟩
    | find =>
      obtain ⟨rfl, rfl⟩ := hreply
      have hmanner : manner (.find r.key) (.ok (some r)) := by
        rw [hfind] at hmanner
        exact hmanner
      refine ⟨none, ?_, hfind, .refl _ _⟩
      rw [hfind]
      exact .found hmanner
    | @update next hkey hversion =>
      obtain ⟨done, hupdate, rfl⟩ := hreply
      have haccepted := Store.update_of_revisable (s := s) (r := next) (hkey ▸ hfind) hversion.symm
        hopen (Record.revisable_of_version hversion hrevisable)
      cases hupdate.symm.trans haccepted
      have hframe : s.SameBut (· = next.revised.key) (s.replace next.revised) := .replace s _
      refine ⟨some next.revised, .stored hmanner, ?_, hframe.mono fun key hsame => ?_⟩
      · exact Store.find?_replace_of_eq hfind (r := next.revised) hkey
      · exact hsame.trans hkey
  · exact ⟨written?, .fault hfails hmanner, hfind, .refl _ _⟩

theorem not_overflows (h : request.About r written?) (hrevisable : r.Revisable) {o : Overflow} :
    ¬ s.Overflows request o s' := by
  intro hover
  cases h with
  | aside hcall =>
    rcases hover.request_cases with ⟨next, rfl, -⟩ | ⟨next, now, rfl⟩
    · cases hcall
    · cases hcall
  | find => exact hover
  | update hkey hversion =>
    obtain ⟨stored, -, -, hnot⟩ := hover.of_update
    exact hnot (Record.revisable_of_version hversion hrevisable)

end Request.About

/-- How the guarded write of a row ends that nobody else changes. -/
inductive Record.Writes (manner : Manner) (r : Record) (t : Transition) :
    Option Record → Progress (Except Error (Option Record)) → Prop
  | stored {now : Instant} {next : Record} (h : r.transition t now = .ok next) :
      Writes manner r t (some next.revised) (.done (.ok (some next.revised)))
  | fault {e : Error} (h : manner.Faulty) : Writes manner r t none (.done (.error e))

/-- How a question to user code ends. -/
inductive Manner.Answered (manner : Manner) (written? : Option Record) :
    Option Record → Progress (Except String Bool) → Prop
  | answer (yes : Bool) : Answered manner written? written? (.done (.ok yes))
  | panic {text : String} (h : manner.Panicky) :
      Answered manner written? written? (.done (.error text))

/-- Work ends without another write, and crashes only where user code panics. -/
inductive Manner.Spares {α : Type} (manner : Manner) (written? : Option Record) :
    Option Record → Progress α → Prop
  | done (a : α) : Spares manner written? written? (.done a)
  | panicked {text : String} (h : manner.Panicky) : Spares manner written? written? (.crashed text)

/-! ### Composing -/

namespace Work.Tends

variable {α β ε : Type} {manner : Manner} {r : Record} {written? : Option Record}
  {ends ends' : Option Record → Progress α → Prop}

theorem mono {w : Work α} (h : w.Tends manner r ends written?)
    (hends : ∀ written' progress, ends written' progress → ends' written' progress) :
    w.Tends manner r ends' written? := by
  induction w generalizing written? with
  | done a => exact hends _ _ h
  | crash text => exact hends _ _ h
  | ask request next ih =>
    exact ⟨h.1, fun reply written' hgiven => ih reply (h.2 reply written' hgiven)⟩

theorem aside {request : Request} {next : request.Reply → Work α} (hcall : request.isCall = false)
    (hnext : ∀ reply, manner request reply → (next reply).Tends manner r ends written?) :
    (Work.ask request next).Tends manner r ends written? := by
  refine ⟨.aside hcall, fun reply written' hgiven => ?_⟩
  cases hgiven with
  | aside _ hmanner => exact hnext reply hmanner
  | fault hfails => cases request <;> first | exact hfails.elim | cases hcall
  | found | stored => cases hcall

theorem bind {m : Option Record → Progress β → Prop} {w : Work β} {f : β → Work α}
    (hw : w.Tends manner r m written?)
    (hf : ∀ written' b, m written' (.done b) → (f b).Tends manner r ends written')
    (hcrash : ∀ written' text, m written' (.crashed text) → ends written' (.crashed text)) :
    (w.bind f).Tends manner r ends written? := by
  induction w generalizing written? with
  | done b => exact hf _ b hw
  | crash text => exact hcrash _ text hw
  | ask request next ih =>
    exact ⟨hw.1, fun reply written' hgiven => ih reply (hw.2 reply written' hgiven)⟩

theorem onOk {m : Option Record → Progress (Except ε β) → Prop}
    {ends : Option Record → Progress (Except ε α) → Prop} {w : Work (Except ε β)}
    {f : β → Work (Except ε α)} (hw : w.Tends manner r m written?)
    (hok : ∀ written' b, m written' (.done (.ok b)) → (f b).Tends manner r ends written')
    (herror : ∀ written' e, m written' (.done (.error e)) → ends written' (.done (.error e)))
    (hcrash : ∀ written' text, m written' (.crashed text) → ends written' (.crashed text)) :
    (w.onOk f).Tends manner r ends written? := by
  refine hw.bind (fun written' result hm => ?_) hcrash
  cases result with
  | ok b => exact hok written' b hm
  | error e => exact herror written' e hm

/-- **A guarded write** is accepted, or the ledger fails. -/
theorem write {t : Transition} (hnext : ∀ now, ∃ next, r.transition t now = .ok next) :
    (r.write t).Tends manner r (r.Writes manner t) none := by
  refine aside rfl fun now _ => ?_
  obtain ⟨next, hnext⟩ := hnext now
  simp only [hnext]
  refine ⟨.update (Record.key_transition hnext) (Record.version_transition hnext),
    fun reply written' hgiven => ?_⟩
  cases hgiven with
  | aside hcall => cases hcall
  | fault hfails hmanner =>
    cases hfails
    exact .fault ⟨.update next, _, _, rfl, hmanner⟩
  | stored => exact .stored hnext

theorem accepts (slot : Nat) (event : Event) :
    (Work.request (.accepts slot event)).Tends manner r (manner.Answered written?) written? :=
  aside rfl fun reply hmanner => by
    cases reply with
    | ok yes => exact .answer yes
    | error text => exact .panic ⟨_, _, .accepts, hmanner⟩

theorem supports (slot : Nat) (eventType : String) :
    (Work.request (.supports slot eventType)).Tends manner r (manner.Answered written?) written? :=
  aside rfl fun reply hmanner => by
    cases reply with
    | ok yes => exact .answer yes
    | error text => exact .panic ⟨_, _, .supports, hmanner⟩

/-- **Asking slots**: one is found, or none, unless user code panics. -/
theorem firstThat {ask : (slot : Nat) → Work (Except String Bool)}
    (hask : ∀ slot, (ask slot).Tends manner r (manner.Answered written?) written?)
    (slots : List Nat) :
    (Work.firstThat ask slots).Tends manner r (manner.Spares written?) written? := by
  induction slots with
  | nil => exact .done none
  | cons slot rest ih =>
    refine (hask slot).bind (fun written' answer h => ?_) fun written' text h => ?_
    · cases h with
      | answer yes =>
        cases yes with
        | true => exact .done (some slot)
        | false => exact ih
      | panic hpanicky => exact .panicked hpanicky
    · cases h

end Work.Tends

end EventRelay
