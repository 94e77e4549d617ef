import EventRelay.Proofs.Crew.Basic

/-!
# Crews by turns

A crew whose steps are computed: one worker after the other has a turn, as a list of turns says, in
which it asks for one thing.  The ledger answers as it is, the clock stands still, and user code
does what the turn says.  What a played crew does is one of its runs (`run_of_play`), so that a
history can be given by naming whose turn it is.
-/

namespace EventRelay

def Store.reply? (s : Store) (verdict : Verdict) : (r : Request) → Option (r.Reply × Store)
  | .now => some ((default : Instant), s)
  | .find key => some (.ok (s.find? key), s)
  | .create r => some (.ok (s.create r).1, (s.create r).2)
  | .update r =>
    match s.update r with
    | (.ok done, s') => some (.ok done, s')
    | (.error _, _) => none
  | .tombstone r now =>
    match s.tombstone r now with
    | (.ok done, s') => some (.ok done, s')
    | (.error _, _) => none
  | .due now limit => some (.ok (s.due now limit), s)
  | .send _ => some (.ok (), s)
  | .accepts _ _ => some (.ok true, s)
  | .handle _ _ => some (verdict, s)
  | .supports _ _ => some (.ok true, s)
  | .escalate _ _ _ _ => some (verdict, s)

theorem Store.replies_of_reply? {s s' : Store} {verdict : Verdict} {r : Request} {reply : r.Reply}
    (h : s.reply? verdict r = some (reply, s')) : s.Replies r reply s' := by
  refine .inl ?_
  cases r with
  | now | send event | accepts slot event | handle slot event | supports slot eventType
  | escalate slot event record reason =>
    cases h
    rfl
  | find key | create r | due now limit =>
    cases h
    exact ⟨rfl, rfl⟩
  | update r =>
    simp only [reply?] at h
    split at h
    · rename_i done s'' hupdate
      cases h
      exact ⟨done, hupdate, rfl⟩
    · cases h
  | tombstone r now =>
    simp only [reply?] at h
    split at h
    · rename_i done s'' htombstone
      cases h
      exact ⟨done, htombstone, rfl⟩
    · cases h

namespace Crew

/-- The worker whose turn it is, and what user code does. -/
abbrev Turn := Nat × Verdict

def turn (crew : Crew) (t : Turn) : Option (Entry × Crew) :=
  match crew.jobs[t.1]? with
  | some (.ask request next) =>
    (crew.store.reply? t.2 request).map fun (reply, s') =>
      (.asked t.1 request reply, ⟨s', crew.jobs.set t.1 (next reply)⟩)
  | _ => none

def play (crew : Crew) : List Turn → Option (List Entry × Crew)
  | [] => some ([], crew)
  | t :: rest =>
    (crew.turn t).bind fun (entry, crew) =>
      (crew.play rest).map fun (log, crew) => (entry :: log, crew)

theorem step_of_turn {crew crew' : Crew} {t : Turn} {entry : Entry}
    (h : crew.turn t = some (entry, crew')) : crew.Step entry crew' := by
  unfold turn at h
  split at h
  · rename_i request next hjob
    obtain ⟨⟨reply, s'⟩, hreply, heq⟩ := Option.map_eq_some_iff.mp h
    cases heq
    exact .asked hjob (Store.replies_of_reply? hreply)
  · cases h

/-- **What is played is a run.** -/
theorem run_of_play {crew crew' : Crew} {turns : List Turn} {log : List Entry}
    (h : crew.play turns = some (log, crew')) : crew.Run log crew' := by
  induction turns generalizing crew log with
  | nil =>
    cases h
    exact .start
  | cons t rest ih =>
    obtain ⟨⟨entry, crew₁⟩, hturn, h⟩ := Option.bind_eq_some_iff.mp h
    obtain ⟨⟨log', crew₂⟩, hrest, heq⟩ := Option.map_eq_some_iff.mp h
    cases heq
    exact (Run.start.step (step_of_turn hturn)).trans (ih hrest)

theorem not_began_of_play {crew crew' : Crew} {turns : List Turn} {log : List Entry}
    (h : crew.play turns = some (log, crew')) (errand : Errand) : Entry.began errand ∉ log := by
  induction turns generalizing crew log with
  | nil =>
    cases h
    exact List.not_mem_nil
  | cons t rest ih =>
    obtain ⟨⟨entry, crew₁⟩, hturn, h⟩ := Option.bind_eq_some_iff.mp h
    obtain ⟨⟨log', crew₂⟩, hrest, heq⟩ := Option.map_eq_some_iff.mp h
    cases heq
    have hentry : ∃ request reply, entry = .asked t.1 request reply := by
      unfold turn at hturn
      split at hturn
      · obtain ⟨reply, -, heq⟩ := Option.map_eq_some_iff.mp hturn
        cases heq
        exact ⟨_, _, rfl⟩
      · cases hturn
    obtain ⟨request, reply, rfl⟩ := hentry
    intro hmem
    rcases List.mem_cons.mp hmem with hmem | hmem
    · cases hmem
    · exact ih hrest hmem

/-! ### Small crews -/

/-- A consumer with one handler, which allows so many retries and plans each at once. -/
def clerk (retries : Nat) : Consumer where
  config := { ownerGroup := "g", defaultMaxRetries := retries }
  routes := ⟨[], [0]⟩
  rule := .schedule ⟨fun tried limit => tried < limit, fun _ => .ok default⟩
  chain := []
  codec := .json

def parcel : Event := ⟨"e", "t", .null, default, none⟩

def turns (count : Nat) (i : Nat) (verdict : Verdict) : List Turn :=
  List.replicate count (i, verdict)

end Crew

end EventRelay
