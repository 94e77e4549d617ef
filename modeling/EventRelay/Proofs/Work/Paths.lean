import EventRelay.Proofs.Work.Panics

/-!
# Paths through work

What a listener hears while work is carried out is a path through it, with replies from first to last
(`path_overhear`).  So what holds on all paths holds whatever the surroundings are, however their
replies hang together, and whether or not they reply at all.
-/

namespace EventRelay

open Work (Progress)

def Heard.Answered (x : Heard) : Prop :=
  ∃ reply, x.came = .done reply

namespace Work

variable {σ τ α : Type}

/-- A path through work: what is heard on it, and how it ends. -/
inductive Path : Work α → List Heard → Progress α → Prop
  | done (a : α) : Path (.done a) [] (.done a)
  | crash (text : String) : Path (.crash text) [] (.crashed text)
  | answered {request : Request} {next : request.Reply → Work α} {reply : request.Reply}
      {heard : List Heard} {progress : Progress α} (onwards : Path (next reply) heard progress) :
      Path (.ask request next) (⟨request, .done reply⟩ :: heard) progress
  | crashed (request : Request) (next : request.Reply → Work α) (text : String) :
      Path (.ask request next) [⟨request, .crashed text⟩] (.crashed text)
  | stalled (request : Request) (next : request.Reply → Work α) :
      Path (.ask request next) [⟨request, .stalled⟩] .stalled

theorem Path.exists_eq_cons {request : Request} {next : request.Reply → Work α}
    {heard : List Heard} {progress : Progress α} (h : (Work.ask request next).Path heard progress) :
    ∃ came more, heard = ⟨request, came⟩ :: more := by
  cases h <;> exact ⟨_, _, rfl⟩

theorem Path.mem_ask {request : Request} {next : request.Reply → Work α} {heard : List Heard}
    {progress : Progress α} (h : (Work.ask request next).Path heard progress) {x : Heard}
    (hx : x ∈ heard) :
    x.request = request ∨ ∃ reply more, heard = ⟨request, .done reply⟩ :: more ∧ x ∈ more ∧
      (next reply).Path more progress := by
  cases h with
  | @answered _ _ reply more _ onwards =>
    rcases List.mem_cons.mp hx with rfl | hx
    · exact .inl rfl
    · exact .inr ⟨reply, more, rfl, hx, onwards⟩
  | crashed | stalled =>
    rw [List.mem_singleton.mp hx]
    exact .inl rfl

/-- What a listener hears while work is carried out. -/
def overhear (env : Replies σ) (w : Work α) (s : σ) : List Heard :=
  (w.run env.overheard (s, [])).2.2

theorem exists_path (env : Replies σ) (w : Work α) (s : σ) (heard : List Heard) :
    ∃ more, (w.run env.overheard (s, heard)).2.2 = heard ++ more ∧ w.Path more (w.run env s).1 := by
  induction w generalizing s heard with
  | done a => exact ⟨[], (List.append_nil _).symm, .done a⟩
  | crash text => exact ⟨[], (List.append_nil _).symm, .crash text⟩
  | ask request next ih =>
    simp only [run, Replies.overheard]
    rcases env request s with ⟨reply | text | _, s'⟩
    · obtain ⟨more, hmore, hpath⟩ := ih reply s' (heard ++ [⟨request, .done reply⟩])
      rw [List.append_assoc] at hmore
      exact ⟨_, hmore, .answered hpath⟩
    · exact ⟨_, rfl, .crashed request next text⟩
    · exact ⟨_, rfl, .stalled request next⟩

/-- **What a listener hears is a path**, and it ends as the work does. -/
theorem path_overhear (env : Replies σ) (w : Work α) (s : σ) :
    w.Path (w.overhear env s) (w.run env s).1 := by
  obtain ⟨more, hmore, hpath⟩ := exists_path env w s []
  rw [overhear, hmore]
  exact hpath

/-- **Work comes to a result exactly if everything is answered**, if it is on a course on which
nothing crashes. -/
theorem Follows.returns {course : Course τ} {ends : τ → α → Prop} {place : τ} {w : Work α}
    (h : w.Follows course ends place) (hcrashes : ∀ place text, ¬ course.crashes place text)
    {heard : List Heard} {progress : Progress α} (hpath : w.Path heard progress) :
    (∃ a, progress = .done a) ↔ ∀ x ∈ heard, x.Answered := by
  induction hpath generalizing place with
  | done a => exact ⟨fun _ _ hx => absurd hx List.not_mem_nil, fun _ => ⟨a, rfl⟩⟩
  | crash text => exact absurd h (hcrashes place text)
  | @answered request next reply heard progress _ ih =>
    obtain ⟨place', -, hnext⟩ := h reply
    rw [ih hnext, List.forall_mem_cons]
    exact ⟨fun hothers => ⟨⟨reply, rfl⟩, hothers⟩, And.right⟩
  | crashed request next text =>
    refine ⟨nofun, fun hanswered => ?_⟩
    obtain ⟨reply, hreply⟩ := hanswered _ (List.mem_singleton_self _)
    cases hreply
  | stalled request next =>
    refine ⟨nofun, fun hanswered => ?_⟩
    obtain ⟨reply, hreply⟩ := hanswered _ (List.mem_singleton_self _)
    cases hreply

end Work

end EventRelay
