import EventRelay.Proofs.Crew.Origins

/-!
# Calls one after the other

`Crew.Serial` is a ledger that is used by one call at a time.  A call works off one errand, and the
only workers that it has besides are those to which its scan hands rows out; it may fail, and it may
be dropped at any of its requests.

A first delivery is then alone when it deletes a row, and the workers of a scan delete none
(`Chart.Calm`).  So whoever holds a copy of a row holds it of the row that is found under its key
(`Chart.Current`), which in a crew at large is not so.
-/

namespace EventRelay

namespace Crew

/-- **Calls one after the other.**  The next call begins when the one before it is over, or was
dropped. -/
inductive Serial (init : Crew) : List Entry → Crew → Prop
  | start : Serial init [] init
  | call {log : List Entry} {crew : Crew} (prior : Serial init log crew) {errand : Errand}
      (herrand : errand.FromOutside) : Serial init log (waiting crew.store [errand])
  /-- A step of the call that is going on. -/
  | step {log : List Entry} {crew crew' : Crew} {entry : Entry} (prior : Serial init log crew)
      (hbegan : ∀ errand, entry ≠ .began errand) (h : Step crew entry crew') :
      Serial init (log ++ [entry]) crew'

theorem Serial.run {init crew crew' : Crew} {log part : List Entry} (h : Serial init log crew)
    (hrun : crew.Run part crew') (hbegan : ∀ errand, Entry.began errand ∉ part) :
    Serial init (log ++ part) crew' := by
  induction hrun with
  | start =>
    rw [List.append_nil]
    exact h
  | @step part _ _ entry prior hstep ih =>
    rw [← List.append_assoc]
    have hprior := ih fun errand hmem => hbegan errand (List.mem_append_left _ hmem)
    refine hprior.step ?_ hstep
    rintro errand rfl
    exact hbegan errand (List.mem_append_right _ (List.mem_singleton_self _))

end Crew

/-! ### Who deletes rows -/

/-- Whether a worker leaves the rows there are, as all do but first deliveries. -/
def Post.Spares : Post → Prop
  | .delivery _ _ (.seeking again) => again = true
  | .delivery _ _ (.reopening _) => False
  | _ => True

theorem Post.Spares.move {post post' : Post} {request : Request} {reply : request.Reply}
    (h : post.Spares) (hmove : post.Moves request reply post') : post'.Spares := by
  cases hmove with
  | publication | clock | selected => trivial
  | @delivery c event stage stage' _ _ hmove =>
    cases stage' with
    | seeking again => exact absurd hmove Consumer.not_moves_seeking
    | reopening r =>
      rcases hmove.to_reopening with rfl | ⟨rfl, -⟩
      · exact h
      · cases h
    | founding | joining r | holding r attempt | notifying stored | ended outcome => trivial

theorem Post.spares_replay (p : Replayer) (r : Record) : (Errand.replay p r).post.Spares := by
  rcases Errand.post_replay_cases p r with ⟨event, hpost⟩ | ⟨event, reason, hpost⟩
  · rw [hpost]
    rfl
  · rw [hpost]
    trivial

namespace Chart

variable {chart chart' : Chart} {entry : Entry}

/-- One worker is alone, or none of them deletes a row. -/
def Calm (chart : Chart) : Prop :=
  chart.posts.length ≤ 1 ∨ ∀ (i : Nat) post, chart.posts[i]? = some post → post.Spares

theorem Calm.step (h : chart.Calm) (hstep : chart.Step entry chart')
    (hbegan : ∀ errand, entry ≠ .began errand) : chart'.Calm := by
  rcases h with hsole | hspares
  · cases hstep with
    | began errand => exact absurd rfl (hbegan errand)
    | asked hpost h hmove =>
      left
      rw [List.length_set]
      exact hsole
    | crashed hpost h hmove =>
      left
      rw [List.length_set]
      exact hsole
    | @handedOut s posts i p rows hsel =>
      right
      intro j post hpost
      have hstep : Step ⟨s, posts⟩ (.handedOut i rows) _ := .handedOut hsel
      cases hstep.came hpost with
      | stayed hold hentry =>
        -- the scan itself is the only worker so far
        have hi := (List.getElem?_eq_some_iff.mp hsel).1
        have hj := (List.getElem?_eq_some_iff.mp hold).1
        obtain rfl : i = j := by
          have : posts.length ≤ 1 := hsole
          omega
        exact Option.some.inj (hsel.symm.trans hold) ▸ trivial
      | moved hentry | joined hpost hentry | crashed hpost hentry => cases hentry
      | handed hpost => exact hpost ▸ Post.spares_replay _ _
      | emptied hpost => exact hpost ▸ trivial
  · right
    intro j post hpost
    cases hstep.came hpost with
    | stayed hold hentry => exact hspares j post hold
    | moved hentry hold hreply hmove => exact (hspares j _ hold).move hmove
    | joined hpost hentry hj => exact absurd hentry (hbegan _)
    | handed hpost hentry hsel hr hj => exact hpost ▸ Post.spares_replay _ _
    | emptied hpost hentry hsel => exact hpost ▸ trivial
    | crashed hpost hentry => exact hpost ▸ trivial

theorem Calm.copies_of_cleared (h : chart.Calm) (hstep : chart.Step entry chart') {key : Key}
    (hcleared : entry.cleared? = some key) {j : Nat} {post : Post}
    (hpost : chart'.posts[j]? = some post) : post.copies = [] := by
  obtain ⟨i, r, now, -, hentry⟩ := Entry.of_cleared? hcleared
  obtain ⟨c, event, hreopening⟩ := hstep.reopening hentry
  have hsole : chart.posts.length ≤ 1 := by
    rcases h with hsole | hspares
    · exact hsole
    · exact (hspares i _ hreopening).elim
  have hi := (List.getElem?_eq_some_iff.mp hreopening).1
  have hothers : ∀ k, i ≠ k → chart.posts[k]? = none := by
    intro k hk
    rw [List.getElem?_eq_none_iff]
    omega
  rcases hentry with rfl | rfl
  · cases hstep with
    | asked hold h hmove =>
      rcases getElem?_set_cases hpost with ⟨rfl, rfl⟩ | ⟨hij, hpost⟩
      · cases hmove with
        | delivery hmove =>
          cases hmove with
          | freed => rfl
          | fault hfails hs => cases hfails
        | publication hmove => cases hmove
      · exact absurd (hpost.symm.trans (hothers j hij)) (by simp)
  · cases hstep with
    | crashed hold h hmove =>
      rcases getElem?_set_cases hpost with ⟨rfl, rfl⟩ | ⟨hij, hpost⟩
      · rfl
      · exact absurd (hpost.symm.trans (hothers j hij)) (by simp)

/-! ### Copies of rows that are there -/

/-- **What workers hold is there.** -/
structure Current (chart : Chart) : Prop where
  keyed : chart.store.Keyed
  calm : chart.Calm
  copies : ∀ (i : Nat) post, chart.posts[i]? = some post → ∀ r ∈ post.copies,
    r.deleteMarker = 0 ∧ ∃ row, chart.store.find? r.key = some row ∧ row.id = r.id
  /-- A row that is about to be deleted has failed, and is as it was found. -/
  failed : ∀ (i : Nat) c event r, chart.posts[i]? = some (.delivery c event (.reopening r)) →
    chart.store.find? r.key = some r ∧ r.status = .failed

theorem Current.of_update (h : chart.Current) {i : Nat} {next : Record}
    (hstep : chart.Step (.asked i (.update next) (.ok true)) chart') :
    next.deleteMarker = 0 ∧ ∃ row, chart.store.find? next.key = some row ∧ row.id = next.id := by
  obtain ⟨post, post', hpost, -, -, hmove⟩ := hstep.of_asked
  obtain ⟨source, hsource, hsame⟩ := hmove.source_of_update
  obtain ⟨hmarker, row, hfind, hid⟩ := h.copies i post hpost source hsource
  rw [← hsame.key] at hfind
  have hkeys : next.deleteMarker = source.deleteMarker := congrArg Key.deleteMarker hsame.key
  exact ⟨hkeys.trans hmarker, row, hfind, hid.trans hsame.id.symm⟩

theorem Current.find_step (h : chart.Current) (hstep : chart.Step entry chart') {key : Key}
    {row : Record} (hmarker : key.deleteMarker = 0) (hfind : chart.store.find? key = some row)
    (hcleared : entry.cleared? ≠ some key) :
    ∃ row', chart'.store.find? key = some row' ∧ row'.id = row.id := by
  rcases hstep.effect.find_next hmarker hfind hcleared with
    ⟨i, next, rfl, rfl, -, -, hfind'⟩ | ⟨-, hfind'⟩
  · obtain ⟨-, stored, hstored, hid⟩ := h.of_update hstep
    obtain rfl : row = stored := Option.some.inj (hfind.symm.trans hstored)
    exact ⟨next.revised, hfind', hid.symm⟩
  · exact ⟨row, hfind', rfl⟩

theorem Current.copies_step (h : chart.Current) (hstep : chart.Step entry chart')
    (hbegan : ∀ errand, entry ≠ .began errand) :
    ∀ (i : Nat) post, chart'.posts[i]? = some post → ∀ r ∈ post.copies,
      r.deleteMarker = 0 ∧ ∃ row, chart'.store.find? r.key = some row ∧ row.id = r.id := by
  intro i post hpost r hr
  -- a copy that was there before
  have hold : ∀ (j : Nat) old, chart.posts[j]? = some old → ∀ source ∈ old.copies,
      source.deleteMarker = 0 ∧
        ∃ row, chart'.store.find? source.key = some row ∧ row.id = source.id := by
    intro j old hj source hsource
    obtain ⟨hmarker, row, hfind, hid⟩ := h.copies j old hj source hsource
    have hcleared : entry.cleared? ≠ some source.key := by
      intro hcleared
      rw [h.calm.copies_of_cleared hstep hcleared hpost] at hr
      cases hr
    obtain ⟨row', hfind', hid'⟩ := h.find_step hstep hmarker hfind hcleared
    exact ⟨hmarker, row', hfind', hid'.trans hid⟩
  cases hstep.came hpost with
  | stayed hstay hentry => exact hold i post hstay r hr
  | @moved old _ request reply hentry hthere hreply hmove =>
    obtain ⟨source, hsource, hsame⟩ := hmove.source_of_copy hreply hr
    have hkeys : r.deleteMarker = source.deleteMarker := congrArg Key.deleteMarker hsame.key
    rw [hkeys, hsame.key, hsame.id]
    rcases hsource with hcopy | ⟨hmem, hmarker⟩
    · exact hold i old hthere source hcopy
    · exact ⟨hmarker, source, (hstep.effect.keyed h.keyed).find? hmem, rfl⟩
  | joined hpost hentry hj => exact absurd hentry (hbegan _)
  | @handed j p rows row _ hpost hentry hsel hrow hj =>
    rw [hpost] at hr
    obtain rfl := Errand.eq_of_mem_copies hr
    exact hold j _ hsel r hrow
  | emptied hpost hentry hsel =>
    rw [hpost] at hr
    cases hr
  | crashed hpost hentry =>
    rw [hpost] at hr
    cases hr

theorem Current.failed_step (h : chart.Current) (hstep : chart.Step entry chart') :
    ∀ (i : Nat) c event r, chart'.posts[i]? = some (.delivery c event (.reopening r)) →
      chart'.store.find? r.key = some r ∧ r.status = .failed := by
  intro i c event r hpost
  rcases hstep.to_reopening hpost with hold | ⟨hfailed, -, -, -, hfind⟩
  · obtain ⟨hfind, hfailed⟩ := h.failed i c event r hold
    have hcopy : r ∈ (Post.delivery c event (.reopening r)).copies := List.mem_singleton_self r
    obtain ⟨hmarker, -⟩ := h.copies i _ hold r hcopy
    have hterminal : r.status.isTerminal = true := by rw [hfailed]; rfl
    rcases hstep.effect.find_terminal hmarker hfind hterminal with
      hkept | ⟨j, copy, now, -, -, hentry⟩
    · exact ⟨hkept, hfailed⟩
    · have hcleared : entry.cleared? = some copy.key := by rcases hentry with rfl | rfl <;> rfl
      rw [h.calm.copies_of_cleared hstep hcleared hpost] at hcopy
      cases hcopy
  · exact ⟨hfind, hfailed⟩

theorem Current.step (h : chart.Current) (hstep : chart.Step entry chart')
    (hbegan : ∀ errand, entry ≠ .began errand) : chart'.Current where
  keyed := hstep.effect.keyed h.keyed
  calm := h.calm.step hstep hbegan
  copies := h.copies_step hstep hbegan
  failed := h.failed_step hstep

theorem current_call {s : Store} {errand : Errand} (hkeyed : s.Keyed)
    (herrand : errand.FromOutside) : Current ⟨s, [errand].map Errand.post⟩ where
  keyed := hkeyed
  calm := .inl (Nat.le_refl 1)
  copies i post hpost r hr := by
    obtain rfl := List.mem_singleton.mp (List.mem_of_getElem? hpost)
    rw [herrand.copies] at hr
    cases hr
  failed i c event r hpost := by
    have hsame := List.mem_singleton.mp (List.mem_of_getElem? hpost)
    exact absurd hsame.symm Errand.post_ne_reopening

end Chart

end EventRelay
