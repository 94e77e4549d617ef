import EventRelay.Proofs.Crew.Solo
import EventRelay.Proofs.Crew.Turns

/-!
# Reopening a failed row

A first delivery that finds its row failed deletes it and creates another one.  These are two calls
to the ledger, and between them the payload is encoded, which may fail like any call.  Whoever
encodes and creates only after the deletion has nothing to go back to.

`reopening_kept_iff` says what a first delivery leaves of an active row when any of its calls may
fail: the row, or another one in its place, unless it stops exactly there.  Then the failed row is
filed away, and its event has no row that a scan would find (`reopening_lost`).
-/

namespace EventRelay

namespace Work.Solo

variable {i : Nat} {s s' : Store} {log : List Entry}

theorem of_ask {request : Request} {next : request.Reply → Work Report} {report : Report}
    (h : Solo i s (.ask request next) log s' (.done report)) :
    ∃ reply mid rest, log = .asked i request reply :: rest ∧ s.Replies request reply mid ∧
      Solo i mid (next reply) rest s' (.done report) := by
  cases h with
  | ask hreply later => exact ⟨_, _, _, rfl, hreply, later⟩

theorem of_now {next : Instant → Work Report} {report : Report}
    (h : Solo i s (.ask .now next) log s' (.done report)) :
    ∃ (now : Instant) (rest : List Entry), log = .asked i .now now :: rest ∧
      Solo i s (next now) rest s' (.done report) := by
  obtain ⟨now, mid, rest, hlog, hnow, hnext⟩ := h.of_ask
  obtain rfl : mid = s := by
    rcases hnow with hnow | ⟨-, hnow⟩
    · exact hnow
    · exact hnow
  exact ⟨now, rest, hlog, hnext⟩

theorem of_done {report report' : Report} (h : Solo i s (.done report) log s' (.done report')) :
    log = [] ∧ s' = s ∧ report' = report := by
  cases h with
  | rest => exact ⟨rfl, rfl, rfl⟩

theorem find?_isSome {c : Consumer} {event : Event} {stage : Consumer.Stage} {w w' : Work Report}
    (h : Solo i s w log s' w')
    (hw : w.Follows Post.course Post.Ends (.delivery c event stage)) (hstage : ¬ stage.Rowless)
    {key : Key} (hkey : key.deleteMarker = 0) (hfind : (s.find? key).isSome) :
    (s'.find? key).isSome := by
  induction h generalizing stage with
  | rest => exact hfind
  | @ask s mid s' request next reply log w' hreply later ih =>
    obtain ⟨post', hmove, hnext⟩ := hw reply
    cases hmove with
    | @delivery _ _ _ stage' _ _ hmove =>
      obtain ⟨row, hrow⟩ := Option.isSome_iff_exists.mp hfind
      refine ih hnext (fun hrowless => hstage (hmove.rowless hrowless)) ?_
      have hcleared : (Entry.asked i request reply).cleared? ≠ some key := by
        intro hcleared
        obtain ⟨j, r, now, -, heq | heq⟩ := Entry.of_cleared? hcleared
        · cases heq
          cases hmove with
          | freed => exact hstage trivial
          | fault hfails hs => cases hfails
        · cases heq
      rcases (hreply.effect (i := i)).find_next hkey hrow hcleared with
        ⟨j, next, -, -, -, -, hnew⟩ | ⟨-, hkept⟩
      · rw [hnew]
        rfl
      · rw [hkept]
        rfl

end Work.Solo

/-! ### Between the deletion and the creation -/

section Reopening

variable {c : Consumer} {event : Event} {i : Nat} {s s' : Store} {log : List Entry}
  {outcome : Except Error Consumer.Outcome} {row : Record}

/-- What a delivery has asked that stops after the deletion of a failed row and before the creation
of another one, and the error that it ends with. -/
inductive Consumer.StopsBetween (c : Consumer) (event : Event) (i : Nat) (row : Record) :
    List Entry → Error → Prop
  | encoding {gone now : Instant} {e : Error} (h : c.codec.encode event.payload = .error e) :
      StopsBetween c event i row
        [.asked i (.find (c.key event.id)) (.ok (some row)), .asked i .now gone,
          .asked i (.tombstone row gone) (.ok true), .asked i .now now] e
  | creating {gone now : Instant} {payload : Bytes} {e : Error}
      (h : c.codec.encode event.payload = .ok payload) :
      StopsBetween c event i row
        [.asked i (.find (c.key event.id)) (.ok (some row)), .asked i .now gone,
          .asked i (.tombstone row gone) (.ok true), .asked i .now now,
          .asked i (.create (c.freshRecord event payload now)) (.error e)] e

theorem Store.Replies.deleted {now : Instant} (hfind : s.find? row.key = some row)
    (hmarker : row.key.deleteMarker = 0) (h : s.Replies (.tombstone row now) (.ok true) s') :
    s'.find? row.key = none ∧ s'.find? (row.deleted now).key = some (row.deleted now).revised := by
  obtain ⟨stored, hstored, -, rfl⟩ := (h.effect (i := 0)).of_deletion
  obtain rfl := Option.some.inj (hfind.symm.trans hstored)
  constructor
  · rw [Store.find?_refile, if_neg (row.key_deleted_ne now hmarker), if_pos rfl]
  · rw [Store.find?_refile, if_pos (Record.key_revised _)]

theorem Consumer.found_unwritable {e : Error} (h : c.codec.encode event.payload = .error e) :
    c.found event = .ask .now fun _ => .done (.error e) := by
  unfold Consumer.found
  rw [h]

theorem Consumer.found_writable {payload : Bytes} (h : c.codec.encode event.payload = .ok payload) :
    c.found event = .ask .now fun now =>
      .ask (.create (c.freshRecord event payload now)) fun
        | .ok (.created r) => .done (.ok (.owned r))
        | .ok (.existing winner) => c.join winner
        | .error e => .done (.error e) := by
  unfold Consumer.found
  simp only [h]
  congr
  funext now
  congr
  funext reply
  match reply with
  | .ok (.created r) => rfl
  | .ok (.existing winner) => rfl
  | .error e => rfl

/-- **Creating after a deletion.**  The key is free, and stays so when the payload cannot be encoded
or the ledger fails. -/
theorem Work.Solo.of_found (hfree : s.find? (c.key event.id) = none)
    (h : Work.Solo i s (((c.found event).onOk fun
      | .owned r => c.attempt event r
      | .busy status => .done (.ok (.skipped status))).bind fun o => .done (.delivery o))
        log s' (.done (.delivery outcome))) :
    ∃ now rest, log = .asked i .now now :: rest ∧
      ((∃ e, outcome = .error e ∧ s' = s ∧
          (rest = [] ∧ c.codec.encode event.payload = .error e ∨
            ∃ payload, c.codec.encode event.payload = .ok payload ∧
              rest = [.asked i (.create (c.freshRecord event payload now)) (.error e)])) ∨
        (s'.find? (c.key event.id)).isSome ∧
          ∃ draft r rest', rest = .asked i (.create draft) (.ok (.created r)) :: rest') := by
  cases hpayload : c.codec.encode event.payload with
  | error e =>
    rw [Consumer.found_unwritable hpayload] at h
    obtain ⟨now, rest, rfl, hdone⟩ := h.of_now
    obtain ⟨rfl, rfl, hreport⟩ := hdone.of_done
    cases hreport
    exact ⟨now, [], rfl, .inl ⟨e, rfl, rfl, .inl ⟨rfl, rfl⟩⟩⟩
  | ok payload =>
    rw [Consumer.found_writable hpayload] at h
    obtain ⟨now, rest, rfl, hcreating⟩ := h.of_now
    obtain ⟨reply, mid', rest, rfl, hcreate, hnext⟩ := hcreating.of_ask
    refine ⟨now, _, rfl, ?_⟩
    match reply with
    | .error e =>
      obtain ⟨rfl, rfl, hreport⟩ := hnext.of_done
      cases hreport
      rcases hcreate with ⟨hcreate, -⟩ | ⟨-, rfl⟩
      · cases hcreate
      · exact .inl ⟨e, rfl, rfl, .inr ⟨payload, rfl, rfl⟩⟩
    | .ok (.existing winner) =>
      rcases hcreate.creation with ⟨_, -, hfind⟩ | hcreation
      · exact absurd (hfree.symm.trans hfind) (by simp)
      · cases hcreation
    | .ok (.created r) =>
      refine .inr ⟨?_, _, r, rest, rfl⟩
      have heffect := hcreate.effect (i := i)
      have hkey : r.key = c.key event.id := heffect.key_of_creation rfl
      have hfind : (mid'.find? (c.key event.id)).isSome := by
        rw [← hkey, (heffect.of_creation rfl).2]
        rfl
      exact hnext.find?_isSome (follows_report (Consumer.follows_attempt r)) (fun hs => hs.elim) rfl
        hfind

/-- **How a first delivery that finds a failed row ends.**  It stops between the deletion and the
creation, or leaves an active row. -/
theorem Work.Solo.of_reopen (hrow : s.find? (c.key event.id) = some row)
    (h : Work.Solo i s (((c.reopen event row).onOk fun
      | .owned r => c.attempt event r
      | .busy status => .done (.ok (.skipped status))).bind fun o => .done (.delivery o))
        log s' (.done (.delivery outcome))) :
    (∃ e now, outcome = .error e ∧
        c.StopsBetween event i row (.asked i (.find (c.key event.id)) (.ok (some row)) :: log) e ∧
        s'.find? (c.key event.id) = none ∧
        s'.find? (row.deleted now).key = some (row.deleted now).revised) ∨
      (s'.find? (c.key event.id)).isSome ∧
        ∀ e, ¬ c.StopsBetween event i row (.asked i (.find (c.key event.id)) (.ok (some row)) :: log)
          e := by
  have hkey := Store.key_of_find? hrow
  have hpresent : (s.find? (c.key event.id)).isSome := hrow ▸ rfl
  obtain ⟨gone, rest, rfl, hasking⟩ := h.of_now
  obtain ⟨reply, mid, rest, rfl, hdeletion, hnext⟩ := hasking.of_ask
  match reply with
  | .error e =>
    obtain ⟨rfl, rfl, hreport⟩ := hnext.of_done
    obtain ⟨done, -, hdone⟩ | ⟨-, rfl⟩ := hdeletion
    · cases hdone
    · exact .inr ⟨hpresent, fun e hstops => by cases hstops⟩
  | .ok false =>
    obtain ⟨rfl, rfl, hreport⟩ := hnext.of_done
    refine .inr ⟨?_, fun e hstops => by cases hstops⟩
    rw [(hdeletion.effect (i := i)).eq rfl rfl rfl]
    exact hpresent
  | .ok true =>
    obtain ⟨hfree, hfiled⟩ := Store.Replies.deleted (hkey ▸ hrow) (hkey ▸ rfl) hdeletion
    rw [hkey] at hfree
    obtain ⟨now, rest, rfl, hend⟩ := hnext.of_found hfree
    rcases hend with ⟨e, rfl, rfl, hstop⟩ | ⟨hpresent, draft, r, rest, rfl⟩
    · refine .inl ⟨e, gone, rfl, ?_, hfree, hfiled⟩
      rcases hstop with ⟨rfl, hpayload⟩ | ⟨payload, hpayload, rfl⟩
      · exact .encoding hpayload
      · exact .creating hpayload
    · exact .inr ⟨hpresent, fun e hstops => by cases hstops⟩

/-- **When an active row is left.**  Let a first delivery find an active row under the key of its
event, where any call to the ledger may fail without effect, and so may the codec.  When it ends,
there is no active row under the key exactly if the row had failed and was deleted, and then the
payload could not be encoded or no other row could be created.  It ends with that error, and the row
that had failed is filed under the key of its marker. -/
theorem reopening_kept_iff (hrow : s.find? (c.key event.id) = some row)
    (hrun : Work.Solo i s (Errand.deliver c event).work log s' (.done (.delivery outcome))) :
    (s'.find? (c.key event.id) = none ↔
      ∃ e, outcome = .error e ∧ row.status = .failed ∧ c.StopsBetween event i row log e) ∧
    (s'.find? (c.key event.id) = none → ∃ now,
      s'.find? (row.deleted now).key = some (row.deleted now).revised) := by
  by_cases hfailed : row.status = .failed
  · obtain ⟨reply, mid, rest, rfl, hfind, hnext⟩ := hrun.of_ask
    match reply with
    | .error e =>
      obtain ⟨rfl, rfl, hreport⟩ := hnext.of_done
      obtain ⟨hfind, -⟩ | ⟨-, rfl⟩ := hfind
      · cases hfind
      · refine ⟨⟨fun hnone => ?_, fun ⟨e, _, _, hstops⟩ => by cases hstops⟩, fun hnone => ?_⟩
        · exact absurd (hrow.symm.trans hnone) (by simp)
        · exact absurd (hrow.symm.trans hnone) (by simp)
    | .ok found =>
      obtain ⟨hfound, rfl⟩ := hfind.found
      obtain rfl : found = some row := hfound.trans hrow
      simp only [hfailed, if_true] at hnext
      rcases hnext.of_reopen hrow with ⟨e, now, rfl, hstops, hnone, hfiled⟩ | ⟨hsome, hnot⟩
      · exact ⟨⟨fun _ => ⟨e, rfl, hfailed, hstops⟩, fun _ => hnone⟩, fun _ => ⟨now, hfiled⟩⟩
      · obtain ⟨kept, hkept⟩ := Option.isSome_iff_exists.mp hsome
        refine ⟨⟨fun hnone => ?_, fun ⟨e, _, _, hstops⟩ => absurd hstops (hnot e)⟩,
          fun hnone => ?_⟩
        · exact absurd (hkept.symm.trans hnone) (by simp)
        · exact absurd (hkept.symm.trans hnone) (by simp)
  · have hsome : (s'.find? (c.key event.id)).isSome := by
      obtain ⟨reply, mid, rest, rfl, hfind, hnext⟩ := hrun.of_ask
      obtain ⟨post, hmove, hfollows⟩ := (Errand.deliver c event).follows reply
      obtain rfl : mid = s := (hfind.effect (i := i)).eq rfl rfl rfl
      cases hmove with
      | delivery hmove =>
        refine hnext.find?_isSome hfollows (fun hrowless => ?_) rfl (hrow ▸ rfl)
        cases hmove with
        | unknown => exact absurd (hfind.found.1.trans hrow) (by simp)
        | reopened h =>
          obtain rfl := Option.some.inj (hfind.found.1.trans hrow)
          exact hfailed h
        | met | passed | fault => exact hrowless
    obtain ⟨kept, hkept⟩ := Option.isSome_iff_exists.mp hsome
    refine ⟨⟨fun hnone => ?_, fun ⟨e, _, hstatus, _⟩ => absurd hstatus hfailed⟩, fun hnone => ?_⟩
    · exact absurd (hkept.symm.trans hnone) (by simp)
    · exact absurd (hkept.symm.trans hnone) (by simp)

end Reopening

namespace Crew

/-- The row of an event that has failed for good. -/
def lapsed : Record :=
  { (clerk 0).freshRecord parcel default default with
    id := 1, status := .failed, message := some "x", nextRetryTime := none }

/-- A deletion that fails leaves the row. -/
theorem reopening_kept_undeleted :
    ∃ log s', Work.Solo 0 ⟨[lapsed], 1⟩ (Errand.deliver (clerk 0) parcel).work log s'
        (.done (.delivery (.error (.ledger "down")))) ∧
      s'.find? ((clerk 0).key parcel.id) ≠ none := by
  have hfind : Store.find? ⟨[lapsed], 1⟩ ((clerk 0).key parcel.id) = some lapsed := by decide
  have hrun : Work.Solo 0 ⟨[lapsed], 1⟩ (Errand.deliver (clerk 0) parcel).work
      [.asked 0 (.find ((clerk 0).key parcel.id)) (.ok (some lapsed)),
        .asked 0 .now (default : Instant),
        .asked 0 (.tombstone lapsed default) (.error (.ledger "down"))]
      ⟨[lapsed], 1⟩ (.done (.delivery (.error (.ledger "down")))) :=
    .ask (.inl ⟨congrArg _ hfind.symm, rfl⟩) (.ask (.inl rfl) (.ask (.inr ⟨⟨_, rfl⟩, rfl⟩) .rest))
  refine ⟨_, _, hrun, fun hnone => ?_⟩
  obtain ⟨e, -, -, hstops⟩ := (reopening_kept_iff hfind hrun).1.mp hnone
  cases hstops

/-- **An event that is lost.**  A first delivery finds the row of its event failed, deletes it and
cannot create another one.  No scan will find anything to replay. -/
theorem reopening_lost :
    ∃ log s' e, Work.Solo 0 ⟨[lapsed], 1⟩ (Errand.deliver (clerk 0) parcel).work log s'
        (.done (.delivery (.error e))) ∧
      Store.find? ⟨[lapsed], 1⟩ ((clerk 0).key parcel.id) = some lapsed ∧
      s'.find? ((clerk 0).key parcel.id) = none ∧ ∀ now limit, s'.due now limit = [] := by
  have hfind : Store.find? ⟨[lapsed], 1⟩ ((clerk 0).key parcel.id) = some lapsed := by decide
  have hdeletion : Store.tombstone ⟨[lapsed], 1⟩ lapsed default =
      (.ok true, ⟨[(lapsed.deleted default).revised], 1⟩) := by rfl
  have hrun : Work.Solo 0 ⟨[lapsed], 1⟩ (Errand.deliver (clerk 0) parcel).work
      [.asked 0 (.find ((clerk 0).key parcel.id)) (.ok (some lapsed)),
        .asked 0 .now (default : Instant), .asked 0 (.tombstone lapsed default) (.ok true),
        .asked 0 .now (default : Instant),
        .asked 0 (.create ((clerk 0).freshRecord parcel parcel.payload.toBytes default))
          (.error (.ledger "down"))]
      ⟨[(lapsed.deleted default).revised], 1⟩ (.done (.delivery (.error (.ledger "down")))) :=
    .ask (.inl ⟨congrArg _ hfind.symm, rfl⟩) (.ask (.inl rfl) (.ask (.inl ⟨_, hdeletion, rfl⟩)
      (.ask (.inl rfl) (.ask (.inr ⟨⟨_, rfl⟩, rfl⟩) .rest))))
  refine ⟨_, _, _, hrun, hfind, by decide, fun now limit => List.eq_nil_iff_forall_not_mem.mpr ?_⟩
  intro r hr
  obtain ⟨hmem, hdue⟩ := Store.mem_due hr
  obtain rfl := List.mem_singleton.mp hmem
  cases hdue

end Crew

end EventRelay
