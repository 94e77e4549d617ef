import EventRelay.Proofs.Crew.Shapes
import EventRelay.Proofs.Time.Sums

/-!
# Schedules at the end of the range

A worker holds its row for a while, and a retry waits for a while.  The time at which either ends is
reckoned from a clock time and a span of any length, and there always is one: it is the exact sum, or
the last instant of the range if that is earlier.  Leases and backoff add in two ways that agree.

`schedules_saturate` says so for every clock time and every span.  It also says when schedules keep
the order of the clock times that they are reckoned from: a leap second that begins between two of
them may turn the order round.
-/

namespace EventRelay

/-- A row for consuming on which a time has just been noted: it was created, taken over, or planned
to be tried again. -/
inductive Record.Planned (t : Instant) : Record → Prop
  | fresh {c : Consumer} {event : Event} {payload : Bytes} {now : Instant} {id : Int}
      (h : c.leaseUntil now = t) : Planned t { c.freshRecord event payload now with id := id }
  | claimed {r next : Record} {now : Instant} (haction : r.action = .consume)
      (hmarker : r.deleteMarker = 0) (h : r.transition (.claimed t) now = .ok next) :
      Planned t next.revised
  | rescheduled {r next : Record} {n : Nat} {message : String} {now : Instant}
      (haction : r.action = .consume) (hmarker : r.deleteMarker = 0)
      (h : r.transition (.retryScheduled n t message) now = .ok next) : Planned t next.revised

/-- **A row is due from the time on that was noted on it**, and not before. -/
theorem Record.Planned.isDue_iff {r : Record} {t now : Instant} (h : r.Planned t) :
    r.isDue now = true ↔ t ≤ now := by
  cases h with
  | fresh hlease => exact isDue_iff_le rfl rfl rfl (congrArg some hlease)
  | claimed haction hmarker hnext | rescheduled haction hmarker hnext =>
    obtain ⟨-, rfl⟩ := transition_cases hnext
    exact isDue_iff_le haction hmarker rfl rfl

theorem Backoff.time_eq {b : Backoff} {now : Instant} {n : Nat} {d : Duration}
    (h : now.Representable) (hdelay : b.delay n = .ok d) : b.time now n = .ok (now.plus d) := by
  unfold time
  rw [hdelay, h.plus_eq, ← h.plusAtMost_eq]
  rfl

/-- **Schedules stop at the end of the range.**  Let a clock show any time up to the last instant of
the range, in a leap second or not, and let the span be of any length.  A lease of this length and a
retry after this delay end at the same instant: at the exact sum, of which there is one, or at the
last instant of the range if the sum is later.  From a clock time in no leap second the sum is that
of the numbers of nanoseconds, and from any other it counts the leap second in.  The end is not before
the clock time, and not beyond the range.  It is no earlier for a longer span; for a later clock time
it is no earlier for all spans exactly if the two times are not in front of a leap second and less
than a second later inside it.  A row on which the end is noted is due from then on, and not
before. -/
theorem schedules_saturate {now : Instant} (h : now.Representable) (d : Duration) :
    (∀ c : Consumer, c.config.processingTimeout = d → c.leaseUntil now = now.plus d) ∧
    (∀ (b : Backoff) n, b.delay n = .ok d → b.time now n = .ok (now.plus d)) ∧
    (∃ sum, (∀ t, now.After d t ↔ t = sum) ∧
      (now.isLeap = false →
        sum.nanoseconds = now.nanoseconds + d.nanoseconds ∧ sum.isLeap = false) ∧
      now.plus d = if sum ≤ .greatest then sum else .greatest) ∧
    now ≤ now.plus d ∧ (now.plus d).Representable ∧
    (∀ d', d ≤ d' → now.plus d ≤ now.plus d') ∧
    (∀ now' : Instant, now'.Representable → now ≤ now' →
      ((∀ d, now.plus d ≤ now'.plus d) ↔ ¬ now.EntersLeap now')) ∧
    ∀ r : Record, r.Planned (now.plus d) → ∀ t, r.isDue t = true ↔ now.plus d ≤ t := by
  have hafter (t : Instant) : now.After d t ↔ t = now.shifted d.nanoseconds :=
    Instant.after_iff h.inRange.2.2
  refine ⟨?_, fun b n hdelay => Backoff.time_eq h hdelay, ⟨_, hafter, fun hleap => ?_, h.plus_eq d⟩,
    h.le_plus d, h.plus d, fun d' hle => h.plus_le_plus hle,
    fun now' h' hle => h.plus_le_plus_iff h' hle, fun r hr t => hr.isDue_iff⟩
  · rintro c rfl
    rfl
  · exact Instant.nanoseconds_of_after ((hafter _).mpr rfl) hleap

/-- From the first instant of the range and with the longest span that can be configured, leases and
retries end with the range. -/
theorem schedules_saturate_longest :
    Instant.least.Representable ∧
      (Crew.clerk 3).leaseUntil .least = Instant.least.plus (Crew.clerk 3).config.processingTimeout ∧
      Instant.least.plus (.ofParts 18446744073709551615 999999999) = .greatest ∧
      ∀ (b : Backoff) n, b.delay n = .ok (.ofParts 18446744073709551615 999999999) →
        b.time .least n = .ok .greatest := by
  have hleast : Instant.least.Representable := ⟨by decide, by decide⟩
  have hend : Instant.least.plus (.ofParts 18446744073709551615 999999999) = .greatest := by decide
  obtain ⟨-, hretries, -⟩ :=
    schedules_saturate hleast (.ofParts 18446744073709551615 999999999)
  refine ⟨hleast, (schedules_saturate hleast _).1 _ rfl, hend, fun b n hdelay => ?_⟩
  rw [hretries b n hdelay, hend]

/-! ### A leap second -/

/-- A consumer whose leases last for one second. -/
def Crew.hastyClerk : Consumer :=
  { clerk 3 with config := { (clerk 3).config with processingTimeout := .ofSeconds 1 } }

/-- At the end of 2016, 0.8 seconds before the middle of the leap second and in the middle of it.
The later lease ends first, at 0.5 seconds past midnight, and the earlier one at 0.7. -/
theorem later_lease_ends_first :
    (⟨1483228799, 700000000⟩ : Instant).Representable ∧
      (⟨1483228799, 1500000000⟩ : Instant).Representable ∧
      (⟨1483228799, 700000000⟩ : Instant) ≤ ⟨1483228799, 1500000000⟩ ∧
      Crew.hastyClerk.leaseUntil ⟨1483228799, 700000000⟩ = ⟨1483228800, 700000000⟩ ∧
      Crew.hastyClerk.leaseUntil ⟨1483228799, 1500000000⟩ = ⟨1483228800, 500000000⟩ ∧
      ¬ Crew.hastyClerk.leaseUntil ⟨1483228799, 700000000⟩ ≤
        Crew.hastyClerk.leaseUntil ⟨1483228799, 1500000000⟩ := by
  refine ⟨⟨?_, ?_⟩, ⟨?_, ?_⟩, ?_⟩
  all_goals decide

end EventRelay
