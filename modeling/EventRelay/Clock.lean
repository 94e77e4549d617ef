import EventRelay.Time.Instant
/-!
# Clocks

A clock that stands still until it is set or moved. Moving it out of the range of instants fails
and leaves it as it was.
-/

namespace EventRelay

/-- A clock that shows the same instant until it is told otherwise. -/
structure Clock where
  now : Instant
  deriving Repr

namespace Clock

def set (_ : Clock) (t : Instant) : Clock := ⟨t⟩

def advance (c : Clock) (millis : Int) : Except TimeFault Clock :=
  (c.now.shiftMillis millis).map Clock.mk

end Clock

end EventRelay
