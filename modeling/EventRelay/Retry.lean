import EventRelay.Config.Document
import EventRelay.Time.Instant
/-!
# Retry rules

A rule answers two questions about a failed attempt: whether there may be another one, and when.
Exponential backoff multiplies a base delay for each attempt up to a greatest delay; an external
schedule is given by whoever runs the relay. Plans that lie beyond the range of instants are moved
to its end.
-/

namespace EventRelay

/-- Exponential backoff: the n-th retry waits for `base · multiplier ^ (n - 1)`, at most `longest`. -/
structure Backoff where
  base : Duration
  multiplier : Float
  longest : Duration

namespace Backoff

/-- Multiplies `r` by powers of `a` as the binary digits of the exponent say, lowest first. -/
def powerFrom (r a : Float) (n : Nat) : Float :=
  let r := if n % 2 = 1 then r * a else r
  if h : n / 2 = 0 then r else powerFrom r (a * a) (n / 2)
termination_by n
decreasing_by omega

/-- A power with a natural exponent, by repeated squaring. -/
def power (a : Float) (n : Nat) : Float :=
  powerFrom 1.0 a n

/-- How long to wait before the n-th retry. A product that is no number or too great gives the
longest delay; there is none for a product that is negative. -/
def delay (b : Backoff) (n : Nat) : Except TimeFault Duration :=
  let x := b.base.toSeconds * power b.multiplier (min (n - 1) greatestInt32.toNat)
  if !x.isFinite || b.longest.toSeconds <= x then .ok b.longest
  else match Duration.ofSecondsFloat? x with
    | some d => .ok d
    | none => .error .negativeDelay

/-- When the n-th retry is made, reckoned from now. -/
def time (b : Backoff) (now : Instant) (n : Nat) : Except TimeFault Instant :=
  (b.delay n).map now.plusAtMost

def ofConfig (c : RetryConfig) : Backoff :=
  ⟨c.baseDelay, c.multiplier, c.maxDelay⟩

def diagnostic (b : Backoff) : String :=
  diagnosticRecord "ExponentialBackoffPolicy"
    [ ("base_delay", b.base.diagnostic), ("multiplier", diagnosticFloat b.multiplier),
      ("max_delay", b.longest.diagnostic) ]

end Backoff

/-- A schedule given from outside. -/
structure Schedule where
  allows : (retryTimes maxRetryTimes : Nat) → Bool
  /-- When the n-th retry is made, if that can be reckoned. -/
  scheduledAt : (retry : Nat) → Except TimeFault Instant

inductive RetryRule where
  | backoff (b : Backoff)
  | schedule (s : Schedule)

namespace RetryRule

/-- Whether a row with so many retries may be tried again. -/
def allows : RetryRule → (retryTimes maxRetryTimes : Nat) → Bool
  | .backoff _, retryTimes, maxRetryTimes => retryTimes < maxRetryTimes
  | .schedule s, retryTimes, maxRetryTimes => s.allows retryTimes maxRetryTimes

def time : RetryRule → (now : Instant) → (n : Nat) → Except TimeFault Instant
  | .backoff b, now, n => b.time now n
  | .schedule s, _, n => s.scheduledAt n

/-- The rule that a configuration asks for. An external strategy needs a schedule. -/
def ofConfig (c : RetryConfig) (schedule? : Option Schedule) : Except Error RetryRule :=
  match c.strategy with
  | .exponentialBackoff => do
    c.validate
    return .backoff (.ofConfig c)
  | .external =>
    match schedule? with
    | some s => .ok (.schedule s)
    | none =>
      .error (.invalidConfig "retry.strategy = external requires an external retry schedule")

end RetryRule

end EventRelay
