import EventRelay.Error
import EventRelay.Text.Blank
import EventRelay.Time.Duration
/-!
# Configuration

Everything a relay can be told: who it is, how often it tries, how long a worker may hold a row,
how retries are planned and how they are looked for. Every field has a default. `Config.validate`
reports the first field that makes no sense.
-/

namespace EventRelay

inductive RetryStrategy where
  | exponentialBackoff
  /-- A scheduler outside the relay decides whether and when to try again. -/
  | external
  deriving DecidableEq, Repr

structure RetryConfig where
  strategy : RetryStrategy := .exponentialBackoff
  baseDelay : Duration := .ofSeconds 10
  multiplier : Float := 2.0
  maxDelay : Duration := .ofSeconds 3600

structure SchedulerConfig where
  enabled : Bool := true
  pollInterval : Duration := .ofSeconds 30
  batchSize : Nat := 100
  concurrency : Nat := 4

structure Config where
  /-- The publishing node or the consumer group; part of every key. -/
  ownerGroup : String := "default"
  ownerName : String := "local"
  /-- The limit on retries for events that name none. -/
  defaultMaxRetries : Nat := 3
  /-- How many received events are handled at the same time. -/
  handlerConcurrency : Nat := 8
  /-- How long a worker may take; then its row is open to a retry. -/
  processingTimeout : Duration := .ofSeconds 300
  retry : RetryConfig := {}
  scheduler : SchedulerConfig := {}

def refuseUnless (ok : Bool) (reason : String) : Except Error Unit :=
  if ok then .ok () else .error (.invalidConfig reason)

namespace RetryConfig

def validate (c : RetryConfig) : Except Error Unit := do
  refuseUnless (!c.baseDelay.isZero) "retry.base_delay must be > 0"
  refuseUnless (c.multiplier.isFinite && !(c.multiplier <= 1.0)) "retry.multiplier must be > 1"
  refuseUnless (c.baseDelay ≤ c.maxDelay) "retry.max_delay must be >= retry.base_delay"

end RetryConfig

namespace SchedulerConfig

def validate (c : SchedulerConfig) : Except Error Unit := do
  refuseUnless (c.batchSize != 0) "scheduler.batch_size must be > 0"
  refuseUnless (c.concurrency != 0) "scheduler.concurrency must be > 0"
  refuseUnless (!c.pollInterval.isZero) "scheduler.poll_interval must be > 0"

end SchedulerConfig

namespace Config

def validate (c : Config) : Except Error Unit := do
  refuseUnless (!Text.isAllBlank c.ownerGroup) "owner_group must not be empty"
  refuseUnless (c.handlerConcurrency != 0) "handler_concurrency must be > 0"
  refuseUnless (!c.processingTimeout.isZero) "processing_timeout must be > 0"
  c.retry.validate
  c.scheduler.validate

end Config

/-- What the daemon has to know of a configuration. -/
structure DaemonConfig where
  retryInterval : Duration := .ofSeconds 30
  handlerConcurrency : Nat := 8
  retryEnabled : Bool := true

def DaemonConfig.ofConfig (c : Config) : DaemonConfig where
  retryInterval := c.scheduler.pollInterval
  handlerConcurrency := c.handlerConcurrency
  retryEnabled := c.scheduler.enabled

end EventRelay
