import EventRelay.Config.Basic
import EventRelay.Time.Reading
/-!
# Configurations as documents

Configurations are read from documents that may leave out any field; durations are given in words.
The diagnostic text of a configuration shows all fields.
-/

namespace EventRelay

open Json.Reader

/-! ### Reading -/

def sizeReader : Json.Reader Nat :=
  unsigned "usize" 64

def RetryStrategy.alternatives : List (String × RetryStrategy) :=
  [("exponential_backoff", .exponentialBackoff), ("external", .external)]

def RetryConfig.shape : Shape RetryConfig where
  name := "RetryConfig"
  start := {}
  openEnded := true
  fields :=
    [ field "strategy" (choice RetryStrategy.alternatives)
        (fun v c => { c with strategy := v }) false,
      field "base_delay" Duration.reader (fun v c => { c with baseDelay := v }) false,
      field "multiplier" double (fun v c => { c with multiplier := v }) false,
      field "max_delay" Duration.reader (fun v c => { c with maxDelay := v }) false ]

def SchedulerConfig.shape : Shape SchedulerConfig where
  name := "SchedulerConfig"
  start := {}
  openEnded := true
  fields :=
    [ field "enabled" boolean (fun v c => { c with enabled := v }) false,
      field "poll_interval" Duration.reader (fun v c => { c with pollInterval := v }) false,
      field "batch_size" sizeReader (fun v c => { c with batchSize := v }) false,
      field "concurrency" sizeReader (fun v c => { c with concurrency := v }) false ]

def Config.shape : Shape Config where
  name := "RelayConfig"
  start := {}
  openEnded := true
  fields :=
    [ field "owner_group" string (fun v c => { c with ownerGroup := v }) false,
      field "owner_name" string (fun v c => { c with ownerName := v }) false,
      field "default_max_retries" (unsigned "u32" 32)
        (fun v c => { c with defaultMaxRetries := v }) false,
      field "handler_concurrency" sizeReader (fun v c => { c with handlerConcurrency := v }) false,
      field "processing_timeout" Duration.reader
        (fun v c => { c with processingTimeout := v }) false,
      field "retry" RetryConfig.shape.reader (fun v c => { c with retry := v }) false,
      field "scheduler" SchedulerConfig.shape.reader
        (fun v c => { c with scheduler := v }) false ]

def Config.reader : Json.Reader Config :=
  Config.shape.reader

def RetryConfig.reader : Json.Reader RetryConfig :=
  RetryConfig.shape.reader

/-! ### Diagnostic text -/

def RetryStrategy.name : RetryStrategy → String
  | .exponentialBackoff => "exponential_backoff"
  | .external => "external"

/-- The name of a strategy in diagnostic texts. -/
def RetryStrategy.label : RetryStrategy → String
  | .exponentialBackoff => "ExponentialBackoff"
  | .external => "External"

def diagnosticFloat (x : Float) : String :=
  String.ofList (Decimal.Layout.diagnostic.write x)

def diagnosticRecord (name : String) (fields : List (String × String)) : String :=
  name ++ " \x7b " ++ ", ".intercalate (fields.map fun (field, value) => field ++ ": " ++ value)
    ++ " \x7d"

def RetryConfig.diagnostic (c : RetryConfig) : String :=
  diagnosticRecord "RetryConfig"
    [ ("strategy", c.strategy.label), ("base_delay", c.baseDelay.diagnostic),
      ("multiplier", diagnosticFloat c.multiplier), ("max_delay", c.maxDelay.diagnostic) ]

def SchedulerConfig.diagnostic (c : SchedulerConfig) : String :=
  diagnosticRecord "SchedulerConfig"
    [ ("enabled", if c.enabled then "true" else "false"),
      ("poll_interval", c.pollInterval.diagnostic), ("batch_size", toString c.batchSize),
      ("concurrency", toString c.concurrency) ]

def Config.diagnostic (c : Config) : String :=
  diagnosticRecord "RelayConfig"
    [ ("owner_group", Text.quoted c.ownerGroup), ("owner_name", Text.quoted c.ownerName),
      ("default_max_retries", toString c.defaultMaxRetries),
      ("handler_concurrency", toString c.handlerConcurrency),
      ("processing_timeout", c.processingTimeout.diagnostic), ("retry", c.retry.diagnostic),
      ("scheduler", c.scheduler.diagnostic) ]

end EventRelay
