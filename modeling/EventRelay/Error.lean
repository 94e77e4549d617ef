import EventRelay.Json.Fault
import EventRelay.Ledger.Status
/-!
# Errors

What the relay reports to its callers. Failures of handlers are no errors of the relay: they are
written into the ledger.
-/

namespace EventRelay

inductive Error where
  /-- A document could not be read; the text says why. -/
  | serialization (reason : String)
  | parse (reason : String)
  | transport (reason : String)
  | ledger (reason : String)
  | database (reason : String)
  | illegalTransition (source target : Status)
  | invalidConfig (reason : String)
  | invalidState (reason : String)
  | notFound (reason : String)
  deriving DecidableEq, Repr, Inhabited

namespace Error

def message : Error → String
  | .serialization reason => "serialization error: " ++ reason
  | .parse reason => "parse error: " ++ reason
  | .transport reason => "event transport error: " ++ reason
  | .ledger reason => "ledger error: " ++ reason
  | .database reason => "database error: " ++ reason
  | .illegalTransition source target =>
    "illegal status transition: " ++ source.label ++ " -> " ++ target.label
  | .invalidConfig reason => "invalid config: " ++ reason
  | .invalidState reason => "invalid state: " ++ reason
  | .notFound reason => "not found: " ++ reason

end Error

def Status.unknown (text : String) : Error :=
  .parse ("unknown ledger status: " ++ text)

def Action.unknown (text : String) : Error :=
  .parse ("unknown ledger action: " ++ text)

/-- What a unit of work reports to its callers. -/
inductive UnitError where
  | relay (e : Error)
  /-- It has been committed or rolled back before. -/
  | completed
  | rollbackOnly (discarded : Nat)
  deriving DecidableEq, Repr

def UnitError.message : UnitError → String
  | .relay e => "domain: " ++ e.message
  | .completed => "unit of work already completed"
  | .rollbackOnly discarded =>
    "unit of work is rollback-only, " ++ toString discarded ++ " event(s) discarded"

end EventRelay
