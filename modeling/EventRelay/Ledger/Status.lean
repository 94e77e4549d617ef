/-!
# Actions and statuses

A ledger row stands for publishing an event or for consuming it. Its status begins as `created` or
`retrying` and ends as `success` or `failed`; nothing leaves an end.
-/

namespace EventRelay

inductive Action where
  | publish
  | consume
  deriving DecidableEq, Repr, Inhabited

namespace Action

def all : List Action := [.publish, .consume]

/-- The name in documents and answers. -/
def name : Action → String
  | .publish => "PUBLISH"
  | .consume => "CONSUME"

def alternatives : List (String × Action) :=
  all.map fun a => (a.name, a)

def ofName? (s : String) : Option Action :=
  alternatives.lookup s

end Action

inductive Status where
  | created
  | retrying
  | success
  | failed
  deriving DecidableEq, Repr, Inhabited

namespace Status

def all : List Status := [.created, .retrying, .success, .failed]

def name : Status → String
  | .created => "CREATED"
  | .retrying => "RETRYING"
  | .success => "SUCCESS"
  | .failed => "FAILED"

/-- The name in error messages. -/
def label : Status → String
  | .created => "Created"
  | .retrying => "Retrying"
  | .success => "Success"
  | .failed => "Failed"

def alternatives : List (String × Status) :=
  all.map fun s => (s.name, s)

def ofName? (s : String) : Option Status :=
  alternatives.lookup s

/-- The two ends of a row's life. -/
def isTerminal : Status → Bool
  | .success | .failed => true
  | .created | .retrying => false

/-- Whether a row may go from one status to another. A row may stay `retrying`, and never becomes
`created` again. -/
def canBecome : Status → Status → Bool
  | .created, .retrying | .created, .success | .created, .failed => true
  | .retrying, .retrying | .retrying, .success | .retrying, .failed => true
  | .created, .created | .retrying, .created => false
  | .success, _ | .failed, _ => false

theorem isTerminal_iff (s : Status) : s.isTerminal = true ↔ ∀ next, s.canBecome next = false := by
  constructor
  · intro h next
    cases s <;> simp_all [isTerminal, canBecome]
  · intro h
    have := h .success
    cases s <;> simp_all [isTerminal, canBecome]

end Status

end EventRelay
