import EventRelay.Accounts.Branch
/-!
# A session at a branch

Somebody works on the accounts of a branch step by step: events are published as operations end, and
wait in the channel until they are delivered.
-/

namespace EventRelay.Accounts

structure Session where
  branch : Branch
  relay : Relay
  book : Book := {}
  receiver : Nat

namespace Session

def room : Nat := 64

def start (config : Config) (now : Instant) : Except Error Session := do
  let relay ← Relay.ofConfig config none handlers [] {}
  let (receiver, channel) := (Broadcast.withRoom room).subscribe
  return { branch := { clock := ⟨now⟩, channel }, relay, receiver }

/-- Carries an operation out; the n-th event gets the n-th identifier. -/
def change {α : Type} (s : Session) (identify : Nat → String) (operation : Keeper → Change α) :
    Work.Progress (Except AccountError α) × Session :=
  match (operation ⟨s.relay.producer, identify⟩ s.book).run Branch.reply s.branch with
  | (.done (result, book), branch) => (.done result, { s with book, branch })
  | (.crashed text, branch) => (.crashed text, { s with branch })
  | (.stalled, branch) => (.stalled, { s with branch })

def pump (s : Session) : Work.Progress (List (Except Error Consumer.Outcome)) × Session :=
  let (progress, branch) := Branch.surroundings.pump s.relay.consumer s.receiver s.branch
  (progress, { s with branch })

def scan (s : Session) : Work.Progress (Except Error ScanReport) × Session :=
  let (progress, branch) :=
    s.relay.replayer.run Branch.reply s.relay.replayer.config.batchSize s.branch
  (progress, { s with branch })

def advance (s : Session) (millis : Int) : Except TimeFault Session :=
  (s.branch.clock.advance millis).map fun clock => { s with branch.clock := clock }

end Session

end EventRelay.Accounts
