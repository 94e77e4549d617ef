import EventRelay.Accounts.Branch
import EventRelay.Config.Environment
import EventRelay.Daemon
/-!
# The accounts program

The program configures a relay from environment variables, lets its daemon run, and makes a few
transfers, one of which fails. A while later it stops the daemon and writes the ledger into the log.
Its time is reckoned, not measured: it begins at a fixed moment, and only the waiting takes time.
-/

namespace EventRelay.Accounts.Program

inductive Failure where
  | settings (fault : SettingsFault)
  | relay (e : Error)
  | account (e : AccountError)

def Failure.message : Failure → String
  | .settings fault => fault.message
  | .relay e => e.message
  | .account e => e.message

/-- The settings where no variable says anything else: retries come quickly. -/
def defaults : Setting :=
  .table
    [ ("default_max_retries", .whole 2),
      ("retry", .table [("base_delay", .text "200ms"), ("max_delay", .text "1s")]),
      ("scheduler", .table [("poll_interval", .text "100ms")]) ]

def start : Instant := ⟨1704067200, 0⟩

def warmUp : Duration := .ofMillis 100

def working : Duration := .ofSeconds 3

def operations (k : Keeper) : Change Unit :=
  (k.openAccount "alice" 500).andThen fun _ =>
    (k.openAccount "bob" 0).andThen fun _ =>
      (k.transfer ⟨"alice", "bob", 120⟩).andThen fun _ =>
        (k.deposit "bob" 5000).andThen fun _ book => .done (.ok (), book)

def excessive : Transfer := ⟨"alice", "bob", 10000⟩

def rowFields (r : Record) : List (String × Json) :=
  [ ("action", .text r.action.name), ("event_id", .text r.eventId),
    ("event_type", .text r.eventType), ("status", .text r.status.name),
    ("retry_times", .integer r.retryTimes), ("version", .integer r.version),
    ("last_error", .text (r.message.getD "")) ]

def report (b : Branch) : Branch :=
  b.store.records.foldl (fun b r => b.say .info "ledger" (rowFields r)) b

/-- What is said of the transfer that ought to fail. -/
def comment (b : Branch) : Except AccountError Unit → Branch
  | .error e =>
    b.say .warning "transfer rejected, events discarded" [("error", .text e.message)]
  | .ok () => b.say .warning "unexpected transfer success" []

/-- The last part: the daemon works on what it got, and is stopped. -/
def finish (d : Daemon) (b : Branch) : Branch :=
  let (d, b) := d.sleep Branch.surroundings working b
  let (_, b) := { d with stopping := true }.turn Branch.surroundings b
  report b

/-- The program with its relay set up. -/
def runWith (relay : Relay) (config : Config) (identify : Nat → String) (b : Branch) :
    Work.Progress (Except Failure Unit) × Branch :=
  let daemon : Daemon :=
    { config := .ofConfig config, consumer := relay.consumer, replayer := relay.replayer }
  let (daemon, b) := daemon.sleep Branch.surroundings warmUp b
  let keeper : Keeper := ⟨relay.producer, identify⟩
  match (operations keeper {}).run Branch.reply b with
  | (.stalled, b) => (.stalled, b)
  | (.crashed text, b) => (.crashed text, b)
  | (.done (.error e, _), b) => (.done (.error (.account e)), b)
  | (.done (.ok (), book), b) =>
    match (keeper.transfer excessive book).run Branch.reply b with
    | (.stalled, b) => (.stalled, b)
    | (.crashed text, b) => (.crashed text, b)
    | (.done (result, _), b) => (.done (.ok ()), finish daemon (comment b result))

/-- Runs the program with the given variables; the n-th event gets the n-th identifier. The result
is how it ended, and its log. -/
def run (settings : List (String × String)) (identify : Nat → String) :
    Work.Progress (Except Failure Unit) × List LogLine :=
  match Config.ofEnvironment defaults settings with
  | .error fault =>
    if fault.isCrash then (.crashed fault.message, [])
    else (.done (.error (.settings fault)), [])
  | .ok config =>
    let branch : Branch := { clock := ⟨start⟩, channel := .withRoom 1024 }
    let branch := branch.say .info "configuration loaded" [("config", .text config.diagnostic)]
    match Relay.ofConfig config none handlers [0] {} with
    | .error e => (.done (.error (.relay e)), branch.log)
    | .ok relay =>
      let (progress, branch) := runWith relay config identify branch
      (progress, branch.log)

end EventRelay.Accounts.Program
