import EventRelay.Accounts.Program
import EventRelay.Event.Identifier
/-!
# Command line

Runs the accounts program with the environment's variables and prints its log.
-/

namespace EventRelay.Accounts

def Level.label : Level → String
  | .info => " INFO"
  | .warning => " WARN"
  | .error => "ERROR"

def LogLine.toText (line : LogLine) : String :=
  let fields := line.fields.map fun (name, value) => " " ++ name ++ "=" ++ value.toText
  line.level.label ++ " " ++ line.message ++ String.join fields

/-- The variables of the environment that set a field of the configuration. -/
def readVariables : IO (List (String × String)) :=
  Config.fieldPaths.filterMapM fun path => do
    let name := Config.variableName path
    return (← IO.getEnv name).map fun value => (name, value)

def randomBits (octets : USize) : IO Nat := do
  return (← IO.getRandomBytes octets).foldl (fun n octet => n * 256 + octet.toNat) 0

end EventRelay.Accounts

open EventRelay EventRelay.Accounts

def main : IO UInt32 := do
  let settings ← readVariables
  let bits ← randomBits 10
  let millis := Program.start.second.toNat * 1000
  let (progress, log) := Program.run settings fun n => sortableIdentifier millis (bits + n)
  for line in log do
    IO.println line.toText
  match progress with
  | .done (.ok ()) => return 0
  | .done (.error e) =>
    IO.eprintln ("Error: " ++ e.message)
    return 1
  | .crashed text =>
    IO.eprintln text
    return 101
  | .stalled => return 1
