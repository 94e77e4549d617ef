import EventRelay.Config.Document
import EventRelay.Config.Setting
/-!
# Configuration by environment variables

A variable whose name begins with `OUTBOX__` sets a field of the configuration; the rest of the name
is a path in any case, with `__` or a point between its steps. The settings of all variables are put
into a tree that holds the defaults, and the tree is turned into a configuration: each field takes
its setting for what it wants as far as possible. Settings that no field asks for are ignored.

Main definitions: `SettingsFault` and `Config.ofEnvironment`.
-/

namespace EventRelay

inductive SettingsFault where
  /-- A field cannot take what it found. A setting that a single variable gave is said to be that of
  the environment. -/
  | unfit (found expected key : String) (given : Bool)
  /-- What was found is neither table nor list, as a record has to be. -/
  | noRecord (found name : String)
  | notDuration (text : String)
  /-- A duration is longer than can be said. -/
  | overflow
  | noPlace (fault : PlaceFault)
  | unknownStrategy (name : String)
  /-- What was found cannot name a strategy. -/
  | namelessStrategy
  /-- The configuration makes no sense. -/
  | invalid (e : Error)

namespace SettingsFault

def message : SettingsFault → String
  | .unfit found expected key given =>
    "invalid type: " ++ found ++ ", expected " ++ expected ++ " for key " ++ "`" ++ key ++ "`"
      ++ (if given then " in the environment" else "")
  | .noRecord found name => "invalid type: " ++ found ++ ", expected struct " ++ name
  | .notDuration text => (Json.Cause.invalidValue (.text text) "a duration").message
  | .overflow => Duration.overflowReport
  | .noPlace fault => fault.message
  | .unknownStrategy name => "enum RetryStrategy does not have variant constructor " ++ name
  | .namelessStrategy =>
    "value of enum RetryStrategy should be represented by either string or table with exactly one key"
  | .invalid e => e.message

def isCrash : SettingsFault → Bool
  | .overflow | .noPlace _ => true
  | _ => false

end SettingsFault

/-! ### Taking settings -/

namespace Setting

/-- How a field takes a setting that stands under a key. -/
abbrev Taking (α : Type) : Type := (key : String) → Setting → Except SettingsFault α

def refuse {α : Type} (expected : String) : Taking α := fun key s =>
  .error (.unfit s.found expected key s.isGiven)

def wordValue? (word : String) : Option Bool :=
  let lower := Text.lowercase word
  if ["true", "on", "yes"].contains lower then some true
  else if ["false", "off", "no"].contains lower then some false
  else none

def takeText : Taking String
  | _, .truth b => .ok (if b then "true" else "false")
  | _, .whole i => .ok (toString i)
  | _, .number x => .ok (String.ofList (Decimal.writeInFull x))
  | _, .text s => .ok s
  | key, s => refuse "a string" key s

/-- Of the numbers zero is false. -/
def takeTruth : Taking Bool
  | _, .truth b => .ok b
  | _, .whole i => .ok (i ≠ 0)
  | _, .number x => .ok (x != 0.0)
  | key, .text s =>
    match wordValue? s with
    | some b => .ok b
    | none => refuse "a boolean" key (.text (Text.lowercase s))
  | key, s => refuse "a boolean" key s

/-- A natural number of 64 bits: the nearest one to a number, and one or zero for a truth value. -/
def takeNatural : Taking Nat
  | _, .truth b => .ok b.toNat
  | key, .whole i =>
    if 0 ≤ i then .ok i.toNat
    else refuse "an unsigned 64 bit or less integer" key (.whole i)
  | _, .number x => .ok x.round.toUInt64.toNat
  | key, .text s =>
    match wordValue? s with
    | some b => .ok b.toNat
    | none => refuse "an integer" key (.text s)
  | key, s => refuse "an integer" key s

def takeNatural32 : Taking Nat := fun key s => do
  let n ← takeNatural key s
  if n ≤ greatestNat32 then return n
  else
    let found := "64-bit unsigned integer `" ++ toString n ++ "`"
    throw (.unfit found "an unsigned 32 bit integer" key false)

/-- A number: one or zero for a truth value. -/
def takeNumber : Taking Float
  | _, .truth b => .ok (if b then 1.0 else 0.0)
  | _, .whole i => .ok (Float.ofInt i)
  | _, .number x => .ok x
  | key, .text s =>
    match wordValue? s with
    | some b => .ok (if b then 1.0 else 0.0)
    | none => refuse "a floating point" key (.text s)
  | key, s => refuse "a floating point" key s

def takeDuration : Taking Duration := fun key s => do
  let text ← takeText key s
  match Duration.ofText text with
  | .ok d => return d
  | .error .unreadable => throw (.notDuration text)
  | .error .overflow => throw .overflow

/-- The strategy of a name, in any case. -/
def strategyNamed (name : String) : Except SettingsFault RetryStrategy :=
  match RetryStrategy.alternatives.lookup (Text.lowercase name) with
  | some strategy => .ok strategy
  | none => .error (.unknownStrategy name)

def takeStrategy : Taking RetryStrategy
  | _, .text name => strategyNamed name
  | _, .table [(name, _)] => strategyNamed name
  | _, _ => .error .namelessStrategy

/-! ### Records -/

abbrev Assignment (σ : Type) : Type := String × Taking (σ → σ)

/-- A field that holds what was taken. -/
def assignment {σ α : Type} (name : String) (take : Taking α) (put : α → σ → σ) : Assignment σ :=
  (name, fun key s => (take key s).map put)

/-- The key of a member of a record. -/
def memberKey (key name : String) : String :=
  if key.isEmpty then name else key ++ "." ++ name

/-- Changes a record by the members of a table, or by the items of a list, which are those of its
fields in order. -/
def takeRecord {σ : Type} (name : String) (fields : List (Assignment σ)) (start : σ) : Taking σ
  | key, .table members =>
    fields.foldlM (fun record (field, take) =>
      match members.lookup field with
      | some s => (take (memberKey key field) s).map (· record)
      | none => .ok record) start
  | key, .list items =>
    (fields.zip items.zipIdx).foldlM (fun record ((_, take), s, place) =>
      (take (key ++ "[" ++ toString place ++ "]") s).map (· record)) start
  | _, s => .error (.noRecord s.foundForRecord name)

end Setting

open Setting

def RetryConfig.assignments : List (Assignment RetryConfig) :=
  [ assignment "strategy" takeStrategy fun v c => { c with strategy := v },
    assignment "base_delay" takeDuration fun v c => { c with baseDelay := v },
    assignment "multiplier" takeNumber fun v c => { c with multiplier := v },
    assignment "max_delay" takeDuration fun v c => { c with maxDelay := v } ]

def SchedulerConfig.assignments : List (Assignment SchedulerConfig) :=
  [ assignment "enabled" takeTruth fun v c => { c with enabled := v },
    assignment "poll_interval" takeDuration fun v c => { c with pollInterval := v },
    assignment "batch_size" takeNatural fun v c => { c with batchSize := v },
    assignment "concurrency" takeNatural fun v c => { c with concurrency := v } ]

def Config.assignments : List (Assignment Config) :=
  [ assignment "owner_group" takeText fun v c => { c with ownerGroup := v },
    assignment "owner_name" takeText fun v c => { c with ownerName := v },
    assignment "default_max_retries" takeNatural32 fun v c => { c with defaultMaxRetries := v },
    assignment "handler_concurrency" takeNatural fun v c => { c with handlerConcurrency := v },
    assignment "processing_timeout" takeDuration fun v c => { c with processingTimeout := v },
    assignment "retry" (takeRecord "RetryConfig" RetryConfig.assignments {})
      fun v c => { c with retry := v },
    assignment "scheduler" (takeRecord "SchedulerConfig" SchedulerConfig.assignments {})
      fun v c => { c with scheduler := v } ]

namespace Config

def ofSetting (s : Setting) : Except SettingsFault Config := do
  let config ← takeRecord "RelayConfig" assignments {} "" s
  config.validate.mapError .invalid
  return config

/-! ### Variables -/

/-- How the names of the variables begin, in lower case. -/
def variableHead : List Char := "outbox__".toList

/-- Two low lines become the point of a path. -/
def pointed : List Char → List Char
  | '_' :: '_' :: rest => '.' :: pointed rest
  | c :: rest => c :: pointed rest
  | [] => []

/-- The path that a variable sets, if its name begins as it must. -/
def path? (name : String) : Option Path :=
  let lower := (Text.lowercase name).toList
  if variableHead.isPrefixOf lower then
    some (.ofText (String.ofList (pointed (lower.drop variableHead.length))))
  else none

/-- Puts the setting of a variable into a tree. -/
def putVariable (s : Setting) (name value : String) : Except SettingsFault Setting :=
  match path? name with
  | some path => (Setting.put (.ofText value) path s).mapError .noPlace
  | none => .ok s

def ofEnvironment (defaults : Setting) (settings : List (String × String)) :
    Except SettingsFault Config := do
  ofSetting (← settings.foldlM (fun s (name, value) => putVariable s name value) defaults)

def fieldPaths : List (List String) :=
  assignments.flatMap fun (name, _) =>
    if name = "retry" then RetryConfig.assignments.map fun (field, _) => [name, field]
    else if name = "scheduler" then SchedulerConfig.assignments.map fun (field, _) => [name, field]
    else [[name]]

/-- The name of the variable that sets a field, in capitals. -/
def variableName (path : List String) : String :=
  (String.ofList variableHead ++ "__".intercalate path).map Char.toUpper

end Config

end EventRelay
