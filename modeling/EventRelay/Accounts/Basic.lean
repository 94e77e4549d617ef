import EventRelay.Scope
/-!
# Accounts

A small bank that tells of each change by an event. Every operation is a scope of its own: it changes
a balance and records the event, so that both happen or neither is told of. A transfer is a scope
around a withdrawal and a deposit, whose events are published together once both have worked.

Balances are changed at once. A deposit that fails inside a transfer leaves the withdrawal done. A
balance that does not fit into 64 bits is a panic.
-/

namespace EventRelay.Accounts

inductive AccountError where
  | notOpened (account : String)
  | insufficientFunds (balance requested : Int)
  | unrecorded (e : UnitError)
  deriving DecidableEq, Repr

def AccountError.message : AccountError → String
  | .notOpened account => "account not opened: " ++ account
  | .insufficientFunds balance requested =>
    "insufficient funds: balance=" ++ toString balance ++ ", requested=" ++ toString requested
  | .unrecorded e => e.message

/-- The accounts, and what the task at work on them has open. -/
structure Book where
  balances : List (String × Int) := []
  task : Task := {}
  /-- How many events were recorded. -/
  issued : Nat := 0

/-- Who keeps the book: where events go, and how the n-th of them is called. -/
structure Keeper where
  producer : Producer
  identify : Nat → String

structure Transfer where
  source : String
  target : String
  amount : Int
  deriving DecidableEq, Repr

/-- An operation on the book. -/
abbrev Change (α : Type) := Book → Work (Except AccountError α × Book)

def Change.andThen {α β : Type} (first : Change α) (next : α → Change β) : Change β := fun book =>
  (first book).bind fun
    | (.ok a, book) => next a book
    | (.error e, book) => .done (.error e, book)

def setBalance (account : String) (balance : Int) : List (String × Int) → List (String × Int)
  | [] => [(account, balance)]
  | (other, old) :: rest =>
    if other = account then (account, balance) :: rest
    else (other, old) :: setBalance account balance rest

def Book.setBalance (book : Book) (account : String) (balance : Int) : Book :=
  { book with balances := Accounts.setBalance account balance book.balances }

namespace Keeper

def record (k : Keeper) (eventType : String) (payload : Json) : Change Unit := fun book =>
  .ask .now fun now =>
    let event : Event := ⟨k.identify book.issued, eventType, payload, now, none⟩
    (book.task.record k.producer event).bind fun (result, task) =>
      .done ((result.mapError .unrecorded).map fun _ => (),
        { book with task, issued := book.issued + 1 })

/-- An operation in a scope, which ends well if the operation works. -/
def transactional {α : Type} (k : Keeper) (change : Change α) : Change α := fun book =>
  (change { book with task := book.task.enter }).bind fun (result, inside) =>
    let ending : Ending := if result.isOk then .succeeded else .failed
    (book.task.leave k.producer inside.task ending).bind fun task =>
      .done (result, { inside with task })

def payload (account member : String) (amount : Int) : Json :=
  .ofMembers [("account", .text account), (member, .integer amount)]

def openAccount (k : Keeper) (account : String) (initial : Int) : Change Unit :=
  k.transactional fun book =>
    k.record "account.opened" (payload account "initial_balance" initial)
      (book.setBalance account initial)

def withdraw (k : Keeper) (account : String) (amount : Int) : Change Int :=
  k.transactional fun book =>
    match book.balances.lookup account with
    | none => .done (.error (.notOpened account), book)
    | some balance =>
      if balance < amount then .done (.error (.insufficientFunds balance amount), book)
      else
        match within64 .subtract (balance - amount) with
        | .error overflow => .crash overflow.message
        | .ok left =>
          Change.andThen (k.record "account.withdrawn" (payload account "amount" amount))
            (fun _ book => .done (.ok left, book))
            (book.setBalance account left)

def deposit (k : Keeper) (account : String) (amount : Int) : Change Int :=
  k.transactional fun book =>
    match book.balances.lookup account with
    | none => .done (.error (.notOpened account), book)
    | some balance =>
      match within64 .add (balance + amount) with
      | .error overflow => .crash overflow.message
      | .ok total =>
        Change.andThen (k.record "account.deposited" (payload account "amount" amount))
          (fun _ book => .done (.ok total, book))
          (book.setBalance account total)

def transfer (k : Keeper) (t : Transfer) : Change Unit :=
  k.transactional <|
    (k.withdraw t.source t.amount).andThen fun _ =>
      (k.deposit t.target t.amount).andThen fun _ book => .done (.ok (), book)

/-- Transfers one after the other. The first that fails ends them, unless failures are
tolerated. -/
def transferEach (k : Keeper) (tolerant : Bool) : List Transfer → Change Unit
  | [], book => .done (.ok (), book)
  | t :: rest, book =>
    (k.transfer t book).bind fun
      | (.ok (), book) => transferEach k tolerant rest book
      | (.error e, book) =>
        if tolerant then transferEach k tolerant rest book else .done (.error e, book)

def transferAll (k : Keeper) (tolerant : Bool) (transfers : List Transfer) : Change Unit :=
  k.transactional (k.transferEach tolerant transfers)

end Keeper

end EventRelay.Accounts
