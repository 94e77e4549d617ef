/-!
# Routes from events to handlers

A handler names the types of events it takes. The routes of a list of handlers are an index: for
each type the handlers that name it, in the order of the list, and apart from them those that take
every type. Of the candidates for an event the first that accepts it is chosen; handlers that take
every type come last, wherever they stand in the list.
-/

namespace EventRelay

inductive EventTypes where
  | one (type : String)
  | many (types : List String)
  | all
  deriving DecidableEq, Repr

def EventTypes.matches (t : EventTypes) (type : String) : Bool :=
  match t with
  | .one known => known = type
  | .many types => types.contains type
  | .all => true

/-- A handler of events: the user code it stands for, by number, and the types it takes. -/
structure Handler where
  slot : Nat
  types : EventTypes
  deriving DecidableEq, Repr

/-- The index of a list of handlers. -/
structure Routes where
  byType : List (String × List Nat)
  forAll : List Nat
  deriving Repr

namespace Routes

def empty : Routes := ⟨[], []⟩

/-- Appends a handler to those of a type. -/
def addTo (type : String) (slot : Nat) : List (String × List Nat) → List (String × List Nat)
  | [] => [(type, [slot])]
  | (known, slots) :: rest =>
    if known = type then (known, slots ++ [slot]) :: rest
    else (known, slots) :: addTo type slot rest

def add (routes : Routes) (handler : Handler) : Routes :=
  match handler.types with
  | .all => { routes with forAll := routes.forAll ++ [handler.slot] }
  | .one type => { routes with byType := addTo type handler.slot routes.byType }
  | .many types =>
    { routes with
      byType := types.foldl (fun index type => addTo type handler.slot index) routes.byType }

def ofHandlers (handlers : List Handler) : Routes :=
  handlers.foldl add empty

def isEmpty (routes : Routes) : Bool :=
  routes.byType.isEmpty && routes.forAll.isEmpty

/-- The handlers to be asked for an event of a type, in order. -/
def candidates (routes : Routes) (type : String) : List Nat :=
  (routes.byType.lookup type).getD [] ++ routes.forAll

/-- The first candidate that accepts. -/
def choose (routes : Routes) (type : String) (accepts : Nat → Bool) : Option Nat :=
  (routes.candidates type).find? accepts

end Routes

end EventRelay
