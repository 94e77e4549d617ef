import EventRelay.Bounds
/-!
# JSON values

The payload of an event is any JSON value. Numbers are of two kinds, whole numbers and doubles, and
stay of the kind they were read as: `1` and `1.0` differ. The members of an object are kept in
ascending order of their names, one value a name, so that equal objects are equal lists.

Main definitions: `Json`, `Json.insert`, the value of a member `Json.get?`, and the invariant
`Json.Canonical` that reading and building keep.
-/

namespace EventRelay

inductive Json where
  | null
  | bool (b : Bool)
  /-- A whole number, from `-2 ^ 63` to `2 ^ 64 - 1`. -/
  | integer (i : Int)
  | float (x : Float)
  | text (s : String)
  | array (items : List Json)
  | object (members : List (String × Json))

namespace Json

instance : Inhabited Json := ⟨.null⟩

/-! ### Members -/

/-- Puts a member into its place; a value already there under that name is replaced. -/
def insert (name : String) (value : Json) : List (String × Json) → List (String × Json)
  | [] => [(name, value)]
  | (other, old) :: rest =>
    if name < other then (name, value) :: (other, old) :: rest
    else if name = other then (name, value) :: rest
    else (other, old) :: insert name value rest

/-- The object with the given members; of two with one name the later counts. -/
def ofMembers (members : List (String × Json)) : Json :=
  .object (members.foldl (fun sorted (name, value) => insert name value sorted) [])

def lookup (name : String) : List (String × Json) → Option Json
  | [] => none
  | (other, value) :: rest => if other = name then some value else lookup name rest

/-- The member of a value; only objects have members. -/
def get? (name : String) : Json → Option Json
  | .object members => lookup name members
  | _ => none

def get (name : String) (value : Json) : Json :=
  (value.get? name).getD .null

/-! ### Views -/

/-- The number, if it is whole and fits into 64 bits with a sign. -/
def signed? : Json → Option Int
  | .integer i => if i ≤ greatestInt64 then some i else none
  | _ => none

def text? : Json → Option String
  | .text s => some s
  | _ => none

def bool? : Json → Option Bool
  | .bool b => some b
  | _ => none

def items? : Json → Option (List Json)
  | .array items => some items
  | _ => none

def isNull : Json → Bool
  | .null => true
  | _ => false

/-! ### Shape -/

mutual

/-- How many arrays and objects are open at the deepest place of a value. -/
def depth : Json → Nat
  | .array items => itemsDepth items + 1
  | .object members => membersDepth members + 1
  | _ => 0

def itemsDepth : List Json → Nat
  | [] => 0
  | item :: rest => max item.depth (itemsDepth rest)

def membersDepth : List (String × Json) → Nat
  | [] => 0
  | (_, value) :: rest => max value.depth (membersDepth rest)

end

mutual

def FloatFree : Json → Prop
  | .float _ => False
  | .array items => ItemsFloatFree items
  | .object members => MembersFloatFree members
  | _ => True

def ItemsFloatFree : List Json → Prop
  | [] => True
  | item :: rest => item.FloatFree ∧ ItemsFloatFree rest

def MembersFloatFree : List (String × Json) → Prop
  | [] => True
  | (_, value) :: rest => value.FloatFree ∧ MembersFloatFree rest

end

def Below (name : String) (members : List (String × Json)) : Prop :=
  ∀ other ∈ members, name < other.1

mutual

/-- Whole numbers are in range, and the members of every object ascend strictly by name. -/
def Canonical : Json → Prop
  | .integer i => leastInt64 ≤ i ∧ i < (pow2 64 : Nat)
  | .array items => ItemsCanonical items
  | .object members => MembersCanonical members
  | _ => True

def ItemsCanonical : List Json → Prop
  | [] => True
  | item :: rest => item.Canonical ∧ ItemsCanonical rest

def MembersCanonical : List (String × Json) → Prop
  | [] => True
  | (name, value) :: rest => Below name rest ∧ value.Canonical ∧ MembersCanonical rest

end

end Json

end EventRelay
