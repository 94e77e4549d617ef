import EventRelay.Json.Reader
import EventRelay.Proofs.Json.RoundTrip

/-!
# Typed values read back

A reader restores what a written value stands for (`Reader.Restores`), whatever follows the value in
the document.  Readers are put together from others, and so is what they restore: there is one lemma
for each way of doing so.

The members of a record come in the order of its fields.  `Shape.Written` says what the record
becomes while they are read, and `Shape.restores_object` that they are read to their end.
-/

namespace EventRelay.Json

/-! ### How values begin -/

theorem exists_opening {v : Json} (hfree : v.FloatFree) :
    ∃ b more, v.toBytes = b :: more ∧ isSpace b = false ∧ (b = 110 → v = .null) ∧
      (b = 91 → ∃ items, v = .array items) ∧ (b = 123 → ∃ members, v = .object members) := by
  obtain ⟨b, more, hhead, hspace, -⟩ := exists_head_toBytes hfree
  refine ⟨b, more, hhead, hspace, ?_⟩
  have hscalar (hb : b ≠ 110 ∧ b ≠ 91 ∧ b ≠ 123) : (b = 110 → v = .null) ∧
      (b = 91 → ∃ items, v = .array items) ∧ (b = 123 → ∃ members, v = .object members) :=
    ⟨fun h => absurd h hb.1, fun h => absurd h hb.2.1, fun h => absurd h hb.2.2⟩
  match v with
  | .null =>
    obtain ⟨rfl, -⟩ := List.cons.inj (show [110, 117, 108, 108] = b :: more from hhead)
    exact ⟨fun _ => rfl, fun h => absurd h (by decide), fun h => absurd h (by decide)⟩
  | .bool true =>
    obtain ⟨rfl, -⟩ := List.cons.inj (show [116, 114, 117, 101] = b :: more from hhead)
    exact hscalar (by decide)
  | .bool false =>
    obtain ⟨rfl, -⟩ := List.cons.inj (show [102, 97, 108, 115, 101] = b :: more from hhead)
    exact hscalar (by decide)
  | .integer i =>
    obtain ⟨b', more', hwrite, hb⟩ := exists_head_writeInteger i
    obtain ⟨rfl, -⟩ := List.cons.inj (hhead.symm.trans ((toBytes_integer i).trans hwrite))
    have hne {d : UInt8} (hd : d ≠ 45 ∧ isDigit d = false) : b ≠ d := by
      rintro rfl
      exact hb.elim hd.1 (by simp [hd.2])
    exact hscalar ⟨hne (by decide), hne (by decide), hne (by decide)⟩
  | .float x => exact hfree.elim
  | .text s =>
    have hwrite := encode_writeText s []
    rw [List.append_nil, ← toBytes_text, hhead] at hwrite
    obtain ⟨rfl, -⟩ := List.cons.inj hwrite
    exact hscalar (by decide)
  | .array items =>
    rw [toBytes_array] at hhead
    obtain ⟨rfl, -⟩ := List.cons.inj hhead
    exact ⟨fun h => absurd h (by decide), fun _ => ⟨items, rfl⟩, fun h => absurd h (by decide)⟩
  | .object members =>
    rw [toBytes_object] at hhead
    obtain ⟨rfl, -⟩ := List.cons.inj hhead
    exact ⟨fun h => absurd h (by decide), fun h => absurd h (by decide), fun _ => ⟨members, rfl⟩⟩

theorem skipSpace_toBytes {v : Json} (hfree : v.FloatFree) (rest : Bytes) :
    skipSpace (v.toBytes ++ rest) = v.toBytes ++ rest := by
  obtain ⟨b, more, hhead, hspace, -⟩ := exists_head_toBytes hfree
  rw [hhead, List.cons_append, skipSpace_cons hspace]

theorem length_le_length_itemOctets {items : List Json} (hfree : ItemsFloatFree items)
    (first : Bool) : items.length ≤ (itemOctets first items).length := by
  induction items generalizing first with
  | nil => exact Nat.zero_le _
  | cons item items ih =>
    have hitem := length_toBytes_pos hfree.1
    have hitems := ih hfree.2 false
    rw [itemOctets_cons]
    simp only [List.length_append, List.length_cons]
    omega

theorem length_le_length_memberOctets (members : List (String × Json)) (first : Bool) :
    members.length ≤ (memberOctets first members).length := by
  induction members generalizing first with
  | nil => exact Nat.zero_le _
  | cons member members ih =>
    obtain ⟨name, value⟩ := member
    have hmembers := ih false
    rw [memberOctets_cons]
    simp only [List.length_append, List.length_cons]
    omega

namespace Reader

variable {α β : Type} {r : Reader α} {room : Nat} {v : Json} {a : α}

/-- The reader gives what the written value stands for, and what follows the value. -/
def Restores (r : Reader α) (room : Nat) (v : Json) (a : α) : Prop :=
  ∀ rest, Stops rest → r.fromText room (v.toBytes ++ rest) = .ok (a, rest)

theorem Restores.map (h : r.Restores room v a) (f : α → β) : (r.map f).Restores room v (f a) := by
  intro rest hrest
  show (r.fromText room _).map _ = _
  rw [h rest hrest]
  rfl

/-- The reader has a fault where the written value stands. -/
def Refuses (r : Reader α) (room : Nat) (v : Json) : Prop :=
  ∀ rest, Stops rest → ∃ fault, r.fromText room (v.toBytes ++ rest) = .error fault

theorem Refuses.map (h : r.Refuses room v) (f : α → β) : (r.map f).Refuses room v := by
  intro rest hrest
  obtain ⟨fault, hread⟩ := h rest hrest
  refine ⟨fault, ?_⟩
  show (r.fromText room _).map _ = _
  rw [hread]
  rfl

/-- **A document of one value**, which may have room for all arrays and objects. -/
theorem Restores.parse (h : r.Restores depthLimit v a) : r.parse v.toBytes = .ok a := by
  have hread := h [] stops_nil
  rw [List.append_nil] at hread
  unfold Reader.parse
  rw [hread]
  rfl

theorem Refuses.parse (h : r.Refuses depthLimit v) : ∃ fault, r.parse v.toBytes = .error fault := by
  obtain ⟨fault, hread⟩ := h [] stops_nil
  rw [List.append_nil] at hread
  unfold Reader.parse
  rw [hread]
  exact ⟨fault, rfl⟩

theorem length_lt_fuelFor (bs rest : Bytes) : bs.length < fuelFor (bs ++ rest) := by
  rw [fuelFor, List.length_append]
  omega

theorem restores_json (hcanonical : v.Canonical) (hfree : v.FloatFree) (hdepth : v.depth < room) :
    json.Restores room v v := by
  intro rest hrest
  have hfuel := Nat.le_of_lt (length_lt_fuelFor v.toBytes rest)
  exact (readValue_toBytes v hcanonical hfree hfuel (by omega) hrest).1 hdepth

theorem refuses_json (hcanonical : v.Canonical) (hfree : v.FloatFree) (hroom : 0 < room)
    (hdeep : room ≤ v.depth) : json.Refuses room v := by
  intro rest hrest
  have hfuel := Nat.le_of_lt (length_lt_fuelFor v.toBytes rest)
  obtain ⟨unread, hread⟩ :=
    (readValue_toBytes v hcanonical hfree hfuel hroom hrest).2 (Nat.not_lt.mpr hdeep)
  exact ⟨_, hread⟩

/-! ### Scalars -/

theorem restores_scalar {expected : String} {accept : Json → Except Cause α}
    (hcanonical : v.Canonical) (hfree : v.FloatFree) (hflat : v.depth = 0) (hroom : 0 < room)
    (haccept : accept v = .ok a) : (scalar expected accept).Restores room v a := by
  intro rest hrest
  have hread := restores_json hcanonical hfree (hflat ▸ hroom) rest hrest
  have hopening : opening? (v.toBytes ++ rest) = none := by
    obtain ⟨b, more, hhead, -, -, harray, hobject⟩ := exists_opening hfree
    have hopen : b ≠ 91 ∧ b ≠ 123 := by
      refine ⟨fun hb => ?_, fun hb => ?_⟩
      · obtain ⟨items, rfl⟩ := harray hb
        rw [depth] at hflat
        exact absurd hflat (Nat.succ_ne_zero _)
      · obtain ⟨members, rfl⟩ := hobject hb
        rw [depth] at hflat
        exact absurd hflat (Nat.succ_ne_zero _)
    rw [hhead, List.cons_append, opening?, if_neg hopen.1, if_neg hopen.2]
  have hvalue : readValue (fuelFor (v.toBytes ++ rest)) room (v.toBytes ++ rest) = .ok (v, rest) :=
    hread
  simp only [scalar, skipSpace_toBytes hfree, hopening, hvalue, haccept]

theorem restores_textWith {expected : String} {accept : String → Except Cause α} {s : String}
    (hroom : 0 < room) (haccept : accept s = .ok a) :
    (textWith expected accept).Restores room (.text s) a :=
  restores_scalar trivial trivial (by simp [depth]) hroom haccept

theorem restores_string (hroom : 0 < room) (s : String) : string.Restores room (.text s) s :=
  restores_textWith hroom rfl

theorem restores_integer {expected : String} {low high i : Int} (hroom : 0 < room)
    (hlow : low ≤ i) (hhigh : i ≤ high) (hleast : leastInt64 ≤ low)
    (hgreatest : high < (pow2 64 : Nat)) :
    (integer expected low high).Restores room (.integer i) i :=
  restores_scalar ⟨by omega, by omega⟩ trivial (by simp [depth]) hroom (if_pos ⟨hlow, hhigh⟩)

theorem restores_unsigned {expected : String} {bits n : Nat} (hroom : 0 < room) (hbits : bits ≤ 64)
    (hn : n < pow2 bits) : (unsigned expected bits).Restores room (.integer n) n := by
  have hwidth : pow2 bits ≤ pow2 64 := Nat.pow_le_pow_right (by decide) hbits
  have hleast : leastInt64 ≤ 0 := by decide
  exact (restores_integer hroom (by omega) (by omega) hleast (by omega)).map Int.toNat

theorem restores_choice {alternatives : List (String × α)} {name : String} (hroom : 0 < room)
    (hname : alternatives.lookup name = some a) :
    (choice alternatives).Restores room (.text name) a := by
  intro rest hrest
  have haccept : choose alternatives name = .ok a := by
    rw [choose, hname]
  have hvariant : (textWith "variant identifier" (choose alternatives)).Restores room (.text name) a :=
    restores_textWith hroom haccept
  have hread := hvariant rest hrest
  have hquoted := encode_writeText name rest
  rw [← toBytes_text] at hquoted
  rw [hquoted] at hread ⊢
  simp only [choice, skipSpace_cons (show isSpace 34 = false by decide), if_true]
  exact hread

/-! ### Absence -/

theorem restores_null : (optional r).Restores room .null none := by
  intro rest hrest
  have hword : null.toBytes ++ rest = 110 :: ([117, 108, 108] ++ rest) := rfl
  rw [hword]
  simp only [optional, skipSpace_cons (show isSpace 110 = false by decide), if_true]
  rfl

theorem restores_some (hfree : v.FloatFree) (hnull : v ≠ .null) (h : r.Restores room v a) :
    (optional r).Restores room v (some a) := by
  intro rest hrest
  have hread := h rest hrest
  obtain ⟨b, more, hhead, hspace, hword, -⟩ := exists_opening hfree
  have hb : b ≠ 110 := fun hb => hnull (hword hb)
  rw [hhead, List.cons_append] at hread ⊢
  simp only [optional, skipSpace_cons hspace, if_neg hb, hread]
  rfl

theorem restores_elim_map {write : α → Json} {f : α → α} {o : Option α}
    (h : ∀ a ∈ o, (write a).FloatFree ∧ write a ≠ .null ∧ r.Restores room (write a) (f a)) :
    (optional r).Restores room (o.elim .null write) (o.map f) := by
  cases o with
  | none => exact restores_null
  | some a =>
    obtain ⟨hfree, hnull, hread⟩ := h a rfl
    exact restores_some hfree hnull hread

theorem restores_elim {write : α → Json} {o : Option α}
    (h : ∀ a ∈ o, (write a).FloatFree ∧ write a ≠ .null ∧ r.Restores room (write a) a) :
    (optional r).Restores room (o.elim .null write) o := by
  have hread := restores_elim_map (f := id) h
  rwa [Option.map_id_fun, id] at hread

/-! ### Arrays -/

section Arrays

variable {write : α → Json} {as : List α} {rest : Bytes}

theorem itemsFloatFree_map (hfree : ∀ a ∈ as, (write a).FloatFree) :
    ItemsFloatFree (as.map write) := by
  induction as with
  | nil => trivial
  | cons a as ih =>
    obtain ⟨ha, has⟩ := List.forall_mem_cons.mp hfree
    exact ⟨ha, ih has⟩

theorem nextItem_toBytes (hfree : v.FloatFree) (first : Bool) (rest : Bytes) :
    nextItem first (separator first ++ (v.toBytes ++ rest)) = .ok (some (v.toBytes ++ rest)) := by
  obtain ⟨b, more, hhead, hspace, hclose⟩ := exists_head_toBytes hfree
  rw [hhead, List.cons_append]
  cases first with
  | true =>
    simp only [separator, if_true, List.nil_append, nextItem, skipSpace_cons hspace, if_neg hclose]
  | false =>
    simp only [separator, Bool.false_eq_true, if_false, List.cons_append, List.nil_append, nextItem,
      skipSpace_cons (show isSpace 44 = false by decide), show (44 : UInt8) ≠ 93 by decide,
      if_true, skipSpace_cons hspace, if_neg hclose]

theorem items_itemOctets (hitems : ∀ a ∈ as, (write a).FloatFree ∧ r.Restores room (write a) a)
    {acc : List α} {first : Bool} (hfirst : acc.isEmpty = first) {fuel : Nat}
    (hfuel : as.length < fuel) :
    r.items room fuel acc (itemOctets first (as.map write) ++ rest) =
      (.ok (acc.reverse ++ as), 93 :: rest) := by
  induction as generalizing acc first fuel with
  | nil =>
    obtain ⟨fuel, rfl⟩ : ∃ less, fuel = less + 1 := ⟨fuel - 1, by simp at hfuel; omega⟩
    rw [List.map_nil, itemOctets_nil, List.append_nil]
    simp only [items, nextItem, List.cons_append, List.nil_append,
      skipSpace_cons (show isSpace 93 = false by decide), if_true]
  | cons a as ih =>
    obtain ⟨⟨hfree, hread⟩, hothers⟩ := List.forall_mem_cons.mp hitems
    rw [List.length_cons] at hfuel
    obtain ⟨fuel, rfl⟩ : ∃ less, fuel = less + 1 := ⟨fuel - 1, by omega⟩
    have hrest := hread (itemOctets false (as.map write) ++ rest) (stops_itemOctets _ rest)
    have hgoesOn : (a :: acc).isEmpty = false := rfl
    have hitems : r.items room fuel (a :: acc) (itemOctets false (as.map write) ++ rest) = _ :=
      ih hothers hgoesOn (by omega)
    rw [List.reverse_cons, List.append_assoc, List.singleton_append] at hitems
    rw [List.map_cons, itemOctets_cons, List.append_assoc, List.append_assoc, items, hfirst,
      nextItem_toBytes hfree]
    simp only [hrest]
    exact hitems

theorem restores_sequence (hroom : 1 < room)
    (hitems : ∀ a ∈ as, (write a).FloatFree ∧ r.Restores (room - 1) (write a) a) :
    (sequence r).Restores room (.array (as.map write)) as := by
  intro rest hrest
  have hfree := itemsFloatFree_map fun a ha => (hitems a ha).1
  have hlength := length_le_length_itemOctets hfree true
  have hfuel : as.length < fuelFor (itemOctets true (as.map write) ++ rest) := by
    rw [List.length_map] at hlength
    exact Nat.lt_of_le_of_lt hlength (length_lt_fuelFor _ rest)
  have hread : r.items (room - 1) _ [] (itemOctets true (as.map write) ++ rest) = _ :=
    items_itemOctets hitems rfl hfuel
  rw [toBytes_array, List.cons_append]
  simp only [sequence, skipSpace_cons (show isSpace 91 = false by decide), if_true,
    if_neg (Nat.not_le.mpr hroom), hread]
  rfl

end Arrays

/-! ### Records -/

section Records

variable {σ : Type} {shape : Shape σ} {fields : List (Field σ)} {members : List (String × Json)}
  {record result : σ} {rest : Bytes}

/-- The members stand for the fields in their order, and turn one record into another. -/
inductive Shape.Written (room : Nat) : List (Field σ) → List (String × Json) → σ → σ → Prop
  | nil (record : σ) : Written room [] [] record record
  | cons {f : Field σ} {fields : List (Field σ)} {v : Json} {members : List (String × Json)}
      {set : σ → σ} {record result : σ} (value : f.reader.Restores room v set)
      (others : Written room fields members (set record) result) :
      Written room (f :: fields) ((f.name, v) :: members) record result

theorem Shape.Written.field {name : String} {set : α → σ → σ} {required : Bool}
    (value : r.Restores room v a) (others : Shape.Written room fields members (set a record) result) :
    Shape.Written room (Reader.field name r set required :: fields) ((name, v) :: members) record
      result :=
  .cons (value.map set) others

theorem Refuses.field (h : r.Refuses room v) (name : String) (set : α → σ → σ) (required : Bool) :
    (Reader.field name r set required).reader.Refuses room v :=
  h.map set

theorem nextName_writeText (first : Bool) (name : String) (rest : Bytes) :
    Shape.nextName first (separator first ++ (Utf8.encode (writeText name) ++ rest)) =
      .ok (some (Utf8.encode (name.toList.flatMap escapeChar) ++ 34 :: rest)) := by
  rw [encode_writeText]
  cases first with
  | true =>
    simp only [separator, if_true, List.nil_append, Shape.nextName,
      skipSpace_cons (show isSpace 34 = false by decide), show (34 : UInt8) ≠ 125 by decide, if_false]
  | false =>
    simp only [separator, Bool.false_eq_true, if_false, List.cons_append, List.nil_append,
      Shape.nextName, skipSpace_cons (show isSpace 44 = false by decide),
      show (44 : UInt8) ≠ 125 by decide, if_true,
      skipSpace_cons (show isSpace 34 = false by decide)]

theorem readColon_cons (rest : Bytes) : readColon (58 :: rest) = .ok rest := by
  rw [readColon, skipSpace_cons (by decide)]
  rfl

theorem Shape.find?_name {before : List (Field σ)} {f : Field σ}
    (hfields : shape.fields = before ++ f :: fields)
    (hnames : (shape.fields.map Field.name).Nodup) :
    shape.find? f.name = some f ∧ f.name ∉ before.map Field.name := by
  rw [hfields, List.map_append, List.map_cons, List.nodup_append] at hnames
  have hnew : f.name ∉ before.map Field.name := fun hmem =>
    hnames.2.2 f.name hmem f.name List.mem_cons_self rfl
  have hbefore : before.find? (fun other => other.name = f.name) = none := by
    refine List.find?_eq_none.mpr fun other hother hname => hnew ?_
    exact List.mem_map.mpr ⟨other, hother, of_decide_eq_true hname⟩
  refine ⟨?_, hnew⟩
  rw [Shape.find?, hfields, List.find?_append, hbefore, Option.none_or]
  exact List.find?_cons_of_pos (decide_eq_true rfl)

theorem Shape.finish_of_all (record : σ) {seen : List String}
    (hseen : ∀ f ∈ shape.fields, f.name ∈ seen) : shape.finish seen record = .ok record := by
  have hmissing : shape.missing? seen = none := by
    rw [Shape.missing?, Option.map_eq_none_iff, List.find?_eq_none]
    intro f hf
    simp [hseen f hf]
  rw [Shape.finish, hmissing]

section Steps

variable {f : Field σ} {before : List (Field σ)}

theorem Shape.membersFromText_cons (hfields : shape.fields = before ++ f :: fields)
    (hnames : (shape.fields.map Field.name).Nodup) (fuel : Nat) (first : Bool) (record : σ)
    (rest : Bytes) :
    shape.membersFromText room (fuel + 1) first (before.map Field.name).reverse record
        (memberOctets first ((f.name, v) :: members) ++ rest) =
      match f.reader.fromText room (v.toBytes ++ (memberOctets false members ++ rest)) with
      | .error fault => (.error fault, v.toBytes ++ (memberOctets false members ++ rest))
      | .ok (set, rest) =>
        shape.membersFromText room fuel false (f.name :: (before.map Field.name).reverse)
          (set record) rest := by
  obtain ⟨hfind, hnew⟩ := Shape.find?_name hfields hnames
  have hunseen : (before.map Field.name).reverse.contains f.name = false := by
    simpa using hnew
  rw [memberOctets_cons, List.append_assoc, List.append_assoc, List.cons_append, List.append_assoc,
    Shape.membersFromText, nextName_writeText]
  cases hread : f.reader.fromText room (v.toBytes ++ (memberOctets false members ++ rest)) <;>
    simp only [readText_flatMap, hfind, hunseen, Bool.false_eq_true, if_false, readColon_cons, hread]

/-- **Members that stand for the next fields are read**, whatever members are behind them. -/
theorem Shape.membersFromText_of_written (h : Shape.Written room fields members record result)
    {after : List (Field σ)} (hfields : shape.fields = before ++ (fields ++ after))
    (hnames : (shape.fields.map Field.name).Nodup) (fuel : Nat) (first : Bool)
    (more : List (String × Json)) (rest : Bytes) :
    ∃ first', shape.membersFromText room (fuel + members.length) first
        (before.map Field.name).reverse record (memberOctets first (members ++ more) ++ rest) =
      shape.membersFromText room fuel first' ((before ++ fields).map Field.name).reverse result
        (memberOctets first' more ++ rest) := by
  induction h generalizing before first with
  | nil record =>
    refine ⟨first, ?_⟩
    rw [List.append_nil]
    rfl
  | @cons f fields v members set record result hvalue _ ih =>
    have hread := hvalue (memberOctets false (members ++ more) ++ rest) (stops_memberOctets _ rest)
    have hfields' : shape.fields = (before ++ [f]) ++ (fields ++ after) := by simp [hfields]
    obtain ⟨first', hothers⟩ := ih hfields' false
    rw [List.map_append, List.reverse_append, List.append_assoc] at hothers
    refine ⟨first', ?_⟩
    rw [List.length_cons, ← Nat.add_assoc, List.cons_append,
      Shape.membersFromText_cons hfields hnames, hread]
    exact hothers

end Steps

theorem Shape.fromText_object (hroom : 1 < room) (members : List (String × Json)) (rest : Bytes) :
    shape.reader.fromText room ((object members).toBytes ++ rest) =
      Shape.closeObject (shape.membersFromText (room - 1) (fuelFor (memberOctets true members ++ rest))
        true [] shape.start (memberOctets true members ++ rest)) := by
  rw [toBytes_object, List.cons_append]
  simp only [Shape.reader, skipSpace_cons (show isSpace 123 = false by decide),
    show (123 : UInt8) ≠ 91 by decide, if_false, if_true, if_neg (Nat.not_le.mpr hroom)]

/-- The first members of an object are read if they stand for the first fields, and there is fuel for
one step more. -/
theorem Shape.exists_fuel_of_written {after : List (Field σ)}
    (hfields : shape.fields = fields ++ after) (hnames : (shape.fields.map Field.name).Nodup)
    (h : Shape.Written room fields members shape.start result) (more : List (String × Json))
    (rest : Bytes) :
    ∃ fuel first, shape.membersFromText room (fuelFor (memberOctets true (members ++ more) ++ rest))
        true [] shape.start (memberOctets true (members ++ more) ++ rest) =
      shape.membersFromText room (fuel + 1) first (fields.map Field.name).reverse result
        (memberOctets first more ++ rest) := by
  have hlength := length_le_length_memberOctets (members ++ more) true
  have hfuel := length_lt_fuelFor (memberOctets true (members ++ more)) rest
  rw [List.length_append] at hlength
  obtain ⟨fuel, hfuel⟩ : ∃ fuel, fuelFor (memberOctets true (members ++ more) ++ rest) =
      fuel + 1 + members.length :=
    ⟨fuelFor (memberOctets true (members ++ more) ++ rest) - members.length - 1, by omega⟩
  have hfields' : shape.fields = [] ++ (fields ++ after) := hfields
  obtain ⟨first, hread⟩ :=
    Shape.membersFromText_of_written h hfields' hnames (fuel + 1) true more rest
  rw [hfuel]
  exact ⟨fuel, first, hread⟩

/-- **A record is restored** from the object whose members stand for its fields. -/
theorem Shape.restores_object (hnames : (shape.fields.map Field.name).Nodup) (hroom : 1 < room)
    (h : Shape.Written (room - 1) shape.fields members shape.start result) :
    shape.reader.Restores room (.object members) result := by
  intro rest _
  obtain ⟨fuel, first, hread⟩ :=
    Shape.exists_fuel_of_written (List.append_nil _).symm hnames h [] rest
  have hfinish : shape.finish (shape.fields.map Field.name).reverse result = .ok result :=
    Shape.finish_of_all result fun f hf => List.mem_reverse.mpr (List.mem_map_of_mem hf)
  rw [List.append_nil] at hread
  rw [Shape.fromText_object hroom, hread, memberOctets_nil]
  simp only [Shape.membersFromText, Shape.nextName, List.cons_append, List.nil_append,
    skipSpace_cons (show isSpace 125 = false by decide), if_true, hfinish]
  rfl

theorem Shape.closeObject_error (fault : Fault) (bs : Bytes) :
    ∃ fault', Shape.closeObject ((.error fault : Except Fault σ), bs) = .error fault' := by
  simp only [Shape.closeObject]
  cases skipSpace bs with
  | nil => exact ⟨_, rfl⟩
  | cons b rest => exact ⟨_, rfl⟩

/-- **It is refused** if the value of one field is, behind members that stand for the fields in front
of it. -/
theorem Shape.refuses_object {f : Field σ} {after : List (Field σ)}
    (hfields : shape.fields = fields ++ f :: after)
    (hnames : (shape.fields.map Field.name).Nodup) (hroom : 1 < room)
    (h : Shape.Written (room - 1) fields members shape.start result)
    (hvalue : f.reader.Refuses (room - 1) v) (more : List (String × Json)) :
    shape.reader.Refuses room (.object (members ++ (f.name, v) :: more)) := by
  intro rest _
  obtain ⟨fuel, first, hread⟩ :=
    Shape.exists_fuel_of_written hfields hnames h ((f.name, v) :: more) rest
  obtain ⟨fault, hfault⟩ := hvalue (memberOctets false more ++ rest) (stops_memberOctets more rest)
  rw [Shape.fromText_object hroom, hread, Shape.membersFromText_cons hfields hnames, hfault]
  exact Shape.closeObject_error fault _

end Records

end Reader

end EventRelay.Json
