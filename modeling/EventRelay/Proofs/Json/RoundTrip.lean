import EventRelay.Codec
import EventRelay.Proofs.Json.Numerals

/-!
# Documents read back

A value is written whatever its depth, and read only if no more than 127 arrays and objects are open
at once.  Between the two nothing is lost: a value without doubles, as it is kept in memory, is read
back from its written form exactly when it is not too deep, and refused for its depth alone
otherwise (`parse_toBytes`).

The proof goes along the value.  A reader of a value, of the items of an array and of the members of
an object is followed on what the writer of the same part has written; `ReadsIf` says for each of
them what the depth decides.
-/

namespace EventRelay

namespace Json

/-- Reading gives a value and what follows it if the value fits, and is refused for its depth alone
if it does not. -/
def ReadsIf (fits : Prop) (result : Except Fault (Json × Bytes)) (value : Json) (rest : Bytes) :
    Prop :=
  (fits → result = .ok (value, rest)) ∧
    (¬ fits → ∃ unread, result = .error ⟨.malformed .recursionLimit, some unread⟩)

theorem ReadsIf.of_fits {fits : Prop} {result : Except Fault (Json × Bytes)} {value : Json}
    {rest : Bytes} (hfits : fits) (h : result = .ok (value, rest)) :
    ReadsIf fits result value rest :=
  ⟨fun _ => h, fun hnot => absurd hfits hnot⟩

theorem ReadsIf.congr {fits fits' : Prop} {result : Except Fault (Json × Bytes)} {value : Json}
    {rest : Bytes} (h : ReadsIf fits result value rest) (hfits : fits' ↔ fits) :
    ReadsIf fits' result value rest :=
  ⟨fun hf => h.1 (hfits.mp hf), fun hnot => h.2 fun hf => hnot (hfits.mpr hf)⟩

/-! ### Written forms -/

def itemOctets (first : Bool) (items : List Json) : Bytes :=
  Utf8.encode (writeItems first items)

/-- The octets of the members of an object, and of its closing brace. -/
def memberOctets (first : Bool) (members : List (String × Json)) : Bytes :=
  Utf8.encode (writeMembers first members)

/-- What stands in front of an item or a member: a comma, unless it is the first one. -/
def separator (first : Bool) : Bytes :=
  if first then [] else [44]

theorem itemOctets_nil (first : Bool) : itemOctets first [] = [93] := rfl

theorem itemOctets_cons (first : Bool) (item : Json) (items : List Json) :
    itemOctets first (item :: items) =
      separator first ++ (item.toBytes ++ itemOctets false items) := by
  unfold itemOctets
  rw [writeItems, Utf8.encode_append, Utf8.encode_append, List.append_assoc]
  cases first <;> rfl

theorem memberOctets_nil (first : Bool) : memberOctets first [] = [125] := rfl

theorem memberOctets_cons (first : Bool) (name : String) (value : Json)
    (members : List (String × Json)) :
    memberOctets first ((name, value) :: members) =
      separator first ++ (Utf8.encode (writeText name) ++
        58 :: (value.toBytes ++ memberOctets false members)) := by
  unfold memberOctets
  rw [writeMembers, Utf8.encode_append, Utf8.encode_append, Utf8.encode_cons, Utf8.encode_append,
    List.append_assoc]
  cases first <;> rfl

theorem toBytes_array (items : List Json) :
    (array items).toBytes = 91 :: itemOctets true items := by
  rw [toBytes, write, Utf8.encode_cons]
  rfl

theorem toBytes_object (members : List (String × Json)) :
    (object members).toBytes = 123 :: memberOctets true members := by
  rw [toBytes, write, Utf8.encode_cons]
  rfl

theorem toBytes_text (s : String) : (text s).toBytes = Utf8.encode (writeText s) := by
  rw [toBytes, write]

theorem toBytes_integer (i : Int) : (integer i).toBytes = Utf8.encode (writeInteger i) := by
  rw [toBytes, write]

theorem stops_itemOctets (items : List Json) (rest : Bytes) :
    Stops (itemOctets false items ++ rest) := by
  cases items with
  | nil => exact stops_cons (by decide)
  | cons item items =>
    rw [itemOctets_cons]
    exact stops_cons (by decide)

theorem stops_memberOctets (members : List (String × Json)) (rest : Bytes) :
    Stops (memberOctets false members ++ rest) := by
  cases members with
  | nil => exact stops_cons (by decide)
  | cons member members =>
    obtain ⟨name, value⟩ := member
    rw [memberOctets_cons]
    exact stops_cons (by decide)

theorem length_itemOctets_pos (items : List Json) : 0 < (itemOctets false items).length := by
  cases items with
  | nil => exact Nat.one_pos
  | cons item items =>
    rw [itemOctets_cons]
    simp [separator]

theorem length_memberOctets_pos (members : List (String × Json)) :
    0 < (memberOctets false members).length := by
  cases members with
  | nil => exact Nat.one_pos
  | cons member members =>
    obtain ⟨name, value⟩ := member
    rw [memberOctets_cons]
    simp [separator]

theorem exists_head_toBytes {v : Json} (hfree : v.FloatFree) :
    ∃ b more, v.toBytes = b :: more ∧ isSpace b = false ∧ b ≠ 93 := by
  cases v with
  | null => exact ⟨110, [117, 108, 108], by decide, by decide, by decide⟩
  | bool b =>
    cases b with
    | true => exact ⟨116, [114, 117, 101], by decide, by decide, by decide⟩
    | false => exact ⟨102, [97, 108, 115, 101], by decide, by decide, by decide⟩
  | integer i =>
    obtain ⟨b, more, hwrite, hb⟩ := exists_head_writeInteger i
    refine ⟨b, more, (toBytes_integer i).trans hwrite, ?_⟩
    rcases hb with rfl | hdigit
    · exact ⟨by decide, by decide⟩
    · simp only [isDigit, Bool.and_eq_true, decide_eq_true_eq, UInt8.le_iff_toNat_le] at hdigit
      have hne : ∀ d : UInt8, d.toNat < 48 ∨ 57 < d.toNat → b ≠ d := by
        rintro d hd rfl
        have h48 : (48 : UInt8).toNat = 48 := by decide
        have h57 : (57 : UInt8).toNat = 57 := by decide
        omega
      refine ⟨?_, hne 93 (by decide)⟩
      simp [isSpace, hne 32 (by decide), hne 9 (by decide), hne 10 (by decide), hne 13 (by decide)]
  | float x => exact hfree.elim
  | text s =>
    have hwrite := encode_writeText s []
    rw [List.append_nil] at hwrite
    exact ⟨34, _, (toBytes_text s).trans hwrite, by decide, by decide⟩
  | array items => exact ⟨91, _, toBytes_array items, by decide, by decide⟩
  | object members => exact ⟨123, _, toBytes_object members, by decide, by decide⟩

theorem length_toBytes_pos {v : Json} (hfree : v.FloatFree) : 0 < v.toBytes.length := by
  obtain ⟨b, more, hhead, -⟩ := exists_head_toBytes hfree
  rw [hhead]
  exact Nat.succ_pos _

theorem skipSpace_cons {b : UInt8} (h : isSpace b = false) (rest : Bytes) :
    skipSpace (b :: rest) = b :: rest := by
  simp [skipSpace, h]

/-! ### Members in their order -/

theorem insert_of_above {name : String} (value : Json) {members : List (String × Json)}
    (h : ∀ other ∈ members, other.1 < name) :
    insert name value members = members ++ [(name, value)] := by
  induction members with
  | nil => rfl
  | cons other members ih =>
    obtain ⟨known, old⟩ := other
    have hlt : known < name := h (known, old) (List.mem_cons_self ..)
    have hnot : ¬ name < known := String.lt_asymm hlt
    have hne : name ≠ known := by
      rintro rfl
      exact hnot hlt
    rw [insert, if_neg hnot, if_neg hne, ih fun m hm => h m (List.mem_cons_of_mem _ hm)]
    rfl

/-! ### Single steps of the readers -/

section Steps

variable {fuel room : Nat} {first : Bool} {rest tail : Bytes}

theorem readItems_step {item : Json} {items acc : List Json} {whole : Json}
    (hfree : item.FloatFree)
    (hitem : ReadsIf (item.depth < room) (readValue fuel room (item.toBytes ++ tail)) item tail)
    (hitems : ReadsIf (itemsDepth items < room) (readItems fuel room false (item :: acc) tail)
      whole rest) :
    ReadsIf (itemsDepth (item :: items) < room)
      (readItems (fuel + 1) room first acc (separator first ++ (item.toBytes ++ tail)))
      whole rest := by
  obtain ⟨b, more, hhead, hspace, hclose⟩ := exists_head_toBytes hfree
  have hread : readItems (fuel + 1) room first acc (separator first ++ (item.toBytes ++ tail)) =
      (readValue fuel room (item.toBytes ++ tail)).bind fun read =>
        readItems fuel room false (read.1 :: acc) read.2 := by
    rw [hhead, List.cons_append]
    cases first with
    | true =>
      simp only [separator, if_true, List.nil_append]
      have hunfold := readItems.eq_def (fuel + 1) room true acc (b :: (more ++ tail))
      simp only [skipSpace_cons hspace, hclose, if_false, if_true] at hunfold
      rw [hunfold]
      cases readValue fuel room (b :: (more ++ tail)) <;> rfl
    | false =>
      simp only [separator, Bool.false_eq_true, if_false, List.cons_append, List.nil_append]
      have hunfold := readItems.eq_def (fuel + 1) room false acc (44 :: b :: (more ++ tail))
      simp only [skipSpace_cons (show isSpace 44 = false by decide),
        show (44 : UInt8) ≠ 93 by decide, Bool.false_eq_true, if_false, if_true,
        skipSpace_cons hspace, hclose] at hunfold
      rw [hunfold]
      cases readValue fuel room (b :: (more ++ tail)) <;> rfl
  have hdepth : itemsDepth (item :: items) < room ↔ item.depth < room ∧ itemsDepth items < room := by
    rw [itemsDepth]
    omega
  rw [hread]
  refine ReadsIf.congr ?_ hdepth
  constructor
  · rintro ⟨hfirst, hothers⟩
    rw [hitem.1 hfirst]
    exact hitems.1 hothers
  · intro hdeep
    by_cases hfirst : item.depth < room
    · rw [hitem.1 hfirst]
      exact hitems.2 fun hothers => hdeep ⟨hfirst, hothers⟩
    · obtain ⟨unread, herror⟩ := hitem.2 hfirst
      rw [herror]
      exact ⟨unread, rfl⟩

theorem readMembers_step {name : String} {value : Json} {members acc : List (String × Json)}
    {whole : Json} (habove : ∀ other ∈ acc, other.1 < name)
    (hvalue : ReadsIf (value.depth < room) (readValue fuel room (value.toBytes ++ tail)) value tail)
    (hmembers : ReadsIf (membersDepth members < room)
      (readMembers fuel room false (acc ++ [(name, value)]) tail) whole rest) :
    ReadsIf (membersDepth ((name, value) :: members) < room)
      (readMembers (fuel + 2) room first acc
        (separator first ++ (Utf8.encode (writeText name) ++ 58 :: (value.toBytes ++ tail))))
      whole rest := by
  have hread : readMembers (fuel + 2) room first acc
        (separator first ++ (Utf8.encode (writeText name) ++ 58 :: (value.toBytes ++ tail))) =
      (readValue fuel room (value.toBytes ++ tail)).bind fun read =>
        readMembers fuel room false (insert name read.1 acc) read.2 := by
    have hmember : readMember (fuel + 1) room acc (Utf8.encode (name.toList.flatMap escapeChar) ++
          34 :: 58 :: (value.toBytes ++ tail)) =
        (readValue fuel room (value.toBytes ++ tail)).bind fun read =>
          readMembers fuel room false (insert name read.1 acc) read.2 := by
      have hcolon : readColon (58 :: (value.toBytes ++ tail)) = .ok (value.toBytes ++ tail) := by
        rw [readColon, skipSpace_cons (by decide)]
        rfl
      have hunfold := readMember.eq_def (fuel + 1) room acc
        (Utf8.encode (name.toList.flatMap escapeChar) ++ 34 :: 58 :: (value.toBytes ++ tail))
      simp only [readText_flatMap, hcolon] at hunfold
      rw [hunfold]
      cases readValue fuel room (value.toBytes ++ tail) <;> rfl
    rw [encode_writeText, ← hmember]
    cases first with
    | true =>
      simp only [separator, if_true, List.nil_append]
      rw [readMembers, skipSpace_cons (by decide)]
      simp only [show (34 : UInt8) ≠ 125 by decide, if_false, if_true]
    | false =>
      simp only [separator, Bool.false_eq_true, if_false, List.cons_append, List.nil_append]
      rw [readMembers, skipSpace_cons (by decide)]
      simp only [show (44 : UInt8) ≠ 125 by decide, Bool.false_eq_true, if_false, if_true,
        skipSpace_cons (show isSpace 34 = false by decide)]
  have hdepth : membersDepth ((name, value) :: members) < room ↔
      value.depth < room ∧ membersDepth members < room := by
    rw [membersDepth]
    omega
  rw [hread]
  refine ReadsIf.congr ?_ hdepth
  constructor
  · rintro ⟨hfirst, hothers⟩
    rw [hvalue.1 hfirst]
    simp only [Except.bind, insert_of_above value habove]
    exact hmembers.1 hothers
  · intro hdeep
    by_cases hfirst : value.depth < room
    · rw [hvalue.1 hfirst]
      simp only [Except.bind, insert_of_above value habove]
      exact hmembers.2 fun hothers => hdeep ⟨hfirst, hothers⟩
    · obtain ⟨unread, herror⟩ := hvalue.2 hfirst
      rw [herror]
      exact ⟨unread, rfl⟩

theorem readValue_array {items : List Json}
    (hitems : 1 < room → ReadsIf (itemsDepth items < room - 1)
      (readItems fuel (room - 1) true [] (itemOctets true items ++ rest)) (.array items) rest) :
    ReadsIf ((array items).depth < room)
      (readValue (fuel + 1) room ((array items).toBytes ++ rest)) (.array items) rest := by
  rw [toBytes_array, List.cons_append, readValue, skipSpace_cons (by decide)]
  simp only [show (91 : UInt8) ≠ 110 by decide, show (91 : UInt8) ≠ 116 by decide,
    show (91 : UInt8) ≠ 102 by decide, show (91 : UInt8) ≠ 34 by decide,
    show ((91 : UInt8) = 45 || isDigit 91) = false by decide, Bool.false_eq_true, if_false, if_true]
  by_cases hroom : room ≤ 1
  · rw [if_pos hroom]
    refine ⟨fun hdepth => ?_, fun _ => ⟨_, rfl⟩⟩
    rw [depth] at hdepth
    omega
  · rw [if_neg hroom]
    refine (hitems (by omega)).congr ?_
    rw [depth]
    omega

theorem readValue_object {members : List (String × Json)}
    (hmembers : 1 < room → ReadsIf (membersDepth members < room - 1)
      (readMembers fuel (room - 1) true [] (memberOctets true members ++ rest))
      (.object members) rest) :
    ReadsIf ((object members).depth < room)
      (readValue (fuel + 1) room ((object members).toBytes ++ rest)) (.object members) rest := by
  rw [toBytes_object, List.cons_append, readValue, skipSpace_cons (by decide)]
  simp only [show (123 : UInt8) ≠ 110 by decide, show (123 : UInt8) ≠ 116 by decide,
    show (123 : UInt8) ≠ 102 by decide, show (123 : UInt8) ≠ 34 by decide,
    show (123 : UInt8) ≠ 91 by decide, show ((123 : UInt8) = 45 || isDigit 123) = false by decide,
    Bool.false_eq_true, if_false, if_true]
  by_cases hroom : room ≤ 1
  · rw [if_pos hroom]
    refine ⟨fun hdepth => ?_, fun _ => ⟨_, rfl⟩⟩
    rw [depth] at hdepth
    omega
  · rw [if_neg hroom]
    refine (hmembers (by omega)).congr ?_
    rw [depth]
    omega

theorem readValue_word {v : Json} (hv : v = .null ∨ v = .bool true ∨ v = .bool false) :
    readValue (fuel + 1) room (v.toBytes ++ rest) = .ok (v, rest) := by
  rcases hv with rfl | rfl | rfl
  · have hword : null.toBytes = [110, 117, 108, 108] := by decide
    rw [hword, List.cons_append, readValue, skipSpace_cons (by decide)]
    rfl
  · have hword : (bool true).toBytes = [116, 114, 117, 101] := by decide
    rw [hword, List.cons_append, readValue, skipSpace_cons (by decide)]
    rfl
  · have hword : (bool false).toBytes = [102, 97, 108, 115, 101] := by decide
    rw [hword, List.cons_append, readValue, skipSpace_cons (by decide)]
    rfl

theorem readValue_text (s : String) :
    readValue (fuel + 1) room ((text s).toBytes ++ rest) = .ok (.text s, rest) := by
  rw [toBytes_text, encode_writeText, readValue, skipSpace_cons (by decide)]
  simp only [show (34 : UInt8) ≠ 110 by decide, show (34 : UInt8) ≠ 116 by decide,
    show (34 : UInt8) ≠ 102 by decide, if_false, if_true, readText_flatMap]
  rfl

theorem readValue_integer {i : Int} (hleast : leastInt64 ≤ i) (hmost : i < (pow2 64 : Nat))
    (hrest : Stops rest) :
    readValue (fuel + 1) room ((integer i).toBytes ++ rest) = .ok (.integer i, rest) := by
  have hnumber := readNumber_writeInteger hleast hmost hrest
  obtain ⟨b, more, hwrite, hb⟩ := exists_head_writeInteger i
  have hnumeral : (b = 45 || isDigit b) = true := by
    rcases hb with rfl | hdigit
    · decide
    · simp [hdigit]
  have hne : ∀ d : UInt8, (d = 45 || isDigit d) = false → b ≠ d := by
    rintro d hd rfl
    rw [hd] at hnumeral
    cases hnumeral
  have hspace : isSpace b = false := by
    simp [isSpace, hne 32 (by decide), hne 9 (by decide), hne 10 (by decide), hne 13 (by decide)]
  rw [hwrite, List.cons_append] at hnumber
  rw [toBytes_integer, hwrite, List.cons_append, readValue, skipSpace_cons hspace]
  simp only [hne 110 (by decide), hne 116 (by decide), hne 102 (by decide), hne 34 (by decide),
    hnumeral, if_false, if_true]
  exact hnumber

end Steps

/-! ### Values -/

mutual

/-- **A written value is read back**, if it is not too deep. -/
theorem readValue_toBytes (v : Json) (hcanonical : v.Canonical) (hfree : v.FloatFree)
    {fuel room : Nat} {rest : Bytes} (hfuel : v.toBytes.length ≤ fuel) (hroom : 0 < room)
    (hrest : Stops rest) :
    ReadsIf (v.depth < room) (readValue fuel room (v.toBytes ++ rest)) v rest := by
  have hpos := length_toBytes_pos hfree
  obtain ⟨fuel, rfl⟩ : ∃ less, fuel = less + 1 := ⟨fuel - 1, by omega⟩
  match v with
  | .null => exact .of_fits hroom (readValue_word (.inl rfl))
  | .bool true => exact .of_fits hroom (readValue_word (.inr (.inl rfl)))
  | .bool false => exact .of_fits hroom (readValue_word (.inr (.inr rfl)))
  | .integer i => exact .of_fits hroom (readValue_integer hcanonical.1 hcanonical.2 hrest)
  | .float x => exact hfree.elim
  | .text s => exact .of_fits hroom (readValue_text s)
  | .array items =>
    rw [toBytes_array, List.length_cons] at hfuel
    exact readValue_array fun hone =>
      readItems_itemOctets items hcanonical hfree true [] (by omega) (by omega)
  | .object members =>
    rw [toBytes_object, List.length_cons] at hfuel
    exact readValue_object fun hone =>
      readMembers_memberOctets members hcanonical hfree true []
        (fun _ _ _ hother => absurd hother List.not_mem_nil) (by omega) (by omega)

theorem readItems_itemOctets (items : List Json) (hcanonical : ItemsCanonical items)
    (hfree : ItemsFloatFree items) (first : Bool) (acc : List Json) {fuel room : Nat} {rest : Bytes}
    (hfuel : (itemOctets first items).length ≤ fuel) (hroom : 0 < room) :
    ReadsIf (itemsDepth items < room) (readItems fuel room first acc (itemOctets first items ++ rest))
      (.array (acc.reverse ++ items)) rest := by
  match items with
  | [] =>
    obtain ⟨fuel, rfl⟩ : ∃ less, fuel = less + 1 :=
      ⟨fuel - 1, by rw [itemOctets_nil, List.length_singleton] at hfuel; omega⟩
    refine .of_fits hroom ?_
    rw [itemOctets_nil, List.append_nil, List.cons_append, readItems, skipSpace_cons (by decide)]
    rfl
  | item :: items =>
    have hpos := length_itemOctets_pos items
    have hitempos := length_toBytes_pos hfree.1
    rw [itemOctets_cons, List.length_append, List.length_append] at hfuel
    obtain ⟨fuel, rfl⟩ : ∃ less, fuel = less + 1 := ⟨fuel - 1, by omega⟩
    have hitemfuel : item.toBytes.length ≤ fuel := by omega
    have hitemsfuel : (itemOctets false items).length ≤ fuel := by omega
    have hitem := readValue_toBytes item hcanonical.1 hfree.1 hitemfuel hroom
      (stops_itemOctets items rest)
    have hitems : ReadsIf (itemsDepth items < room)
        (readItems fuel room false (item :: acc) (itemOctets false items ++ rest))
        (.array ((item :: acc).reverse ++ items)) rest :=
      readItems_itemOctets items hcanonical.2 hfree.2 false (item :: acc) hitemsfuel hroom
    rw [List.reverse_cons, List.append_assoc, List.singleton_append] at hitems
    rw [itemOctets_cons, List.append_assoc, List.append_assoc]
    exact readItems_step hfree.1 hitem hitems

theorem readMembers_memberOctets (members : List (String × Json))
    (hcanonical : MembersCanonical members) (hfree : MembersFloatFree members) (first : Bool)
    (acc : List (String × Json)) (habove : ∀ member ∈ members, ∀ other ∈ acc, other.1 < member.1)
    {fuel room : Nat} {rest : Bytes} (hfuel : (memberOctets first members).length ≤ fuel)
    (hroom : 0 < room) :
    ReadsIf (membersDepth members < room)
      (readMembers fuel room first acc (memberOctets first members ++ rest))
      (.object (acc ++ members)) rest := by
  match members with
  | [] =>
    obtain ⟨fuel, rfl⟩ : ∃ less, fuel = less + 1 :=
      ⟨fuel - 1, by rw [memberOctets_nil, List.length_singleton] at hfuel; omega⟩
    refine .of_fits hroom ?_
    rw [memberOctets_nil, List.append_nil, List.cons_append, readMembers,
      skipSpace_cons (by decide)]
    rfl
  | (name, value) :: members =>
    obtain ⟨hbelow, hvaluecanonical, hmemberscanonical⟩ := hcanonical
    have hpos := length_memberOctets_pos members
    have hquoted := encode_writeText name []
    rw [List.append_nil] at hquoted
    rw [memberOctets_cons, hquoted] at hfuel
    simp only [List.length_append, List.length_cons] at hfuel
    obtain ⟨fuel, rfl⟩ : ∃ less, fuel = less + 2 := ⟨fuel - 2, by omega⟩
    have hvaluefuel : value.toBytes.length ≤ fuel := by omega
    have hmembersfuel : (memberOctets false members).length ≤ fuel := by omega
    have hvalue := readValue_toBytes value hvaluecanonical hfree.1 hvaluefuel hroom
      (stops_memberOctets members rest)
    have habove' : ∀ member ∈ members, ∀ other ∈ acc ++ [(name, value)], other.1 < member.1 := by
      intro member hmember other hother
      rcases List.mem_append.mp hother with hother | hother
      · exact habove member (List.mem_cons_of_mem _ hmember) other hother
      · rw [List.mem_singleton.mp hother]
        exact hbelow member hmember
    have hmembers : ReadsIf (membersDepth members < room)
        (readMembers fuel room false (acc ++ [(name, value)]) (memberOctets false members ++ rest))
        (.object (acc ++ [(name, value)] ++ members)) rest :=
      readMembers_memberOctets members hmemberscanonical hfree.2 false
        (acc ++ [(name, value)]) habove' hmembersfuel hroom
    rw [List.append_assoc, List.singleton_append] at hmembers
    rw [memberOctets_cons, List.append_assoc, List.append_assoc, List.cons_append,
      List.append_assoc]
    exact readMembers_step (habove (name, value) (List.mem_cons_self ..)) hvalue hmembers

end

/-! ### Documents -/

/-- **A written document is read back exactly if it is not too deep**, and refused for its depth
alone otherwise. -/
theorem parse_toBytes {v : Json} (hcanonical : v.Canonical) (hfree : v.FloatFree) :
    (v.depth ≤ 127 → parse v.toBytes = .ok v) ∧
      (127 < v.depth →
        ∃ unread, parse v.toBytes = .error ⟨.malformed .recursionLimit, some unread⟩) := by
  have hfuel : v.toBytes.length ≤ fuelFor v.toBytes := by
    unfold fuelFor
    omega
  have hroom : 0 < depthLimit := by decide
  have hread := readValue_toBytes v hcanonical hfree hfuel hroom stops_nil
  rw [List.append_nil] at hread
  unfold parse parseWithin
  constructor
  · intro hdepth
    rw [hread.1 (Nat.lt_succ_of_le hdepth)]
    rfl
  · intro hdeep
    obtain ⟨unread, herror⟩ := hread.2 (Nat.not_lt.mpr hdeep)
    rw [herror]
    exact ⟨unread, rfl⟩

theorem message_malformed (m : Malformed) : (Cause.malformed m).message = m.message := rfl

theorem messageIn_malformed (m : Malformed) (unread : Nat) (text : Bytes) :
    ∃ place, (⟨.malformed m, some unread⟩ : Fault).messageIn text = m.message ++ place := by
  unfold Fault.messageIn
  dsimp only
  generalize Position.behind _ = p
  refine ⟨" at line " ++ toString p.line ++ " column " ++ toString p.column, ?_⟩
  simp only [String.append_assoc, message_malformed]

end Json

/-! ### Payloads -/

/-- Why a payload that is too deep is not read. -/
def Codec.tooDeep (eventType : String) (place : String) : Error :=
  .parse ("payload of " ++ eventType ++ ": " ++ (Json.Malformed.recursionLimit.message ++ place))

/-- **A payload is read back exactly if it is not too deep**, and reported as too deep otherwise. -/
theorem Codec.json_restores {payload : Json} (hcanonical : payload.Canonical)
    (hfree : payload.FloatFree) (eventType : String) :
    (payload.depth ≤ 127 → json.decode payload.toBytes eventType = .ok payload) ∧
      (127 < payload.depth →
        ∃ place, json.decode payload.toBytes eventType = .error (tooDeep eventType place)) := by
  obtain ⟨hread, hrefused⟩ := Json.parse_toBytes hcanonical hfree
  have hdecode : json.decode payload.toBytes eventType =
      (Json.parse payload.toBytes).mapError fun fault =>
        .parse ("payload of " ++ eventType ++ ": " ++ fault.messageIn payload.toBytes) := rfl
  rw [hdecode]
  constructor
  · intro hdepth
    rw [hread hdepth]
    rfl
  · intro hdeep
    obtain ⟨unread, herror⟩ := hrefused hdeep
    rw [herror]
    obtain ⟨place, hmessage⟩ := Json.messageIn_malformed .recursionLimit unread payload.toBytes
    refine ⟨place, ?_⟩
    show Except.error (Error.parse _) = _
    rw [hmessage, tooDeep]

end EventRelay
