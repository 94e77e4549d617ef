import EventRelay.Proofs.Json.RoundTrip

/-!
# Payloads written and read back

An object may be built from members in any order, and with names given twice: what is kept in memory
is in order (`canonical_ofMembers`).  So being in order is no condition on what a payload may say,
and writing and reading lose nothing but payloads that are too deep (`Codec.json_decode_encode`).
-/

namespace EventRelay

namespace Json

/-! ### Objects in order -/

theorem eq_or_mem_of_mem_insert {name : String} {value : Json} {members : List (String × Json)}
    {member : String × Json} (h : member ∈ insert name value members) :
    member = (name, value) ∨ member ∈ members := by
  induction members with
  | nil => exact .inl (List.mem_singleton.mp h)
  | cons first rest ih =>
    rw [insert] at h
    split at h
    · exact List.mem_cons.mp h
    · split at h
      · exact (List.mem_cons.mp h).imp id (List.mem_cons_of_mem _)
      · rcases List.mem_cons.mp h with rfl | h
        · exact .inr List.mem_cons_self
        · exact (ih h).imp id (List.mem_cons_of_mem _)

theorem below_insert {least name : String} (value : Json) {members : List (String × Json)}
    (hname : least < name) (hbelow : Below least members) :
    Below least (insert name value members) := by
  intro other hother
  rcases eq_or_mem_of_mem_insert hother with rfl | hother
  · exact hname
  · exact hbelow other hother

theorem membersCanonical_insert (name : String) {value : Json} {members : List (String × Json)}
    (hvalue : value.Canonical) (hmembers : MembersCanonical members) :
    MembersCanonical (insert name value members) := by
  induction members with
  | nil => exact ⟨fun other hother => absurd hother List.not_mem_nil, hvalue, trivial⟩
  | cons first rest ih =>
    obtain ⟨other, old⟩ := first
    obtain ⟨hbelow, hold, hrest⟩ := hmembers
    rw [insert]
    split
    next hless =>
      refine ⟨List.forall_mem_cons.mpr ⟨hless, fun member hmember => ?_⟩, hvalue, hbelow, hold,
        hrest⟩
      exact String.lt_trans hless (hbelow member hmember)
    next hless =>
      split
      next hsame =>
        obtain rfl := hsame
        exact ⟨hbelow, hvalue, hrest⟩
      next hother =>
        have habove : other < name := by
          refine String.not_le.mp fun hle => hother ?_
          exact String.le_antisymm hle (String.not_lt.mp hless)
        exact ⟨below_insert value habove hbelow, hold, ih hrest⟩

/-- **Every object that is built is in order**, whatever its members are and in which order they
come. -/
theorem canonical_ofMembers {members : List (String × Json)}
    (hvalues : ∀ member ∈ members, member.2.Canonical) : (ofMembers members).Canonical :=
  List.foldlRecOn members _ trivial fun _ hsorted member hmember =>
    membersCanonical_insert member.1 (hvalues member hmember) hsorted

theorem membersFloatFree_iff {members : List (String × Json)} :
    MembersFloatFree members ↔ ∀ member ∈ members, member.2.FloatFree := by
  induction members with
  | nil => exact ⟨fun _ => List.forall_mem_nil _, fun _ => trivial⟩
  | cons member rest ih =>
    rw [List.forall_mem_cons, ← ih]
    exact .rfl

theorem floatFree_ofMembers {members : List (String × Json)}
    (hvalues : ∀ member ∈ members, member.2.FloatFree) : (ofMembers members).FloatFree := by
  refine List.foldlRecOn members _ trivial fun sorted hsorted member hmember => ?_
  refine membersFloatFree_iff.mpr fun other hother => ?_
  rcases eq_or_mem_of_mem_insert hother with rfl | hother
  · exact hvalues member hmember
  · exact membersFloatFree_iff.mp hsorted other hother

/-! ### Values of any depth -/

def nested : Nat → Json
  | 0 => .null
  | n + 1 => .array [nested n]

theorem depth_nested (n : Nat) : (nested n).depth = n := by
  induction n with
  | zero => rfl
  | succ n ih =>
    rw [nested, depth, itemsDepth, itemsDepth, ih]
    omega

theorem canonical_nested (n : Nat) : (nested n).Canonical := by
  induction n with
  | zero => trivial
  | succ n ih => exact ⟨ih, trivial⟩

theorem floatFree_nested (n : Nat) : (nested n).FloatFree := by
  induction n with
  | zero => trivial
  | succ n ih => exact ⟨ih, trivial⟩

end Json

/-! ### The round trip -/

/-- **A payload comes back from the ledger as it went in, exactly if no more than 127 arrays and
objects are open in it at once.**  This holds for all payloads without doubles, as they are kept in
memory, and the type of the event, which is known when reading, makes no difference. -/
theorem Codec.json_decode_encode {payload : Json} (hcanonical : payload.Canonical)
    (hfree : payload.FloatFree) (eventType : String) :
    ((json.encode payload).bind fun bytes => json.decode bytes eventType) = .ok payload ↔
      payload.depth ≤ 127 := by
  obtain ⟨hread, hrefused⟩ := json_restores hcanonical hfree eventType
  have hwritten : ((json.encode payload).bind fun bytes => json.decode bytes eventType) =
      json.decode payload.toBytes eventType := rfl
  rw [hwritten]
  refine ⟨fun hdecode => Nat.le_of_not_lt fun hdeep => ?_, hread⟩
  obtain ⟨place, herror⟩ := hrefused hdeep
  rw [herror] at hdecode
  cases hdecode

/-- A payload with the least and the greatest whole number, with names and texts that need escapes,
an empty name, and members that are given out of order. -/
def Json.motley : Json :=
  ofMembers [("é\"", .text "\\ \" \n \x7f 😀"),
    ("b", .array [.integer (pow2 64 - 1 : Nat), .integer leastInt64, .null, .array []]),
    ("\u0000\t", .bool false), ("", .object [])]

theorem Codec.json_decode_encode_motley :
    ((json.encode Json.motley).bind fun bytes => json.decode bytes "order.paid") =
      .ok Json.motley := by
  have hcanonical : Json.motley.Canonical := by
    refine Json.canonical_ofMembers ?_
    simp [Json.Canonical, Json.ItemsCanonical, Json.MembersCanonical, leastInt64, pow2]
  have hfree : Json.motley.FloatFree := by
    refine Json.floatFree_ofMembers ?_
    simp [Json.FloatFree, Json.ItemsFloatFree, Json.MembersFloatFree]
  have hdepth : Json.motley.depth ≤ 127 := by decide
  exact (json_decode_encode hcanonical hfree "order.paid").mpr hdepth

end EventRelay
