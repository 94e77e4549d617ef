import EventRelay.Json.Reader
import EventRelay.Proofs.Json.Payloads

/-!
# What readers accept

Whatever a reader gives has what the type of its value asks for (`Reader.Yields`), however the
document is written: with members in another order, as an array of fields, or with numbers spelled in
other ways.  A record is read field by field, so it has what every field keeps
(`Shape.yields_reader`); and a value of any kind is as it is kept in memory
(`canonical_readValue`).
-/

namespace EventRelay.Json

/-! ### Whole numbers -/

theorem absorb_lt {significand : Nat} (h : significand < pow2 64) (digits : Bytes) :
    (absorb significand digits).1 < pow2 64 := by
  induction digits generalizing significand with
  | nil => exact h
  | cons d rest ih =>
    rw [absorb]
    split
    · rename_i hnext
      exact ih hnext
    · exact h

theorem Numeral.canonical_of_value? {n : Numeral} {v : Json} (h : n.value? = some v) :
    v.Canonical := by
  have hlt : (absorb 0 n.whole).1 < pow2 64 := absorb_lt (by decide) _
  have hpow : pow2 64 = 18446744073709551616 ∧ pow2 63 = 9223372036854775808 := by decide
  unfold Numeral.value? at h
  split at h
  rename_i significand left hread
  rw [hread] at hlt
  unfold Canonical leastInt64
  split at h
  · -- all digits were taken up, and there are neither point nor exponent
    split at h
    · cases h
      exact ⟨by omega, Int.ofNat_lt.mpr hlt⟩
    · split at h
      · cases h
        trivial
      · cases h
        exact ⟨by omega, by omega⟩
  · obtain ⟨x, -, rfl⟩ := Option.map_eq_some_iff.mp h
    trivial

theorem canonical_readNumber {bs rest : Bytes} {v : Json} (h : readNumber bs = .ok (v, rest)) :
    v.Canonical := by
  obtain ⟨⟨whole, unread⟩, -, h⟩ := exists_of_bind_ok h
  obtain ⟨⟨fraction?, unread⟩, -, h⟩ := exists_of_bind_ok h
  obtain ⟨⟨exponent?, unread⟩, -, h⟩ := exists_of_bind_ok h
  dsimp only at h
  split at h
  · rename_i hvalue
    cases h
    exact Numeral.canonical_of_value? hvalue
  · cases h

/-! ### Values -/

theorem itemsCanonical_iff {items : List Json} :
    ItemsCanonical items ↔ ∀ item ∈ items, item.Canonical := by
  induction items with
  | nil => exact ⟨fun _ => List.forall_mem_nil _, fun _ => trivial⟩
  | cons item rest ih =>
    rw [List.forall_mem_cons, ← ih]
    exact .rfl

theorem canonical_of_map {α : Type} {step : Except Fault α} {f : α → Json × Bytes} {v : Json}
    {rest : Bytes} (h : step.map f = .ok (v, rest)) (hf : ∀ a, (f a).1.Canonical) :
    v.Canonical := by
  obtain ⟨a, -, heq⟩ := exists_of_map_ok h
  have hvalue := hf a
  rwa [heq] at hvalue

mutual

/-- **A value that is read is as it is kept in memory.** -/
theorem canonical_readValue {fuel room : Nat} {bs rest : Bytes} {v : Json}
    (h : readValue fuel room bs = .ok (v, rest)) : v.Canonical := by
  match fuel with
  | 0 =>
    rw [readValue] at h
    cases h
  | fuel + 1 =>
    rw [readValue] at h
    split at h
    · cases h
    split at h
    · exact canonical_of_map h fun _ => trivial
    split at h
    · exact canonical_of_map h fun _ => trivial
    split at h
    · exact canonical_of_map h fun _ => trivial
    split at h
    · exact canonical_of_map h fun _ => trivial
    split at h
    · exact canonical_readNumber h
    split at h
    · split at h
      · cases h
      · exact canonical_readItems (List.forall_mem_nil _) h
    split at h
    · split at h
      · cases h
      · exact canonical_readMembers (show MembersCanonical [] from trivial) h
    · cases h

/-- **So is an array**, if the items are that have been read of it. -/
theorem canonical_readItems {fuel room : Nat} {first : Bool} {acc : List Json} {bs rest : Bytes}
    {v : Json} (hacc : ∀ item ∈ acc, item.Canonical)
    (h : readItems fuel room first acc bs = .ok (v, rest)) : v.Canonical := by
  match fuel with
  | 0 =>
    rw [readItems] at h
    cases h
  | fuel + 1 =>
    have hitem {bs rest' : Bytes} {item : Json} (hread : readValue fuel room bs = .ok (item, rest'))
        (hothers : readItems fuel room false (item :: acc) rest' = .ok (v, rest)) : v.Canonical :=
      canonical_readItems (List.forall_mem_cons.mpr ⟨canonical_readValue hread, hacc⟩) hothers
    rw [readItems] at h
    split at h
    · cases h
    · split at h
      · cases h
        exact itemsCanonical_iff.mpr fun item hitem => hacc item (List.mem_reverse.mp hitem)
      · split at h
        · split at h
          · cases h
          · rename_i hread
            exact hitem hread h
        · split at h
          · split at h
            · cases h
            · split at h
              · cases h
              · split at h
                · cases h
                · rename_i hread
                  exact hitem hread h
          · cases h

/-- **So is an object**, if the members are in order that have been read of it. -/
theorem canonical_readMembers {fuel room : Nat} {first : Bool} {acc : List (String × Json)}
    {bs rest : Bytes} {v : Json} (hacc : MembersCanonical acc)
    (h : readMembers fuel room first acc bs = .ok (v, rest)) : v.Canonical := by
  match fuel with
  | 0 =>
    rw [readMembers] at h
    cases h
  | fuel + 1 =>
    rw [readMembers] at h
    split at h
    · cases h
    · split at h
      · cases h
        exact hacc
      · split at h
        · split at h
          · exact canonical_readMember hacc h
          · cases h
        · split at h
          · split at h
            · cases h
            · split at h
              · exact canonical_readMember hacc h
              · split at h <;> cases h
          · cases h

theorem canonical_readMember {fuel room : Nat} {acc : List (String × Json)}
    {bs rest : Bytes} {v : Json} (hacc : MembersCanonical acc)
    (h : readMember fuel room acc bs = .ok (v, rest)) : v.Canonical := by
  match fuel with
  | 0 =>
    rw [readMember] at h
    cases h
  | fuel + 1 =>
    rw [readMember] at h
    split at h
    · cases h
    · split at h
      · cases h
      · split at h
        · cases h
        · rename_i hvalue
          exact canonical_readMembers (membersCanonical_insert _ (canonical_readValue hvalue) hacc) h

end

namespace Reader

variable {α β : Type} {r : Reader α} {P : α → Prop}

/-- Whatever the reader gives has the property. -/
def Yields (r : Reader α) (P : α → Prop) : Prop :=
  ∀ room bs a rest, r.fromText room bs = .ok (a, rest) → P a

/-! ### Readers -/

theorem yields_of_all (h : ∀ a, P a) : r.Yields P :=
  fun _ _ a _ _ => h a

theorem Yields.map {Q : β → Prop} {f : α → β} (h : r.Yields P) (hf : ∀ a, P a → Q (f a)) :
    (r.map f).Yields Q := by
  intro room bs b rest hread
  obtain ⟨⟨a, rest'⟩, hread, heq⟩ := exists_of_map_ok hread
  cases heq
  exact hf a (h _ _ _ _ hread)

/-- **What a document gives has the property** of what its reader gives. -/
theorem Yields.parse (h : r.Yields P) {bs : Bytes} {a : α} (hread : r.parse bs = .ok a) : P a := by
  obtain ⟨⟨a', rest⟩, hread, hend⟩ := exists_of_bind_ok hread
  obtain ⟨_, -, heq⟩ := exists_of_bind_ok hend
  cases heq
  exact h _ _ _ _ hread

theorem yields_json : json.Yields Json.Canonical :=
  fun _ _ _ _ hread => canonical_readValue hread

theorem yields_scalar {expected : String} {accept : Json → Except Cause α}
    (h : ∀ v a, accept v = .ok a → P a) : (scalar expected accept).Yields P := by
  intro room bs a rest hread
  simp only [scalar] at hread
  split at hread
  · cases hread
  · split at hread
    · cases hread
    · split at hread
      · rename_i haccept
        cases hread
        exact h _ _ haccept
      · cases hread

theorem yields_textWith {expected : String} {accept : String → Except Cause α}
    (h : ∀ s a, accept s = .ok a → P a) : (textWith expected accept).Yields P := by
  refine yields_scalar fun v a haccept => ?_
  split at haccept
  · exact h _ a haccept
  · cases haccept

theorem yields_integer {expected : String} {low high : Int} :
    (integer expected low high).Yields fun i => low ≤ i ∧ i ≤ high := by
  refine yields_scalar fun v i haccept => ?_
  split at haccept
  · split at haccept
    · rename_i hbounds
      cases haccept
      exact hbounds
    · cases haccept
  · cases haccept

theorem yields_unsigned {expected : String} {bits : Nat} :
    (unsigned expected bits).Yields fun n => n < pow2 bits := by
  have hpos : 0 < pow2 bits := Nat.pow_pos (by decide)
  refine yields_integer.map fun i hi => ?_
  omega

theorem yields_optional (h : r.Yields P) : (optional r).Yields fun o => ∀ a ∈ o, P a := by
  intro room bs o rest hread a ha
  simp only [optional] at hread
  split at hread
  · split at hread
    · obtain ⟨_, -, heq⟩ := exists_of_map_ok hread
      cases heq
      cases ha
    · obtain ⟨_, hvalue, heq⟩ := exists_of_map_ok hread
      cases heq
      cases ha
      exact h _ _ _ _ hvalue
  · obtain ⟨_, hvalue, heq⟩ := exists_of_map_ok hread
    cases heq
    cases ha
    exact h _ _ _ _ hvalue

/-! ### Records -/

section Records

variable {σ : Type} {shape : Shape σ} {Q : σ → Prop}

/-- Reading the field keeps a property of records. -/
def Field.Keeps (f : Field σ) (Q : σ → Prop) : Prop :=
  f.reader.Yields fun set => ∀ record, Q record → Q (set record)

theorem Yields.keeps {name : String} {set : α → σ → σ} {required : Bool} (h : r.Yields P)
    (hset : ∀ a, P a → ∀ record, Q record → Q (set a record)) :
    (field name r set required).Keeps Q :=
  h.map hset

theorem closeArray_ok {result : Except Fault α × Bytes} {a : α} {rest : Bytes}
    (h : closeArray result = .ok (a, rest)) : ∃ bs, result = (.ok a, bs) := by
  obtain ⟨outcome, bs⟩ := result
  simp only [closeArray] at h
  split at h
  · split at h
    · cases h
      exact ⟨bs, rfl⟩
    · split at h
      · split at h
        · split at h <;> cases h
        · cases h
      · cases h
  · cases h
  · split at h
    · cases h
    · split at h <;> cases h
  · cases h

theorem Shape.closeObject_ok {result : Except Fault σ × Bytes} {record : σ} {rest : Bytes}
    (h : closeObject result = .ok (record, rest)) : ∃ bs, result = (.ok record, bs) := by
  obtain ⟨outcome, bs⟩ := result
  simp only [closeObject] at h
  split at h
  · split at h
    · cases h
      exact ⟨bs, rfl⟩
    · split at h <;> cases h
  · cases h
  · cases h
  · cases h

theorem Shape.yields_items {fields : List (Field σ)} (hfields : ∀ f ∈ fields, f.Keeps Q)
    {room n : Nat} {record result : σ} {bs rest : Bytes} (hrecord : Q record)
    (h : shape.itemsFromText room n fields record bs = (.ok result, rest)) : Q result := by
  induction fields generalizing n record bs with
  | nil =>
    cases h
    exact hrecord
  | cons f fields ih =>
    obtain ⟨hf, hfields⟩ := List.forall_mem_cons.mp hfields
    rw [itemsFromText] at h
    split at h
    · cases h
    · split at h
      · cases h
        exact hrecord
      · cases h
    · split at h
      · cases h
      · rename_i hread
        exact ih hfields (hf _ _ _ _ hread record hrecord) h

theorem Shape.yields_members (hfields : ∀ f ∈ shape.fields, f.Keeps Q) {room fuel : Nat}
    {first : Bool} {seen : List String} {record result : σ} {bs rest : Bytes} (hrecord : Q record)
    (h : shape.membersFromText room fuel first seen record bs = (.ok result, rest)) :
    Q result := by
  induction fuel generalizing first seen record bs with
  | zero => cases h
  | succ fuel ih =>
    rw [membersFromText] at h
    split at h
    · cases h
    · -- at the closing brace
      obtain ⟨hfinish, -⟩ := Prod.mk.inj h
      rw [Shape.finish] at hfinish
      split at hfinish
      · cases hfinish
      · cases hfinish
        exact hrecord
    · split at h
      · cases h
      · split at h
        · -- no field has this name, and the value is skipped
          split at h
          · cases h
          · split at h
            · cases h
            · exact ih hrecord h
        · rename_i f hfind
          split at h
          · cases h
          · split at h
            · cases h
            · split at h
              · cases h
              · rename_i hread
                have hf := hfields f (List.mem_of_find?_eq_some hfind)
                exact ih (hf _ _ _ _ hread record hrecord) h

/-- **A record has what all of its fields keep**, in whatever order they come and however many are
left out. -/
theorem Shape.yields_reader (hstart : Q shape.start) (hfields : ∀ f ∈ shape.fields, f.Keeps Q) :
    shape.reader.Yields Q := by
  intro room bs record rest hread
  simp only [Shape.reader] at hread
  split at hread
  · cases hread
  · split at hread
    · split at hread
      · cases hread
      · obtain ⟨_, hitems⟩ := closeArray_ok hread
        exact Shape.yields_items hfields hstart hitems
    · split at hread
      · split at hread
        · cases hread
        · obtain ⟨_, hmembers⟩ := Shape.closeObject_ok hread
          exact Shape.yields_members hfields hstart hmembers
      · have hnone : (scalar shape.expected fun value =>
            .error (.invalidType (found value) shape.expected)).Yields Q :=
          yields_scalar fun v a haccept => by cases haccept
        exact hnone _ _ _ _ hread

end Records

end Reader

end EventRelay.Json
