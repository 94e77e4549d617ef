import EventRelay.Ledger.Message
import EventRelay.Proofs.Json.Texts

/-!
# Messages that are cut

A long message is cut behind its first 500 characters, however many octets these have.  Whoever has
the message as octets finds the place by going through its characters (`Utf8.places`): there the first
one begins that is left out, and the octets on either side are those of a text.

What is cut is longer than 500 characters again, as the marker follows.  Cutting it once more takes
the marker away and puts it back (`truncation_exact`).
-/

namespace EventRelay

/-! ### Places of characters -/

namespace Utf8

/-- Characters with the places of their first octets, the first character at `start`. -/
def places (start : Nat) : List Char → List (Nat × Char)
  | [] => []
  | c :: cs => (start, c) :: places (start + (encodeChar c).length) cs

theorem getElem?_places (start : Nat) (cs : List Char) (n : Nat) :
    (places start cs)[n]? = cs[n]?.map fun c => (start + (encode (cs.take n)).length, c) := by
  induction cs generalizing start n with
  | nil => rfl
  | cons c cs ih =>
    cases n with
    | zero => rfl
    | succ n =>
      rw [places, List.getElem?_cons_succ, List.getElem?_cons_succ, ih, List.take_succ_cons,
        encode_cons, List.length_append, Nat.add_assoc]

end Utf8

namespace Message

/-! ### Short and long messages -/

theorem truncate_of_le {text : String} (h : text.length ≤ limit) : truncate text = text :=
  if_pos h

theorem toList_truncate {text : String} (h : limit < text.length) :
    (truncate text).toList = text.toList.take limit ++ marker.toList := by
  rw [truncate, if_neg (Nat.not_le.mpr h), String.toList_append, String.toList_ofList]

theorem length_truncate_le (text : String) : (truncate text).length ≤ limit + marker.length := by
  unfold truncate
  split
  · omega
  · rw [String.length_append, String.length_ofList]
    exact Nat.add_le_add_right (List.length_take_le _ _) _

/-- **The first characters of a message are kept**, and so it is also when it is cut again. -/
theorem take_toList_truncate (text : String) :
    (truncate text).toList.take limit = text.toList.take limit := by
  by_cases h : text.length ≤ limit
  · rw [truncate_of_le h]
  · have hlength : (text.toList.take limit).length = limit := by
      rw [List.length_take, String.length_toList]
      omega
    rw [toList_truncate (Nat.not_le.mp h)]
    exact List.take_left' hlength

theorem truncate_eq_iff {text text' : String} (h : limit < text.length) (h' : limit < text'.length) :
    truncate text = truncate text' ↔ text.toList.take limit = text'.toList.take limit := by
  rw [← String.toList_inj, toList_truncate h, toList_truncate h', List.append_cancel_right_eq]

theorem length_truncate_of_lt {text : String} (h : limit < text.length) :
    (truncate text).length = limit + marker.length := by
  rw [← String.length_toList, toList_truncate h, List.length_append, List.length_take,
    String.length_toList, String.length_toList]
  omega

/-- **Cutting twice is cutting once.** -/
theorem truncate_truncate (text : String) : truncate (truncate text) = truncate text := by
  by_cases h : text.length ≤ limit
  · rw [truncate_of_le h, truncate_of_le h]
  · have hlong := Nat.not_le.mp h
    have hagain : limit < (truncate text).length := by
      rw [length_truncate_of_lt hlong]
      decide
    rw [truncate_eq_iff hagain hlong, take_toList_truncate]

/-! ### Octets -/

/-- The place of the octet at which a message is cut: that of the first character that is not kept. -/
def cutPlace? (text : String) : Option Nat :=
  (Utf8.places 0 text.toList)[limit]?.map Prod.fst

theorem cutPlace?_of_le {text : String} (h : text.length ≤ limit) : cutPlace? text = none := by
  rw [cutPlace?, Utf8.getElem?_places, List.getElem?_eq_none (by rwa [String.length_toList])]
  rfl

theorem cutPlace?_of_lt {text : String} (h : limit < text.length) :
    cutPlace? text = some (Utf8.encode (text.toList.take limit)).length := by
  rw [cutPlace?, Utf8.getElem?_places, List.getElem?_eq_getElem (by rwa [String.length_toList])]
  simp

/-- **The octets of a cut message**, and what the place of the cut divides. -/
structure Divides (text : String) (place : Nat) : Prop where
  truncate : Bytes.ofString (truncate text) =
    (Bytes.ofString text).take place ++ Bytes.ofString marker
  kept : Bytes.toString? ((Bytes.ofString text).take place) =
    some (String.ofList (text.toList.take limit))
  dropped : Bytes.toString? ((Bytes.ofString text).drop place) =
    some (String.ofList (text.toList.drop limit))

theorem divides_of_lt {text : String} (h : limit < text.length) :
    Divides text (Utf8.encode (text.toList.take limit)).length := by
  have hsplit : Bytes.ofString text =
      Utf8.encode (text.toList.take limit) ++ Utf8.encode (text.toList.drop limit) := by
    rw [← Utf8.encode_append, List.take_append_drop]
    rfl
  refine ⟨?_, ?_, ?_⟩
  · rw [hsplit, List.take_left, Bytes.ofString, toList_truncate h, Utf8.encode_append]
    rfl
  · rw [hsplit, List.take_left, Bytes.toString?, Utf8.decode?_encode]
    rfl
  · rw [hsplit, List.drop_left, Bytes.toString?, Utf8.decode?_encode]
    rfl

/-- **How messages are cut.**  Up to 500 characters a message is kept, and of a longer one the first
500 with the marker behind them.  The cut is made in the octets, at the place where the character
begins that is the first to be left out: this divides no character, whatever octets there are.  What
is cut has 514 characters at most and is not changed by being cut again, and all that can be told from
it are the first 500 characters. -/
theorem truncation_exact :
    (∀ text, text.length ≤ 500 → truncate text = text) ∧
      (∀ text, 500 < text.length →
        (truncate text).toList = text.toList.take 500 ++ "...(truncated)".toList) ∧
      (∀ text, (cutPlace? text = none ↔ text.length ≤ 500) ∧
        ∀ place, cutPlace? text = some place → Divides text place) ∧
      (∀ text, (truncate text).length ≤ 514) ∧
      (∀ text, truncate (truncate text) = truncate text) ∧
      ∀ text text', 500 < text.length → 500 < text'.length →
        (truncate text = truncate text' ↔ text.toList.take 500 = text'.toList.take 500) := by
  refine ⟨fun text => truncate_of_le, fun text => toList_truncate, fun text => ?_,
    length_truncate_le, truncate_truncate, fun text text' => truncate_eq_iff⟩
  by_cases h : text.length ≤ limit
  · have hplace := cutPlace?_of_le h
    exact ⟨⟨fun _ => h, fun _ => hplace⟩, fun place hsome => by simp [hplace] at hsome⟩
  · have hlong := Nat.not_le.mp h
    have hplace := cutPlace?_of_lt hlong
    refine ⟨⟨fun hnone => by simp [hplace] at hnone, fun hshort => absurd hshort h⟩, ?_⟩
    intro place hsome
    obtain rfl := Option.some.inj (hplace.symm.trans hsome)
    exact divides_of_lt hlong

def wide : List Char := List.replicate 500 '错'

theorem truncation_exact_wide :
    cutPlace? (String.ofList (wide ++ ['a'])) = some 1500 ∧
      Divides (String.ofList (wide ++ ['a'])) 1500 ∧
      truncate (String.ofList (wide ++ ['a'])) = truncate (String.ofList (wide ++ ['b', 'c'])) := by
  have hwide : wide.length = 500 := List.length_replicate
  have hoctets : (Utf8.encode wide).length = 1500 := by
    rw [Utf8.encode, List.length_flatMap, wide, List.map_replicate, List.sum_replicate_nat]
    rfl
  have hlong (c : Char) (cs : List Char) : 500 < (String.ofList (wide ++ c :: cs)).length := by
    rw [String.length_ofList, List.length_append, hwide, List.length_cons]
    omega
  have hkept (cs : List Char) : (String.ofList (wide ++ cs)).toList.take 500 = wide := by
    rw [String.toList_ofList]
    exact List.take_left' hwide
  obtain ⟨-, -, hcut, -, -, hsame⟩ := truncation_exact
  have hplace : cutPlace? (String.ofList (wide ++ ['a'])) = some 1500 := by
    have hcutPlace := cutPlace?_of_lt (hlong 'a' [])
    rw [limit, hkept, hoctets] at hcutPlace
    exact hcutPlace
  refine ⟨hplace, (hcut _).2 _ hplace, (hsame _ _ (hlong 'a' []) (hlong 'b' ['c'])).mpr ?_⟩
  rw [hkept, hkept]

end Message

end EventRelay
