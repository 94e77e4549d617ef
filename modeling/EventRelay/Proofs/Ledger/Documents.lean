import EventRelay.Event.Document
import EventRelay.Ledger.Document
import EventRelay.Proofs.Json.Accepted
import EventRelay.Proofs.Json.Readers
import EventRelay.Proofs.Time.Regularity

/-!
# Records and events read back

Nothing of a record is lost in its document: texts may hold any characters, the payload any octets,
numbers go up to the ends of their widths and times to the ends of their range.  Times alone may
change, those in a leap second that is not the last second of its minute: they are written like the
second after it, and read as such (`Record.settled`).  So a record is read back as it is exactly if it
has no such times.  The same holds of an event.  Its payload lies inside the document, and so it may
have one array or object less open at once than a payload that is read alone.  Events with deeper ones
are written, and refused when they are read (`documents_read_back`).

No document gives such times: what was read is read back as it is, however the document was written
(`Record.yields_regular`, `Event.yields_regular`).
-/

namespace EventRelay

open Json.Reader

/-! ### Fields -/

section Fields

variable {room : Nat}

theorem Instant.restores (hroom : 0 < room) {t : Instant} (ht : t.InRange) :
    Instant.reader.Restores room t.toJson t.settled := by
  refine restores_textWith hroom ?_
  rw [Instant.ofText_write_eq ht]
  rfl

theorem Instant.yields_reader : Instant.reader.Yields Instant.Regular := by
  refine yields_textWith fun s t haccept => ?_
  cases hread : Instant.ofText s with
  | error fault =>
    rw [hread] at haccept
    cases haccept
  | ok t' =>
    rw [hread] at haccept
    cases haccept
    exact Instant.regular_of_ofText hread

theorem Action.restores (hroom : 0 < room) (a : Action) :
    (choice Action.alternatives).Restores room (.text a.name) a :=
  restores_choice hroom (by cases a <;> decide)

theorem Status.restores (hroom : 0 < room) (s : Status) :
    (choice Status.alternatives).Restores room (.text s.name) s :=
  restores_choice hroom (by cases s <;> decide)

theorem Record.restores_signed (hroom : 0 < room) {i : Int}
    (hi : leastInt64 ≤ i ∧ i ≤ greatestInt64) : signed.Restores room (.integer i) i :=
  restores_integer hroom hi.1 hi.2 (Int.le_refl _) (by decide)

theorem restores_count (hroom : 0 < room) {n : Nat} (hn : n ≤ greatestNat32) :
    (unsigned "u32" 32).Restores room (.integer n) n :=
  restores_unsigned hroom (by decide) (Nat.lt_succ_of_le hn)

theorem yields_count : (unsigned "u32" 32).Yields (· ≤ greatestNat32) :=
  fun room bs n rest hread => Nat.le_of_lt_succ (yields_unsigned room bs n rest hread)

theorem Record.restores_octets (hroom : 1 < room) (bs : Bytes) :
    octets.Restores room (.array (bs.map fun b => .integer b.toNat)) bs := by
  refine restores_sequence hroom fun b _ => ⟨trivial, ?_⟩
  have hoctet : (unsigned "u8" 8).Restores (room - 1) (.integer b.toNat) b.toNat :=
    restores_unsigned (by omega) (by decide) b.toNat_lt
  have hread := hoctet.map UInt8.ofNat
  rw [UInt8.ofNat_toNat] at hread
  exact hread

end Fields

/-! ### Records -/

namespace Record

/-- The numbers of a record fit into their widths, and its times lie in the range. -/
structure Fits (r : Record) : Prop where
  id : leastInt64 ≤ r.id ∧ r.id ≤ greatestInt64
  retryTimes : r.retryTimes ≤ greatestNat32
  maxRetryTimes : r.maxRetryTimes ≤ greatestNat32
  nextRetryTime : ∀ t ∈ r.nextRetryTime, t.InRange
  version : leastInt64 ≤ r.version ∧ r.version ≤ greatestInt64
  deleteMarker : leastInt64 ≤ r.deleteMarker ∧ r.deleteMarker ≤ greatestInt64
  createTime : r.createTime.InRange
  updateTime : r.updateTime.InRange

/-- Besides, each of its times that lies in a leap second lies in the last second of a minute. -/
structure Regular (r : Record) : Prop extends Fits r where
  nextRetryRegular : ∀ t ∈ r.nextRetryTime, t.Regular
  createRegular : r.createTime.Regular
  updateRegular : r.updateTime.Regular

/-- The record with the times that are read back. -/
def settled (r : Record) : Record :=
  { r with
    nextRetryTime := r.nextRetryTime.map Instant.settled
    createTime := r.createTime.settled
    updateTime := r.updateTime.settled }

theorem settled_eq_self_iff {r : Record} (h : r.Fits) : r.settled = r ↔ r.Regular := by
  constructor
  · intro hsame
    have hnext : r.nextRetryTime.map Instant.settled = r.nextRetryTime :=
      congrArg Record.nextRetryTime hsame
    refine { h with
      nextRetryRegular := fun t ht => ?_
      createRegular := (Instant.settled_eq_self_iff h.createTime).mp (congrArg createTime hsame)
      updateRegular := (Instant.settled_eq_self_iff h.updateTime).mp (congrArg updateTime hsame) }
    rw [Option.mem_def] at ht
    rw [ht, Option.map_some, Option.some.injEq] at hnext
    exact (Instant.settled_eq_self_iff (h.nextRetryTime t ht)).mp hnext
  · intro hregular
    have hnext : r.nextRetryTime.map Instant.settled = r.nextRetryTime := by
      cases ht : r.nextRetryTime with
      | none => rfl
      | some t => exact congrArg some (hregular.nextRetryRegular t ht).settled
    rw [settled, hnext, hregular.createRegular.settled, hregular.updateRegular.settled]

theorem ofString_toText (r : Record) :
    Bytes.ofString r.toText = (Json.object r.toMembers).toBytes := by
  rw [Bytes.ofString, toText, String.toList_ofList, Json.toBytes, Json.write]

theorem written_toMembers {r : Record} (h : r.Fits) {room : Nat} (hroom : 1 < room) :
    Shape.Written room shape.fields r.toMembers shape.start r.settled := by
  have hopen : 0 < room := by omega
  have hpayload (bs : Bytes) : (Json.array (bs.map fun b => .integer b.toNat)).FloatFree :=
    itemsFloatFree_map fun _ _ => trivial
  exact .field (restores_signed hopen h.id) <|
    .field (restores_string hopen r.eventId) <|
    .field (Action.restores hopen r.action) <|
    .field (restores_string hopen r.ownerGroup) <|
    .field (restores_string hopen r.ownerName) <|
    .field (restores_string hopen r.eventType) <|
    .field (Status.restores hopen r.status) <|
    .field (restores_elim fun bs _ => ⟨hpayload bs, nofun, restores_octets hroom bs⟩) <|
    .field (restores_elim fun s _ => ⟨trivial, nofun, restores_string hopen s⟩) <|
    .field (restores_count hopen h.retryTimes) <|
    .field (restores_count hopen h.maxRetryTimes) <|
    .field (restores_elim_map fun t ht =>
      ⟨trivial, nofun, Instant.restores hopen (h.nextRetryTime t ht)⟩) <|
    .field (restores_signed hopen h.version) <|
    .field (restores_signed hopen h.deleteMarker) <|
    .field (Instant.restores hopen h.createTime) <|
    .field (Instant.restores hopen h.updateTime) <|
    .nil r.settled

/-- **A record is read back** from its document. -/
theorem parse_toText {r : Record} (h : r.Fits) :
    reader.parse (Bytes.ofString r.toText) = .ok r.settled := by
  have hread : reader.Restores Json.depthLimit (.object r.toMembers) r.settled :=
    Shape.restores_object (by decide) (by decide) (written_toMembers h (by decide))
  rw [ofString_toText]
  exact hread.parse

theorem yields_regular : reader.Yields Regular := by
  have hblank : blank.Regular :=
    { id := by decide
      retryTimes := by decide
      maxRetryTimes := by decide
      nextRetryTime := nofun
      version := by decide
      deleteMarker := by decide
      createTime := by decide
      updateTime := by decide
      nextRetryRegular := nofun
      createRegular := ⟨by decide, by decide⟩
      updateRegular := ⟨by decide, by decide⟩ }
  have hkept {α : Type} {r : Json.Reader α} {name : String} {set : α → Record → Record}
      {required : Bool} (hset : ∀ a record, Regular record → Regular (set a record)) :
      (field name r set required).Keeps Regular :=
    (yields_of_all fun _ => trivial : r.Yields fun _ => True).keeps fun a _ => hset a
  refine Shape.yields_reader hblank ?_
  simp only [shape, List.forall_mem_cons]
  exact ⟨yields_integer.keeps fun _ hi _ h => { h with id := hi },
    hkept fun _ _ h => { h with }, hkept fun _ _ h => { h with }, hkept fun _ _ h => { h with },
    hkept fun _ _ h => { h with }, hkept fun _ _ h => { h with }, hkept fun _ _ h => { h with },
    hkept fun _ _ h => { h with }, hkept fun _ _ h => { h with },
    yields_count.keeps fun _ hn _ h => { h with retryTimes := hn },
    yields_count.keeps fun _ hn _ h => { h with maxRetryTimes := hn },
    (yields_optional Instant.yields_reader).keeps fun _ ht _ h =>
      { h with nextRetryTime := fun t hmem => (ht t hmem).inRange, nextRetryRegular := ht },
    yields_integer.keeps fun _ hi _ h => { h with version := hi },
    yields_integer.keeps fun _ hi _ h => { h with deleteMarker := hi },
    Instant.yields_reader.keeps fun _ ht _ h =>
      { h with createTime := ht.inRange, createRegular := ht },
    Instant.yields_reader.keeps fun _ ht _ h =>
      { h with updateTime := ht.inRange, updateRegular := ht }, nofun⟩

end Record

/-! ### Events -/

namespace Event

/-- The limit on retries fits into its width, the time lies in the range, and the payload is as it is
kept in memory. -/
structure Fits (e : Event) : Prop where
  payload : e.payload.Canonical
  occurredOn : e.occurredOn.InRange
  maxRetryOverride : ∀ n ∈ e.maxRetryOverride, n ≤ greatestNat32

/-- Besides, if the time lies in a leap second, that is the last second of a minute. -/
structure Regular (e : Event) : Prop extends Fits e where
  occurredRegular : e.occurredOn.Regular

def settled (e : Event) : Event :=
  { e with occurredOn := e.occurredOn.settled }

theorem settled_eq_self_iff {e : Event} (h : e.Fits) : e.settled = e ↔ e.Regular := by
  constructor
  · intro hsame
    have htime : e.occurredOn.settled = e.occurredOn := congrArg occurredOn hsame
    exact { h with occurredRegular := (Instant.settled_eq_self_iff h.occurredOn).mp htime }
  · intro hregular
    rw [settled, hregular.occurredRegular.settled]

theorem ofString_toText (e : Event) :
    Bytes.ofString e.toText = (Json.object e.toMembers).toBytes := by
  rw [Bytes.ofString, toText, String.toList_ofList, Json.toBytes, Json.write]

theorem yields_regular : reader.Yields Regular := by
  have hblank : shape.start.Regular :=
    { payload := trivial
      occurredOn := by decide
      maxRetryOverride := nofun
      occurredRegular := ⟨by decide, by decide⟩ }
  have hany : string.Yields fun _ => True := yields_of_all fun _ => trivial
  refine Shape.yields_reader hblank ?_
  simp only [shape, List.forall_mem_cons]
  exact ⟨hany.keeps fun _ _ _ h => { h with }, hany.keeps fun _ _ _ h => { h with },
    yields_json.keeps fun _ hv _ h => { h with payload := hv },
    Instant.yields_reader.keeps fun _ ht _ h =>
      { h with occurredOn := ht.inRange, occurredRegular := ht },
    (yields_optional yields_count).keeps fun _ hn _ h => { h with maxRetryOverride := hn }, nofun⟩

theorem written_toMembers {e : Event} (h : e.Fits) (hfree : e.payload.FloatFree) {room : Nat}
    (hdepth : e.payload.depth < room) :
    Shape.Written room shape.fields e.toMembers shape.start e.settled := by
  have hopen : 0 < room := by omega
  exact .field (restores_string hopen e.id) <|
    .field (restores_string hopen e.eventType) <|
    .field (restores_json h.payload hfree hdepth) <|
    .field (Instant.restores hopen h.occurredOn) <|
    .field (restores_elim fun n hn =>
      ⟨trivial, nofun, restores_count hopen (h.maxRetryOverride n hn)⟩) <|
    .nil e.settled

theorem names_nodup : (shape.fields.map Field.name).Nodup := by decide

/-- **An event is read back** from its document if its payload is not too deep. -/
theorem parse_toText {e : Event} (h : e.Fits) (hfree : e.payload.FloatFree)
    (hdepth : e.payload.depth ≤ 126) : reader.parse (Bytes.ofString e.toText) = .ok e.settled := by
  have hread : reader.Restores Json.depthLimit (.object e.toMembers) e.settled :=
    Shape.restores_object names_nodup (by decide) (written_toMembers h hfree (Nat.lt_succ_of_le hdepth))
  rw [ofString_toText]
  exact hread.parse

/-- **It is refused** if its payload is too deep. -/
theorem parse_toText_of_deep {e : Event} (h : e.Fits) (hfree : e.payload.FloatFree)
    (hdeep : 126 < e.payload.depth) :
    ∃ fault, reader.parse (Bytes.ofString e.toText) = .error fault := by
  have hfront : Shape.Written 127 (shape.fields.take 2) (e.toMembers.take 2) shape.start
      ⟨e.id, e.eventType, .null, ⟨0, 0⟩, none⟩ :=
    .field (restores_string (by decide) e.id) <|
      .field (restores_string (by decide) e.eventType) <| .nil _
  have hpayload : json.Refuses 127 e.payload := refuses_json h.payload hfree (by decide) hdeep
  have hfields : shape.fields = shape.fields.take 2 ++
      field "payload" json (fun v e => { e with payload := v }) true :: shape.fields.drop 3 := rfl
  have hread : reader.Refuses Json.depthLimit
      (.object (e.toMembers.take 2 ++ ("payload", e.payload) :: e.toMembers.drop 3)) :=
    Shape.refuses_object hfields names_nodup (by decide) hfront (hpayload.field _ _ _) _
  rw [ofString_toText]
  exact hread.parse

end Event

/-- **Records and events are read back from their documents**, records always and events exactly if no
more than 126 arrays and objects are open at once in their payloads.  Times in a leap second that is
not the last second of its minute come back as times in the second after it, and so what has such
times comes back changed.  Everything else comes back as it is; so does whatever was read from a
document before. -/
theorem documents_read_back :
    (∀ r : Record, r.Fits →
      Record.reader.parse (Bytes.ofString r.toText) = .ok r.settled ∧ (r.settled = r ↔ r.Regular)) ∧
      (∀ e : Event, e.Fits → e.payload.FloatFree →
        (Event.reader.parse (Bytes.ofString e.toText) = .ok e.settled ↔ e.payload.depth ≤ 126) ∧
          (e.settled = e ↔ e.Regular)) ∧
      (∀ bs r, Record.reader.parse bs = .ok r → r.Regular) ∧
      ∀ bs e, Event.reader.parse bs = .ok e → e.Regular := by
  refine ⟨fun r h => ⟨Record.parse_toText h, Record.settled_eq_self_iff h⟩, fun e h hfree => ?_,
    fun _ _ => Record.yields_regular.parse, fun _ _ => Event.yields_regular.parse⟩
  refine ⟨⟨fun hread => ?_, Event.parse_toText h hfree⟩, Event.settled_eq_self_iff h⟩
  refine Nat.le_of_not_lt fun hdeep => ?_
  obtain ⟨fault, hrefused⟩ := Event.parse_toText_of_deep h hfree hdeep
  rw [hrefused] at hread
  cases hread

/-- A record with numbers at the ends of their widths, a time in each of the outermost years and one
before the year zero, a payload that is no text, and texts that are empty or need escapes. -/
def Record.extreme : Record :=
  { id := leastInt64, eventId := "\u0000\"\\ é 😀", action := .publish, ownerGroup := ""
    ownerName := "\n", eventType := "order.paid", status := .failed, payload := some [0, 128, 255]
    message := some "", retryTimes := greatestNat32, maxRetryTimes := 0
    nextRetryTime := some ⟨Instant.greatest.second, 2 * Duration.perSecond - 1⟩
    version := greatestInt64, deleteMarker := -1, createTime := Instant.least
    updateTime := ⟨-62167219201, 1000⟩ }

def Event.leaping (payload : Json) : Event :=
  ⟨"e-1", "order.paid", payload, ⟨59, 1500000000⟩, some greatestNat32⟩

theorem Record.regular_extreme : extreme.Regular := by
  have hnext : ∀ t ∈ extreme.nextRetryTime, t.Regular := by
    rintro t ht
    obtain rfl := Option.some.inj ht
    exact ⟨by decide, fun _ => by decide⟩
  exact {
    id := by decide
    retryTimes := by decide
    maxRetryTimes := by decide
    nextRetryTime := fun t ht => (hnext t ht).inRange
    version := by decide
    deleteMarker := by decide
    createTime := by decide
    updateTime := by decide
    nextRetryRegular := hnext
    createRegular := ⟨by decide, fun h => absurd h (by decide)⟩
    updateRegular := ⟨by decide, fun h => absurd h (by decide)⟩ }

theorem Event.regular_leaping (n : Nat) : (leaping (.nested n)).Regular := by
  have hleap : Instant.Regular ⟨59, 1500000000⟩ := ⟨by decide, fun _ => by decide⟩
  exact {
    payload := Json.canonical_nested n
    occurredOn := hleap.inRange
    maxRetryOverride := fun _ hn => Nat.le_of_eq (Option.some.inj hn).symm
    occurredRegular := hleap }

theorem documents_read_back_extreme :
    Record.reader.parse (Bytes.ofString Record.extreme.toText) = .ok Record.extreme ∧
      Event.reader.parse (Bytes.ofString (Event.leaping (.nested 126)).toText) =
        .ok (Event.leaping (.nested 126)) ∧
      Event.reader.parse (Bytes.ofString (Event.leaping (.nested 127)).toText) ≠
        .ok (Event.leaping (.nested 127)) := by
  obtain ⟨hrecords, hevents, -⟩ := documents_read_back
  obtain ⟨hrecord, hsame⟩ := hrecords _ Record.regular_extreme.toFits
  have hdepth (n : Nat) : (Event.leaping (.nested n)).payload.depth = n := Json.depth_nested n
  have hread (n : Nat) : Event.reader.parse (Bytes.ofString (Event.leaping (.nested n)).toText) =
      .ok (Event.leaping (.nested n)) ↔ n ≤ 126 := by
    obtain ⟨hparse, hkept⟩ :=
      hevents _ (Event.regular_leaping n).toFits (Json.floatFree_nested n)
    rw [hkept.mpr (Event.regular_leaping n)] at hparse
    exact hparse.trans (by rw [hdepth])
  refine ⟨?_, (hread 126).mpr (Nat.le_refl 126), fun h => ?_⟩
  · rwa [hsame.mpr Record.regular_extreme] at hrecord
  · exact absurd ((hread 127).mp h) (by decide)

/-- A record that was made in a leap second in the middle of a minute. -/
def Record.misplaced : Record :=
  { Record.blank with createTime := ⟨4, 1333333333⟩ }

/-- It fits, and it is read back as one that was made a second later. -/
theorem misplaced_not_read_back :
    Record.misplaced.Fits ∧
      Record.reader.parse (Bytes.ofString Record.misplaced.toText) =
        .ok { Record.misplaced with createTime := ⟨5, 333333333⟩ } ∧
      Record.reader.parse (Bytes.ofString Record.misplaced.toText) ≠ .ok Record.misplaced := by
  have hfits : Record.misplaced.Fits :=
    { id := by decide
      retryTimes := by decide
      maxRetryTimes := by decide
      nextRetryTime := nofun
      version := by decide
      deleteMarker := by decide
      createTime := by decide
      updateTime := by decide }
  have hread := Record.parse_toText hfits
  have hsettled : Record.misplaced.settled =
      { Record.misplaced with createTime := ⟨5, 333333333⟩ } := by decide
  rw [hsettled] at hread
  refine ⟨hfits, hread, fun hsame => ?_⟩
  have htime := congrArg Record.createTime (Except.ok.inj (hread.symm.trans hsame))
  exact absurd htime (by decide)

end EventRelay
