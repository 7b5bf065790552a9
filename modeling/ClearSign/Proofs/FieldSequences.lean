import ClearSign.Proofs.Canonical.Cursor
import ClearSign.Proofs.Canonical.Field

namespace ClearSign

def Field.encodeAll (fields : List Field) : Bytes :=
  fields.flatMap Field.encode

def Cursor.readFields : List (Shape × String) → Cursor → Except DecodeError (List Field × Cursor)
  | [], c => return ([], c)
  | (shape, context) :: shapes, c => do
    let (field, c) ← c.read (shape.read context)
    let (fields, c) ← readFields shapes c
    return (field :: fields, c)

namespace Cursor

theorem readFields_cons_eq_ok_iff {shape : Shape} {context : String}
    {shapes : List (Shape × String)} {before after : Bytes} {fields : List Field} {c : Cursor} :
    readFields ((shape, context) :: shapes) (between before after) = .ok (fields, c) ↔
      ∃ field tail rest, fields = field :: tail ∧ field.Fits shape ∧ after = field.encode ++ rest ∧
        readFields shapes (between (before ++ field.encode) rest) = .ok (tail, c) := by
  simp only [readFields, Except.bind_eq_ok_iff, Prod.exists, read_eq_ok_iff (shape.read_accepts _)]
  constructor
  · intro read
    obtain ⟨field, _, ⟨fits, rest, rfl, rfl⟩, tail, c', read, done⟩ := read
    cases done
    exact ⟨field, tail, rest, rfl, fits, rfl, read⟩
  · intro spelled
    obtain ⟨field, tail, rest, rfl, fits, rfl, read⟩ := spelled
    exact ⟨field, _, ⟨fits, rest, rfl, rfl⟩, tail, c, read, rfl⟩

theorem readFields_eq_ok_iff {shapes : List (Shape × String)} {before after : Bytes}
    {fields : List Field} {c : Cursor} :
    readFields shapes (between before after) = .ok (fields, c) ↔
      List.Forall₂ (fun field shape => field.Fits shape.1) fields shapes ∧
        ∃ rest, after = Field.encodeAll fields ++ rest ∧
          c = between (before ++ Field.encodeAll fields) rest := by
  induction shapes generalizing before after fields with
  | nil =>
    constructor
    · intro read
      cases read
      exact ⟨.nil, after, rfl, by simp [Field.encodeAll]⟩
    · rintro ⟨⟨⟩, rest, rfl, rfl⟩
      simp [readFields, Field.encodeAll]
      rfl
  | cons shape shapes ih =>
    obtain ⟨shape, context⟩ := shape
    simp only [readFields_cons_eq_ok_iff, ih]
    constructor
    · rintro ⟨field, tail, _, rfl, fits, rfl, others, rest, rfl, rfl⟩
      exact ⟨.cons fits others, rest, by simp [Field.encodeAll], by simp [Field.encodeAll]⟩
    · rintro ⟨fits, rest, rfl, rfl⟩
      cases fits with
      | @cons field _ tail _ fits others =>
        exact ⟨field, tail, Field.encodeAll tail ++ rest, rfl, fits, by simp [Field.encodeAll],
          others, rest, rfl, by simp [Field.encodeAll]⟩

theorem isEmpty_between (before after : Bytes) :
    (between before after).isEmpty = after.isEmpty := by
  cases after <;> simp [isEmpty]

theorem startAt_eq_ok_iff {data : Bytes} {pos : Nat} {context : String} {c : Cursor} :
    startAt data pos context = .ok c ↔
      ∃ before after, data = before ++ after ∧ pos = before.length ∧ c = between before after := by
  constructor
  · intro started
    unfold startAt at started
    split at started
    · next inside =>
      cases started
      obtain ⟨before, after, rfl, rfl⟩ := Bytes.exists_split inside
      exact ⟨before, after, rfl, rfl, rfl⟩
    · cases started
  · rintro ⟨before, after, rfl, rfl, rfl⟩
    exact startAt_append before after context

end Cursor

theorem Field.shapes_of_fits {fields : List Field} {shapes : List (Shape × String)}
    (fits : List.Forall₂ (fun field shape => field.Fits shape.1) fields shapes) :
    fields.map Field.shape = shapes.map Prod.fst := by
  induction fits with
  | nil => rfl
  | cons fits _ ih => rw [List.map_cons, List.map_cons, fits.1, ih]

/-- Typed reads and writes undo each other over whole sequences. Fields that are written are read
again between any bytes, up to where what follows them starts; what is read of any buffer is written
as the bytes between where the reads started and where they ended; and signed numbers are written in
two's complement. -/
theorem field_sequences_round_trip :
    (∀ (items : List (Field × String)) (before after : Bytes) (context : String),
      (∀ item ∈ items, item.1.Bounded) →
        ∃ c c', Cursor.startAt (before ++ (Field.encodeAll (items.map Prod.fst) ++ after))
            before.length context = .ok c ∧
          Cursor.readFields (items.map fun item => (item.1.shape, item.2)) c =
            .ok (items.map Prod.fst, c') ∧
          c'.remaining = after ∧ c'.isEmpty = after.isEmpty) ∧
    (∀ (data : Bytes) (pos : Nat) (context : String) (shapes : List (Shape × String))
      (fields : List Field) (c c' : Cursor), Cursor.startAt data pos context = .ok c →
        Cursor.readFields shapes c = .ok (fields, c') →
          fields.map Field.shape = shapes.map Prod.fst ∧ c'.data = data ∧ pos ≤ c'.pos ∧
            c'.pos ≤ data.length ∧ Field.encodeAll fields = (data.drop pos).take (c'.pos - pos)) ∧
    ∀ (field : Field) (width : Nat) (n : Int), field.signed? = some (width, n) →
      field.encode = LittleEndian.toBytes width (n % 256 ^ width).toNat := by
  refine ⟨?_, ?_, ?_⟩
  · intro items before after context bounded
    have fits : List.Forall₂ (fun field shape => field.Fits shape.1) (items.map Prod.fst)
        (items.map fun item => (item.1.shape, item.2)) := by
      rw [List.forall₂_map_left_iff, List.forall₂_map_right_iff, List.forall₂_same]
      intro item member
      exact ⟨rfl, bounded item member⟩
    refine ⟨_, _, Cursor.startAt_append _ _ context,
      Cursor.readFields_eq_ok_iff.mpr ⟨fits, after, rfl, rfl⟩, ?_, ?_⟩
    · exact Cursor.remaining_between _ after
    · exact Cursor.isEmpty_between _ after
  · intro data pos context shapes fields c c' started read
    obtain ⟨before, after, rfl, rfl, rfl⟩ := Cursor.startAt_eq_ok_iff.mp started
    obtain ⟨fits, rest, rfl, rfl⟩ := Cursor.readFields_eq_ok_iff.mp read
    exact ⟨Field.shapes_of_fits fits, by simp, by simp, by simp, by simp⟩
  · intro field width n signed
    exact Field.encode_of_signed signed

/-- Five fields between two bytes that belong to none of them. -/
theorem field_sequences_round_trip_mixed :
    ∃ c c', Cursor.startAt [0xff, 0x34, 0x12, 0xac, 0x02, 0x01, 0x02, 0x61, 0x62, 0x80, 0x07] 1
        "item" = .ok c ∧
      Cursor.readFields [(.u16, "port"), (.varint, "count"), (.bool, "flag"), (.prefixed, "name"),
        (.i8, "shift")] c =
          .ok ([.u16 0x1234, .varint 300, .bool true, .prefixed [0x61, 0x62], .i8 (-128)], c') ∧
      c'.isEmpty = false ∧ Field.encodeAll [.u16 0x1234, .varint 300, .bool true,
        .prefixed [0x61, 0x62], .i8 (-128)] = [0x34, 0x12, 0xac, 0x02, 0x01, 0x02, 0x61, 0x62,
          0x80, 0x07].take (c'.pos - 1) := by
  obtain ⟨c, c', started, read, -, more⟩ := field_sequences_round_trip.1
    [(.u16 0x1234, "port"), (.varint 300, "count"), (.bool true, "flag"),
      (.prefixed [0x61, 0x62], "name"), (.i8 (-128), "shift")] [0xff] [0x07] "item"
    (by simp [Field.Bounded, Bytes.Bounded, Limits.sequenceLength])
  exact ⟨c, c', started, read, more,
    (field_sequences_round_trip.2.1 _ _ _ _ _ _ _ started read).2.2.2.2⟩

end ClearSign
