import ClearSign.Proofs.Atomicity
import ClearSign.Proofs.Canonical.Call
import ClearSign.Proofs.Canonical.Varint
import ClearSign.TypeTag.Encode

namespace ClearSign

namespace TypeTag

theorem Kind.length_encode (kind : Kind) : kind.encode.length = 1 := by
  cases kind <;> rfl

theorem Kind.ofTag?_eq_none_iff {tag : UInt32} : ofTag? tag = none ↔ 7 < tag.toNat := by
  constructor
  · intro unknown
    apply Nat.lt_of_not_le
    intro small
    have known : ∀ n ≤ 7, ofTag? (UInt32.ofNat n) ≠ none := by decide
    refine known tag.toNat small ?_
    rw [UInt32.ofNat_toNat, unknown]
  · intro large
    cases found : ofTag? tag with
    | none => rfl
    | some kind =>
      rw [eq_tag_of_ofTag? found] at large
      cases kind <;> exact absurd large (by decide)

/-- Why no kind is read. -/
inductive Kind.Refused : Bytes → DecodeError → Prop
  | varint (bs : Bytes) (e : DecodeError) (refused : Varint.Refused "type tag" bs e) : Refused bs e
  | unknown (tag : UInt32) (rest : Bytes) (large : 7 < tag.toNat) :
      Refused (Varint.encode tag ++ rest) (.invalidTypeTag tag)

theorem Kind.read_eq_error_iff {bs rest : Bytes} {e : DecodeError} :
    Kind.read bs = (.error e, rest) ↔ rest = bs ∧ Kind.Refused bs e := by
  rw [Kind.read, Read.atomically_eq_error_iff]
  refine and_congr_right fun _ => ⟨?_, ?_⟩
  · rintro ⟨left, failed⟩
    obtain failed | ⟨tag, mid, first, failed⟩ := Read.bind_eq_error_iff.mp failed
    · exact .varint bs e (Read.varint_eq_error_iff.mp failed).2
    · obtain ⟨-, spelled⟩ := (Read.varint_accepts _ bs tag mid).mp first
      cases found : ofTag? tag with
      | some kind =>
        rw [found] at failed
        cases failed
      | none =>
        rw [found] at failed
        cases failed
        rw [spelled]
        exact .unknown tag left (ofTag?_eq_none_iff.mp found)
  · intro refused
    cases refused with
    | varint _ _ refused =>
      exact ⟨bs, Read.bind_eq_error_iff.mpr (.inl (Read.varint_eq_error_iff.mpr ⟨rfl, refused⟩))⟩
    | unknown tag mid large =>
      refine ⟨mid, Read.bind_eq_error_iff.mpr (.inr ⟨tag, mid, Read.varint_encode _ _ _, ?_⟩)⟩
      rw [ofTag?_eq_none_iff.mpr large]
      rfl

namespace Value

theorem width?_kind (value : Value) : value.kind.width? = some value.encodeInner.length := by
  cases value with
  | bool b => rfl
  | u8 n => rfl
  | u64 n => rw [encodeInner, LittleEndian.length_toBytes, kind, Kind.width?]
  | u128 n => rw [encodeInner, LittleEndian.length_toBytes, kind, Kind.width?]
  | address a => rw [encodeInner, a.length_bytes, kind, Kind.width?]
  | signer a => rw [encodeInner, a.length_bytes, kind, Kind.width?]

theorem readInner_accepts (kind : Kind) :
    (readInner kind).Accepts (·.kind = kind) encodeInner := by
  cases kind with
  | bool =>
    exact (Read.bool_accepts _).map (fun _ _ => ⟨rfl, rfl⟩) fun
      | .bool b, _ => ⟨b, trivial, rfl⟩
  | u8 =>
    exact (Read.byte_accepts _).map (fun _ _ => ⟨rfl, rfl⟩) fun
      | .u8 n, _ => ⟨n, trivial, rfl⟩
  | u64 =>
    exact (Read.u64_accepts _).map (fun _ _ => ⟨rfl, rfl⟩) fun
      | .u64 n, _ => ⟨n, trivial, rfl⟩
  | u128 =>
    exact (Read.u128_accepts _).map (fun _ _ => ⟨rfl, rfl⟩) fun
      | .u128 n, _ => ⟨n, trivial, rfl⟩
  | address =>
    exact (Read.address_accepts _).map (fun _ _ => ⟨rfl, rfl⟩) fun
      | .address a, _ => ⟨a, trivial, rfl⟩
  | signer =>
    exact (Read.address_accepts _).map (fun _ _ => ⟨rfl, rfl⟩) fun
      | .signer a, _ => ⟨a, trivial, rfl⟩
  | vector =>
    rintro bs (_ | _ | _ | _ | _ | _) rest <;> simp [readInner, Value.kind]
  | struct =>
    rintro bs (_ | _ | _ | _ | _ | _) rest <;> simp [readInner, Value.kind]

theorem exists_of_block {kind : Kind} {block : Bytes} (wide : kind.width? = some block.length) :
    (∃ value : Value, value.kind = kind ∧ block = value.encodeInner) ∨
      kind = .bool ∧ ∃ b : UInt8, block = [b] ∧ b ≠ 0 ∧ b ≠ 1 := by
  cases kind with
  | bool =>
    obtain ⟨b, rfl⟩ := List.length_eq_one_iff.mp (Option.some.inj wide).symm
    by_cases zero : b = 0
    · exact .inl ⟨.bool false, rfl, by rw [zero]; rfl⟩
    · by_cases one : b = 1
      · exact .inl ⟨.bool true, rfl, by rw [one]; rfl⟩
      · exact .inr ⟨rfl, b, rfl, zero, one⟩
  | u8 =>
    obtain ⟨b, rfl⟩ := List.length_eq_one_iff.mp (Option.some.inj wide).symm
    exact .inl ⟨.u8 b, rfl, rfl⟩
  | u64 =>
    obtain ⟨n, rfl⟩ := LittleEndian.exists_u64 (Option.some.inj wide).symm
    exact .inl ⟨.u64 n, rfl, rfl⟩
  | u128 =>
    obtain ⟨n, rfl⟩ := LittleEndian.exists_u128 (Option.some.inj wide).symm
    exact .inl ⟨.u128 n, rfl, rfl⟩
  | address => exact .inl ⟨.address ⟨block, (Option.some.inj wide).symm⟩, rfl, rfl⟩
  | signer => exact .inl ⟨.signer ⟨block, (Option.some.inj wide).symm⟩, rfl, rfl⟩
  | vector => cases wide
  | struct => cases wide

/-- Why no value of a kind is read. -/
inductive Refused : Kind → Bytes → DecodeError → Prop
  | recursive (kind : Kind) (bs : Bytes) (unbounded : kind = .vector ∨ kind = .struct) :
      Refused kind bs (.unsupportedTypeTag kind)
  | ended (kind : Kind) (width : Nat) (bs : Bytes) (wide : kind.width? = some width)
      (short : bs.length < width) : Refused kind bs (.unexpectedEnd "type tag value")
  | neither (b : UInt8) (rest : Bytes) (nonzero : b ≠ 0) (other : b ≠ 1) :
      Refused .bool (b :: rest) (.invalidBool b)

theorem accepted_or_refused (kind : Kind) (bs : Bytes) :
    (∃ value rest, value.kind = kind ∧ bs = encodeInner value ++ rest) ∨
      ∃ e, Refused kind bs e := by
  cases wide : kind.width? with
  | none =>
    refine .inr ⟨_, .recursive kind bs ?_⟩
    cases kind with
    | vector => exact .inl rfl
    | struct => exact .inr rfl
    | _ => cases wide
  | some width =>
    by_cases enough : width ≤ bs.length
    · obtain ⟨block, rest, rfl, rfl⟩ := Bytes.exists_split enough
      obtain ⟨value, known, rfl⟩ | ⟨rfl, b, rfl, nonzero, other⟩ := exists_of_block wide
      · exact .inl ⟨value, rest, known, rfl⟩
      · exact .inr ⟨_, .neither b rest nonzero other⟩
    · exact .inr ⟨_, .ended kind width bs wide (Nat.lt_of_not_le enough)⟩

theorem read_of_short {kind : Kind} {width : Nat} {bs : Bytes} (wide : kind.width? = some width)
    (short : bs.length < width) :
    Value.read kind bs = (.error (.unexpectedEnd "type tag value"), bs) := by
  simp only [Value.read, wide]
  refine Read.atomically_of_error (?_ : _ = (Except.error _, bs))
  rw [Read.bind_apply, Read.bytes_short short]

theorem read_of_block_ok {kind : Kind} {block : Bytes} {value : Value}
    (wide : kind.width? = some block.length) (inner : (readInner kind block).1 = .ok value)
    (rest : Bytes) : Value.read kind (block ++ rest) = (.ok value, rest) := by
  simp only [Value.read, wide]
  apply Read.atomically_of_ok
  simp only [Read.bind_apply, Read.bytes_append, inner, Read.pure_apply]

theorem read_of_block_error {kind : Kind} {block : Bytes} {e : DecodeError}
    (wide : kind.width? = some block.length) (inner : (readInner kind block).1 = .error e)
    (rest : Bytes) : Value.read kind (block ++ rest) = (.error e, block ++ rest) := by
  simp only [Value.read, wide]
  refine Read.atomically_of_error (?_ : _ = (Except.error _, rest))
  simp only [Read.bind_apply, Read.bytes_append, inner, Read.fail_apply]

theorem read_encodeInner (value : Value) (rest : Bytes) :
    Value.read value.kind (value.encodeInner ++ rest) = (.ok value, rest) := by
  have inner : readInner value.kind value.encodeInner = (.ok value, []) :=
    (readInner_accepts _ _ _ _).mpr ⟨rfl, (List.append_nil _).symm⟩
  exact read_of_block_ok value.width?_kind (congrArg Prod.fst inner) rest

theorem fails_of_refused {kind : Kind} {bs : Bytes} {e : DecodeError}
    (refused : Refused kind bs e) : Value.read kind bs = (.error e, bs) := by
  cases refused with
  | recursive _ _ unbounded =>
    obtain rfl | rfl := unbounded
    · rfl
    · rfl
  | ended _ _ _ wide short => exact read_of_short wide short
  | neither b rest nonzero other =>
    have inner : readInner .bool [b] = (.error (.invalidBool b), [b]) :=
      Read.map_eq_error_iff.mpr (Read.bool_of_neither "bool value" nonzero other [])
    have wide : Kind.bool.width? = some [b].length := rfl
    exact read_of_block_error wide (congrArg Prod.fst inner) rest

theorem read_accepts (kind : Kind) : (Value.read kind).Accepts (·.kind = kind) encodeInner := by
  intro bs value rest
  constructor
  · intro read
    obtain ⟨other, tail, rfl, rfl⟩ | ⟨e, refused⟩ := accepted_or_refused kind bs
    · rw [read_encodeInner] at read
      cases read
      exact ⟨rfl, rfl⟩
    · rw [fails_of_refused refused] at read
      cases read
  · rintro ⟨rfl, rfl⟩
    exact read_encodeInner value rest

theorem read_eq_error_iff {kind : Kind} {bs rest : Bytes} {e : DecodeError} :
    Value.read kind bs = (.error e, rest) ↔ rest = bs ∧ Refused kind bs e := by
  constructor
  · intro failed
    obtain ⟨value, tail, rfl, rfl⟩ | ⟨e', refused⟩ := accepted_or_refused kind bs
    · rw [read_encodeInner] at failed
      cases failed
    · rw [fails_of_refused refused] at failed
      cases failed
      exact ⟨rfl, refused⟩
  · rintro ⟨rfl, refused⟩
    exact fails_of_refused refused

end Value

theorem read_accepts : TypeTag.read.Accepts (fun _ => True) Value.encode := by
  intro bs value rest
  simp only [TypeTag.read, Read.atomically_eq_ok_iff, Read.bind_eq_ok_iff,
    Kind.read_accepts _ _ _, Value.read_accepts _ _ _ _, true_and]
  constructor
  · rintro ⟨kind, mid, rfl, rfl, rfl⟩
    rw [Value.encode, List.append_assoc]
  · rintro rfl
    exact ⟨value.kind, _, List.append_assoc _ _ _, rfl, rfl⟩

theorem read_eq_error_iff {bs rest : Bytes} {e : DecodeError} :
    TypeTag.read bs = (.error e, rest) ↔ rest = bs ∧
      (Kind.Refused bs e ∨
        ∃ kind mid, bs = Kind.encode kind ++ mid ∧ Value.Refused kind mid e) := by
  rw [TypeTag.read, Read.atomically_eq_error_iff]
  refine and_congr_right fun _ => ?_
  simp only [Read.bind_eq_error_iff, Kind.read_eq_error_iff, Kind.read_accepts _ _ _,
    Value.read_eq_error_iff, true_and]
  constructor
  · rintro ⟨left, ⟨-, refused⟩ | ⟨kind, mid, spelled, -, refused⟩⟩
    · exact .inl refused
    · exact .inr ⟨kind, mid, spelled, refused⟩
  · rintro (refused | ⟨kind, mid, spelled, refused⟩)
    · exact ⟨bs, .inl ⟨rfl, refused⟩⟩
    · exact ⟨mid, .inr ⟨kind, mid, spelled, rfl, refused⟩⟩

end TypeTag

open TypeTag

/-- A value is read of just the bytes it is written with: one byte for its kind, and behind it as
many as the kind is wide. What is no value of the kind is refused as it is: a kind of no fixed
width whatever follows, a block that is too short before any of it is looked at, and a bool that is
neither of its values; a number that stands for no kind is refused too. No failure moves the
cursor. -/
theorem type_tags_are_read_exactly (c : Cursor) (inside : c.pos ≤ c.data.length) :
    (∀ value : Value, ∃ width, value.kind.width? = some width ∧
      value.encodeInner.length = width ∧ value.encode.length = 1 + width) ∧
    (∀ value stop, c.run TypeTag.read = (.ok value, stop) ↔
      value.encode <+: c.remaining ∧ stop = ⟨c.data, c.pos + value.encode.length⟩) ∧
    (∀ kind value stop, c.run (Value.read kind) = (.ok value, stop) ↔
      value.kind = kind ∧ value.encodeInner <+: c.remaining ∧
        stop = ⟨c.data, c.pos + value.encodeInner.length⟩) ∧
    (∀ kind e stop, c.run (Value.read kind) = (.error e, stop) ↔
      stop = c ∧ Value.Refused kind c.remaining e) ∧
    (∀ e stop, c.run Kind.read = (.error e, stop) ↔ stop = c ∧ Kind.Refused c.remaining e) ∧
    ∀ e stop, c.run TypeTag.read = (.error e, stop) ↔ stop = c ∧
      (Kind.Refused c.remaining e ∨
        ∃ kind rest, c.remaining = Kind.encode kind ++ rest ∧ Value.Refused kind rest e) := by
  have kind_atomic : Kind.read.Atomic := .atomically _
  have tag_atomic : TypeTag.read.Atomic := .atomically _
  refine ⟨?_, ?_, ?_, ?_, ?_, ?_⟩
  · intro value
    refine ⟨_, value.width?_kind, rfl, ?_⟩
    rw [Value.encode, List.length_append, Kind.length_encode]
  · intro value stop
    rw [Cursor.run_eq_ok_iff_spelled TypeTag.read_accepts inside, true_and]
  · intro kind value stop
    exact Cursor.run_eq_ok_iff_spelled (Value.read_accepts kind) inside
  · intro kind e stop
    rw [Cursor.run_eq_error_iff inside (Value.read_atomic kind), Value.read_eq_error_iff, eq_self,
      true_and]
  · intro e stop
    rw [Cursor.run_eq_error_iff inside kind_atomic, Kind.read_eq_error_iff, eq_self, true_and]
  · intro e stop
    rw [Cursor.run_eq_error_iff inside tag_atomic, TypeTag.read_eq_error_iff, eq_self, true_and]

/-- A number between two bytes, a vector where there are no bytes at all, a number whose last byte
is missing, a bool that is neither, and a kind that there is not. -/
theorem type_tags_are_read_exactly_u64 :
    (Cursor.mk [0xFF, 2, 42, 0, 0, 0, 0, 0, 0, 0, 7] 1).run TypeTag.read =
        (.ok (.u64 42), ⟨[0xFF, 2, 42, 0, 0, 0, 0, 0, 0, 0, 7], 10⟩) ∧
      (Cursor.start []).run (Value.read .vector) =
        (.error (.unsupportedTypeTag .vector), Cursor.start []) ∧
      (Cursor.start (List.replicate 15 2)).run (Value.read .u128) =
        (.error (.unexpectedEnd "type tag value"), Cursor.start (List.replicate 15 2)) ∧
      (Cursor.start [0, 2]).run TypeTag.read = (.error (.invalidBool 2), Cursor.start [0, 2]) ∧
      (Cursor.start [8]).run Kind.read = (.error (.invalidTypeTag 8), Cursor.start [8]) := by
  have number := type_tags_are_read_exactly ⟨[0xFF, 2, 42, 0, 0, 0, 0, 0, 0, 0, 7], 1⟩ (by decide)
  have empty := type_tags_are_read_exactly (Cursor.start []) (by decide)
  have short := type_tags_are_read_exactly (Cursor.start (List.replicate 15 2)) (by decide)
  have neither := type_tags_are_read_exactly (Cursor.start [0, 2]) (by decide)
  have unknown := type_tags_are_read_exactly (Cursor.start [8]) (by decide)
  refine ⟨(number.2.1 _ _).mpr ⟨by decide, rfl⟩,
    (empty.2.2.2.1 _ _ _).mpr ⟨rfl, .recursive _ _ (.inl rfl)⟩,
    (short.2.2.2.1 _ _ _).mpr ⟨rfl, .ended _ 16 _ rfl (by decide)⟩,
    (neither.2.2.2.2.2 _ _).mpr ⟨rfl, .inr ⟨.bool, [2], rfl, ?_⟩⟩,
    (unknown.2.2.2.2.1 _ _).mpr ⟨rfl, .unknown 8 [] (by decide)⟩⟩
  exact .neither 2 [] (by decide) (by decide)

end ClearSign
