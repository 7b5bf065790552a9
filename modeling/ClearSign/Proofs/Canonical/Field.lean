import ClearSign.Proofs.Canonical.Wire
import ClearSign.Wire.Field

namespace ClearSign

/-- A byte string behind its length is no longer than a length may say. -/
def Field.Bounded : Field → Prop
  | .prefixed value => value.Bounded
  | _ => True

/-- What a read of the shape can answer with. -/
def Field.Fits (shape : Shape) (field : Field) : Prop :=
  field.shape = shape ∧ field.Bounded

theorem LittleEndian.toBytes_toInt {width : Nat} (word : BitVec (8 * width)) :
    toBytes width (word.toInt % 256 ^ width).toNat = toBytes width word.toNat := by
  have modulus : (256 : Int) ^ width = ((2 ^ (8 * width) : Nat) : Int) := by
    rw [pow_mul]
    norm_num
  have value : (word.toInt % 256 ^ width).toNat = word.toNat := by
    rw [BitVec.toInt_eq_toNat_bmod, modulus, Int.bmod_emod, ← Int.natCast_emod, Int.toNat_natCast,
      Nat.mod_eq_of_lt word.isLt]
  rw [value]

/-- Width and value of a field that holds a signed number. -/
def Field.signed? : Field → Option (Nat × Int)
  | .i8 value => some (1, value.toInt)
  | .i16 value => some (2, value.toInt)
  | .i32 value => some (4, value.toInt)
  | .i64 value => some (8, value.toInt)
  | .i128 value => some (16, value.toInt)
  | _ => none

theorem Field.encode_of_signed {field : Field} {width : Nat} {n : Int}
    (signed : field.signed? = some (width, n)) :
    field.encode = LittleEndian.toBytes width (n % 256 ^ width).toNat := by
  cases field <;> cases signed
  case i8 value =>
    have byte : LittleEndian.toBytes 1 value.toBitVec.toNat = [value.toUInt8] := by
      change [UInt8.ofNat (value.toUInt8.toNat % 256)] = _
      rw [Nat.mod_eq_of_lt value.toUInt8.toNat_lt, UInt8.ofNat_toNat]
    exact ((@LittleEndian.toBytes_toInt 1 value.toBitVec).trans byte).symm
  case i16 value => exact (@LittleEndian.toBytes_toInt 2 value.toBitVec).symm
  case i32 value => exact (@LittleEndian.toBytes_toInt 4 value.toBitVec).symm
  case i64 value => exact (@LittleEndian.toBytes_toInt 8 value.toBitVec).symm
  case i128 value => exact (@LittleEndian.toBytes_toInt 16 value).symm

namespace Shape

theorem accepts_of_all {r : Read α} {encode : α → Bytes} {shape : Shape} (make : α → Field)
    (accepts : r.Accepts (fun _ => True) encode)
    (into : ∀ a, (make a).Fits shape ∧ (make a).encode = encode a)
    (onto : ∀ field : Field, field.shape = shape → ∃ a, make a = field) :
    (make <$> r).Accepts (·.Fits shape) Field.encode := by
  apply accepts.map
  · intro a _
    exact into a
  · intro field fits
    obtain ⟨a, made⟩ := onto field fits.1
    exact ⟨a, trivial, made⟩

theorem read_accepts (context : String) (shape : Shape) :
    (shape.read context).Accepts (·.Fits shape) Field.encode := by
  cases shape with
  | u8 =>
    exact accepts_of_all .u8 (Read.byte_accepts context) (fun _ => ⟨⟨rfl, trivial⟩, rfl⟩)
      fun | .u8 value, _ => ⟨value, rfl⟩
  | u16 =>
    exact accepts_of_all .u16 (Read.u16_accepts context) (fun _ => ⟨⟨rfl, trivial⟩, rfl⟩)
      fun | .u16 value, _ => ⟨value, rfl⟩
  | u32 =>
    exact accepts_of_all .u32 (Read.u32_accepts context) (fun _ => ⟨⟨rfl, trivial⟩, rfl⟩)
      fun | .u32 value, _ => ⟨value, rfl⟩
  | u64 =>
    exact accepts_of_all .u64 (Read.u64_accepts context) (fun _ => ⟨⟨rfl, trivial⟩, rfl⟩)
      fun | .u64 value, _ => ⟨value, rfl⟩
  | u128 =>
    exact accepts_of_all .u128 (Read.u128_accepts context) (fun _ => ⟨⟨rfl, trivial⟩, rfl⟩)
      fun | .u128 value, _ => ⟨value, rfl⟩
  | i8 =>
    exact accepts_of_all (.i8 ·.toInt8) (Read.byte_accepts context)
      (fun _ => ⟨⟨rfl, trivial⟩, rfl⟩) fun | .i8 value, _ => ⟨value.toUInt8, rfl⟩
  | i16 =>
    exact accepts_of_all (.i16 ·.toInt16) (Read.u16_accepts context)
      (fun _ => ⟨⟨rfl, trivial⟩, rfl⟩) fun | .i16 value, _ => ⟨value.toUInt16, rfl⟩
  | i32 =>
    exact accepts_of_all (.i32 ·.toInt32) (Read.u32_accepts context)
      (fun _ => ⟨⟨rfl, trivial⟩, rfl⟩) fun | .i32 value, _ => ⟨value.toUInt32, rfl⟩
  | i64 =>
    exact accepts_of_all (.i64 ·.toInt64) (Read.u64_accepts context)
      (fun _ => ⟨⟨rfl, trivial⟩, rfl⟩) fun | .i64 value, _ => ⟨value.toUInt64, rfl⟩
  | i128 =>
    exact accepts_of_all .i128 (Read.u128_accepts context) (fun _ => ⟨⟨rfl, trivial⟩, rfl⟩)
      fun | .i128 value, _ => ⟨value, rfl⟩
  | bool =>
    exact accepts_of_all .bool (Read.bool_accepts context) (fun _ => ⟨⟨rfl, trivial⟩, rfl⟩)
      fun | .bool value, _ => ⟨value, rfl⟩
  | optionTag =>
    exact accepts_of_all .optionTag (Read.bool_accepts context) (fun _ => ⟨⟨rfl, trivial⟩, rfl⟩)
      fun | .optionTag present, _ => ⟨present, rfl⟩
  | address =>
    exact accepts_of_all .address (Read.address_accepts context) (fun _ => ⟨⟨rfl, trivial⟩, rfl⟩)
      fun | .address value, _ => ⟨value, rfl⟩
  | varint =>
    exact accepts_of_all .varint (Read.varint_accepts context) (fun _ => ⟨⟨rfl, trivial⟩, rfl⟩)
      fun | .varint value, _ => ⟨value, rfl⟩
  | bytes length =>
    apply (Read.bytes_accepts length context).map
    · rintro value rfl
      exact ⟨⟨rfl, trivial⟩, rfl⟩
    · intro field fits
      match field, fits with
      | .bytes value, fits => exact ⟨value, Shape.bytes.inj fits.1, rfl⟩
  | prefixed =>
    apply (Read.prefixed_accepts context).map
    · intro value short
      exact ⟨⟨rfl, short⟩, rfl⟩
    · intro field fits
      match field, fits with
      | .prefixed value, fits => exact ⟨value, fits.2, rfl⟩

end Shape

end ClearSign
