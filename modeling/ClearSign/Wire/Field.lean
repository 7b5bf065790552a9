import ClearSign.Wire.Sequence

namespace ClearSign

inductive Shape
  | u8
  | u16
  | u32
  | u64
  | u128
  | i8
  | i16
  | i32
  | i64
  | i128
  | bool
  | optionTag
  | address
  | varint
  | bytes (length : Nat)
  | prefixed
  deriving DecidableEq, Repr

/-- Signed numbers are written in two's complement, those of 128 bits are kept as bits. -/
inductive Field
  | u8 (value : UInt8)
  | u16 (value : UInt16)
  | u32 (value : UInt32)
  | u64 (value : UInt64)
  | u128 (value : BitVec 128)
  | i8 (value : Int8)
  | i16 (value : Int16)
  | i32 (value : Int32)
  | i64 (value : Int64)
  | i128 (value : BitVec 128)
  | bool (value : Bool)
  | optionTag (present : Bool)
  | address (value : Address)
  | varint (value : UInt32)
  | bytes (value : Bytes)
  | prefixed (value : Bytes)
  deriving DecidableEq

namespace Field

def shape : Field → Shape
  | u8 _ => .u8
  | u16 _ => .u16
  | u32 _ => .u32
  | u64 _ => .u64
  | u128 _ => .u128
  | i8 _ => .i8
  | i16 _ => .i16
  | i32 _ => .i32
  | i64 _ => .i64
  | i128 _ => .i128
  | bool _ => .bool
  | optionTag _ => .optionTag
  | address _ => .address
  | varint _ => .varint
  | bytes value => .bytes value.length
  | prefixed _ => .prefixed

def encodeBool (value : Bool) : Bytes :=
  [if value then 1 else 0]

def encode : Field → Bytes
  | u8 value => [value]
  | u16 value => LittleEndian.toBytes 2 value.toNat
  | u32 value => LittleEndian.toBytes 4 value.toNat
  | u64 value => LittleEndian.toBytes 8 value.toNat
  | u128 value => LittleEndian.toBytes 16 value.toNat
  | i8 value => [value.toUInt8]
  | i16 value => LittleEndian.toBytes 2 value.toUInt16.toNat
  | i32 value => LittleEndian.toBytes 4 value.toUInt32.toNat
  | i64 value => LittleEndian.toBytes 8 value.toUInt64.toNat
  | i128 value => LittleEndian.toBytes 16 value.toNat
  | bool value => encodeBool value
  | optionTag present => encodeBool present
  | address value => value.bytes
  | varint value => Varint.encode value
  | bytes value => value
  | prefixed value => value.withLength

end Field

def Shape.read (context : String) : Shape → Read Field
  | u8 => Field.u8 <$> Read.byte context
  | u16 => Field.u16 <$> Read.u16 context
  | u32 => Field.u32 <$> Read.u32 context
  | u64 => Field.u64 <$> Read.u64 context
  | u128 => Field.u128 <$> Read.u128 context
  | i8 => (Field.i8 ·.toInt8) <$> Read.byte context
  | i16 => (Field.i16 ·.toInt16) <$> Read.u16 context
  | i32 => (Field.i32 ·.toInt32) <$> Read.u32 context
  | i64 => (Field.i64 ·.toInt64) <$> Read.u64 context
  | i128 => Field.i128 <$> Read.u128 context
  | bool => Field.bool <$> Read.bool context
  | optionTag => Field.optionTag <$> Read.bool context
  | address => Field.address <$> Read.address context
  | varint => Field.varint <$> Read.varint context
  | bytes length => Field.bytes <$> Read.bytes length context
  | prefixed => Field.prefixed <$> Read.prefixed context

end ClearSign
