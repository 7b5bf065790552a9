import ClearSign.TypeTag
import ClearSign.Wire.Sequence

namespace ClearSign

namespace TypeTag

def Kind.encode (kind : Kind) : Bytes :=
  Varint.encode kind.tag

def Value.encodeInner : Value → Bytes
  | bool b => [if b then 1 else 0]
  | u8 n => [n]
  | u64 n => LittleEndian.toBytes 8 n.toNat
  | u128 n => LittleEndian.toBytes 16 n.toNat
  | address a => a.bytes
  | signer a => a.bytes

def Value.encode (value : Value) : Bytes :=
  value.kind.encode ++ value.encodeInner

end TypeTag

def StructTag.encode (tag : StructTag) : Bytes :=
  tag.address.bytes ++ tag.module.withLength ++ tag.name.withLength ++ Varint.encode 0

end ClearSign
