import ClearSign.Address
import ClearSign.Text.Escape
import ClearSign.Text.Utf8

namespace ClearSign

namespace TypeTag

inductive Kind
  | bool
  | u8
  | u64
  | u128
  | address
  | signer
  | vector
  | struct
  deriving DecidableEq, Repr

namespace Kind

def tag : Kind → UInt32
  | bool => 0
  | u8 => 1
  | u64 => 2
  | u128 => 3
  | address => 4
  | signer => 5
  | vector => 6
  | struct => 7

def ofTag? (tag : UInt32) : Option Kind :=
  match tag.toNat with
  | 0 => some bool
  | 1 => some u8
  | 2 => some u64
  | 3 => some u128
  | 4 => some address
  | 5 => some signer
  | 6 => some vector
  | 7 => some struct
  | _ => none

def name : Kind → String
  | bool => "Bool"
  | u8 => "U8"
  | u64 => "U64"
  | u128 => "U128"
  | address => "Address"
  | signer => "Signer"
  | vector => "Vector"
  | struct => "Struct"

def width? : Kind → Option Nat
  | bool => some 1
  | u8 => some 1
  | u64 => some 8
  | u128 => some 16
  | address => some 32
  | signer => some 32
  | vector => none
  | struct => none

theorem ofTag?_tag (kind : Kind) : ofTag? kind.tag = some kind := by
  cases kind <;> rfl

end Kind

inductive Value
  | bool (value : Bool)
  | u8 (value : UInt8)
  | u64 (value : UInt64)
  | u128 (value : BitVec 128)
  | address (value : Address)
  | signer (value : Address)
  deriving DecidableEq, Repr

def Value.kind : Value → Kind
  | bool _ => .bool
  | u8 _ => .u8
  | u64 _ => .u64
  | u128 _ => .u128
  | address _ => .address
  | signer _ => .signer

end TypeTag

structure StructTag where
  address : Address
  module : Bytes
  name : Bytes
  deriving DecidableEq, Repr

namespace StructTag

def aptosCoin : StructTag :=
  ⟨.framework, Utf8.encode "aptos_coin", Utf8.encode "AptosCoin"⟩

def isAptosCoin (tag : StructTag) : Bool :=
  decide (tag = aptosCoin)

def text (tag : StructTag) : List Char :=
  tag.address.shortText ++ "::".toList ++ Escape.name tag.module ++ "::".toList ++
    Escape.name tag.name

def display (tag : StructTag) : String :=
  String.ofList tag.text

end StructTag

end ClearSign
