import ClearSign.Wire.Sequence

namespace ClearSign

namespace TypeTag

def Kind.read : Read Kind := Read.atomically do
  let tag ← Read.varint "type tag"
  match ofTag? tag with
  | some kind => return kind
  | none => .fail (.invalidTypeTag tag)

def Value.readInner (kind : Kind) : Read Value :=
  match kind with
  | .bool => Value.bool <$> Read.bool "bool value"
  | .u8 => Value.u8 <$> Read.byte "u8 value"
  | .u64 => Value.u64 <$> Read.u64 "u64 value"
  | .u128 => Value.u128 <$> Read.u128 "u128 value"
  | .address => Value.address <$> Read.address "address value"
  | .signer => Value.signer <$> Read.address "signer value"
  | .vector => .fail (.unsupportedTypeTag kind)
  | .struct => .fail (.unsupportedTypeTag kind)

def Value.read (kind : Kind) : Read Value :=
  match kind.width? with
  | none => .fail (.unsupportedTypeTag kind)
  | some width => Read.atomically do
    match (Value.readInner kind (← Read.bytes width "type tag value")).1 with
    | .ok value => return value
    | .error e => .fail e

def read : Read Value := Read.atomically do
  Value.read (← Kind.read)

end TypeTag

/-- Reads a struct tag behind its kind. The struct must not be generic; `callee` is the function
that this is required for. -/
def StructTag.read (callee : Callee) : Read StructTag := do
  let address ← Read.address "struct address"
  let module ← Read.prefixed "struct module name"
  let name ← Read.prefixed "struct name"
  let typeArgs ← Read.varint "struct type argument count"
  if typeArgs = 0 then return ⟨address, module, name⟩
  else .fail (.coinTypeArgCountMismatch callee typeArgs)

end ClearSign
