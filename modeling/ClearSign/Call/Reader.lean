import ClearSign.Call.Read
import ClearSign.Wire.Reader

namespace ClearSign

namespace TypeTag

def Kind.reader : Reader Kind := Reader.atomically do
  let tag ← Reader.varint "type tag"
  match ofTag? tag with
  | some kind => return kind
  | none => .fail (.invalidTypeTag tag)

def Value.innerReader (kind : Kind) : Reader Value :=
  match kind with
  | .bool => Value.bool <$> Reader.bool "bool value"
  | .u8 => Value.u8 <$> Reader.byte "u8 value"
  | .u64 => Value.u64 <$> Reader.u64 "u64 value"
  | .u128 => Value.u128 <$> Reader.u128 "u128 value"
  | .address => Value.address <$> Reader.address "address value"
  | .signer => Value.signer <$> Reader.address "signer value"
  | .vector => .fail (.unsupportedTypeTag kind)
  | .struct => .fail (.unsupportedTypeTag kind)

def Value.reader (kind : Kind) : Reader Value :=
  match kind.width? with
  | none => .fail (.unsupportedTypeTag kind)
  | some width => Reader.atomically do
    let block := Cursor.start (← Reader.bytes width "type tag value")
    match (Value.innerReader kind block).1 with
    | .ok value => return value
    | .error e => .fail e

def reader : Reader Value := Reader.atomically do
  Value.reader (← Kind.reader)

end TypeTag

def StructTag.reader (callee : Callee) : Reader StructTag := do
  let address ← Reader.address "struct address"
  let module ← Reader.prefixed "struct module name"
  let name ← Reader.prefixed "struct name"
  let found ← Reader.varint "struct type argument count"
  if found = 0 then return ⟨address, module, name⟩
  else .fail (.coinTypeArgCountMismatch callee found)

def FunctionId.reader : Reader FunctionId := do
  let address ← Reader.address "module address"
  let module ← Reader.prefixed "module name"
  let name ← Reader.prefixed "function name"
  return ⟨⟨address, module⟩, name⟩

def Reader.expected (context : String) (expected : UInt32) (fault : UInt32 → DecodeError) :
    Reader Unit := do
  let found ← Reader.varint context
  if found = expected then return ()
  else .fail (fault found)

namespace Action

def typeArgCountReader (callee : Callee) : Reader Unit :=
  let expected := callee.typeArgs?.getD 0
  Reader.expected "type argument count" expected (.typeArgCountMismatch callee expected)

def argCountReader (callee : Callee) : Reader Unit :=
  let expected := callee.args?.getD 0
  Reader.expected "argument count" expected (.argCountMismatch callee expected)

def argLengthReader (callee : Callee) (arg : String) (expected : UInt32) : Reader Unit :=
  Reader.expected arg expected (.argLengthMismatch callee arg expected)

def coinReader (callee : Callee) : Reader StructTag := do
  let found ← TypeTag.Kind.reader
  if found = .struct then StructTag.reader callee
  else .fail (.unexpectedTypeTag callee .struct found)

def transferReader (callee : Callee) : Reader Transfer := do
  argCountReader callee
  argLengthReader callee "receiver" 32
  let receiver ← Reader.address "receiver"
  argLengthReader callee "amount" 8
  let amount ← Reader.u64 "amount"
  return ⟨receiver, amount⟩

def coinTransferReader (callee : Callee) : Reader CoinTransfer := do
  typeArgCountReader callee
  let coin ← coinReader callee
  let transfer ← transferReader callee
  return ⟨coin, transfer⟩

def reader (callee : Callee) : Reader Action :=
  match callee with
  | .unknown => return .unknown
  | .accountTransfer => do
    typeArgCountReader callee
    return .accountTransfer (← transferReader callee)
  | .coinTransfer => return .coinTransfer (← coinTransferReader callee)
  | .accountTransferCoins => return .accountTransferCoins (← coinTransferReader callee)

end Action

def EntryCall.reader (exact : Bool) : Reader EntryCall := do
  let target ← FunctionId.reader
  let action ← Action.reader (target.classify exact)
  return ⟨target, action⟩

end ClearSign
