import ClearSign.TypeTag.Read

namespace ClearSign

def FunctionId.read : Read FunctionId := do
  let address ← Read.address "module address"
  let module ← Read.prefixed "module name"
  let name ← Read.prefixed "function name"
  return ⟨⟨address, module⟩, name⟩

namespace Action

def readTypeArgCount (callee : Callee) : Read Unit := do
  let found ← Read.varint "type argument count"
  let expected := callee.typeArgs?.getD 0
  if found = expected then return ()
  else .fail (.typeArgCountMismatch callee expected found)

def readArgCount (callee : Callee) : Read Unit := do
  let found ← Read.varint "argument count"
  let expected := callee.args?.getD 0
  if found = expected then return ()
  else .fail (.argCountMismatch callee expected found)

def readArgLength (callee : Callee) (arg : String) (expected : UInt32) : Read Unit := do
  let found ← Read.varint arg
  if found = expected then return ()
  else .fail (.argLengthMismatch callee arg expected found)

def readCoin (callee : Callee) : Read StructTag := do
  let found ← TypeTag.Kind.read
  if found = .struct then StructTag.read callee
  else .fail (.unexpectedTypeTag callee .struct found)

def readTransfer (callee : Callee) : Read Transfer := do
  readArgCount callee
  readArgLength callee "receiver" 32
  let receiver ← Read.address "receiver"
  readArgLength callee "amount" 8
  let amount ← Read.u64 "amount"
  return ⟨receiver, amount⟩

def readCoinTransfer (callee : Callee) : Read CoinTransfer := do
  readTypeArgCount callee
  let coin ← readCoin callee
  let transfer ← readTransfer callee
  return ⟨coin, transfer⟩

def read (callee : Callee) : Read Action :=
  match callee with
  | .unknown => return .unknown
  | .accountTransfer => do
    readTypeArgCount callee
    return .accountTransfer (← readTransfer callee)
  | .coinTransfer => return .coinTransfer (← readCoinTransfer callee)
  | .accountTransferCoins => return .accountTransferCoins (← readCoinTransfer callee)

end Action

/-- Reads a call; `exact` asks for the whole framework address. -/
def EntryCall.read (exact : Bool) : Read EntryCall := do
  let target ← FunctionId.read
  let action ← Action.read (target.classify exact)
  return ⟨target, action⟩

end ClearSign
