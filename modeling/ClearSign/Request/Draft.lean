import ClearSign.Request.Encode

namespace ClearSign

/-- A type argument of a call: a kind of fixed width or a struct without type arguments. -/
inductive TypeArg
  | bool
  | u8
  | u64
  | u128
  | address
  | signer
  | struct (owner : Address) (module name : String)
  deriving DecidableEq, Repr

namespace TypeArg

def aptosCoin : TypeArg := .struct .framework "aptos_coin" "AptosCoin"

def kind : TypeArg → TypeTag.Kind
  | bool => .bool
  | u8 => .u8
  | u64 => .u64
  | u128 => .u128
  | address => .address
  | signer => .signer
  | struct .. => .struct

def encodeInner : TypeArg → Bytes
  | struct owner module name => StructTag.encode ⟨owner, Utf8.encode module, Utf8.encode name⟩
  | _ => []

def encode (arg : TypeArg) : Bytes :=
  arg.kind.encode ++ arg.encodeInner

end TypeArg

namespace Draft

structure Call where
  address : Address
  module : String
  function : String
  typeArgs : List TypeArg
  args : List Bytes
  deriving DecidableEq, Repr

def Call.target (call : Call) : FunctionId :=
  ⟨⟨call.address, Utf8.encode call.module⟩, Utf8.encode call.function⟩

def Call.encode (call : Call) : Bytes :=
  call.target.encode ++
    Varint.encode (UInt32.ofNat call.typeArgs.length) ++ call.typeArgs.flatMap TypeArg.encode ++
    Varint.encode (UInt32.ofNat call.args.length) ++ call.args.flatMap Bytes.withLength

inductive Payload
  | script (body : Bytes)
  | call (call : Call)
  | multisig (body : Bytes)
  deriving DecidableEq, Repr

def Payload.kind : Payload → ClearSign.Payload.Kind
  | script _ => .script
  | call _ => .entryFunction
  | multisig _ => .multisig

def Payload.encodeBody : Payload → Bytes
  | script body => body
  | call c => c.encode
  | multisig body => body

def Payload.encode (payload : Payload) : Bytes :=
  payload.kind.encode ++ payload.encodeBody

end Draft

structure Draft where
  sender : Address
  sequenceNumber : UInt64 := 0
  payload : Draft.Payload := .script []
  footer : Footer := { chainId := 1 }
  deriving DecidableEq, Repr

namespace Draft

inductive Edit
  | sequenceNumber (value : UInt64)
  | maxGasAmount (value : UInt64)
  | gasUnitPrice (value : UInt64)
  | expirationTimestamp (value : UInt64)
  | chainId (value : UInt8)
  | script (body : Bytes)
  | multisig (body : Bytes)
  | call (call : Call)
  | accountTransfer (receiver : Address) (amount : UInt64)
  | coinTransfer (coin : TypeArg) (receiver : Address) (amount : UInt64)
  | accountTransferCoins (coin : TypeArg) (receiver : Address) (amount : UInt64)
  deriving DecidableEq, Repr

def transfer (module function : String) (typeArgs : List TypeArg) (receiver : Address)
    (amount : UInt64) : Payload :=
  .call ⟨.framework, module, function, typeArgs,
    [receiver.bytes, LittleEndian.toBytes 8 amount.toNat]⟩

def edit (draft : Draft) : Edit → Draft
  | .sequenceNumber value => { draft with sequenceNumber := value }
  | .maxGasAmount value => { draft with footer := { draft.footer with maxGasAmount := value } }
  | .gasUnitPrice value => { draft with footer := { draft.footer with gasUnitPrice := value } }
  | .expirationTimestamp value =>
    { draft with footer := { draft.footer with expirationTimestamp := value } }
  | .chainId value => { draft with footer := { draft.footer with chainId := value } }
  | .script body => { draft with payload := .script body }
  | .multisig body => { draft with payload := .multisig body }
  | .call call => { draft with payload := .call call }
  | .accountTransfer receiver amount =>
    { draft with payload := transfer "aptos_account" "transfer" [] receiver amount }
  | .coinTransfer coin receiver amount =>
    { draft with payload := transfer "coin" "transfer" [coin] receiver amount }
  | .accountTransferCoins coin receiver amount =>
    { draft with payload := transfer "aptos_account" "transfer_coins" [coin] receiver amount }

def body (draft : Draft) : Bytes :=
  RawTransaction.encodeHead draft.sender draft.sequenceNumber ++ draft.payload.encode ++
    draft.footer.encode

def request (draft : Draft) : Bytes :=
  Domain.rawTransaction.separator ++ draft.body

end Draft

end ClearSign
