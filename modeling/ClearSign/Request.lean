import ClearSign.Call

namespace ClearSign

/-- The fixed end of a transaction: what it may cost, until when it is valid and where. -/
structure Footer where
  maxGasAmount : UInt64 := 0
  gasUnitPrice : UInt64 := 0
  expirationTimestamp : UInt64 := 0
  chainId : UInt8 := 0
  deriving DecidableEq, Repr

namespace Footer

def width : Nat := 8 + 8 + 8 + 1

/-- The most that the transaction may cost, if that is a number of 64 bits. -/
def maxFee? (f : Footer) : Option UInt64 :=
  let fee := f.maxGasAmount.toNat * f.gasUnitPrice.toNat
  if fee < UInt64.size then some (UInt64.ofNat fee) else none

end Footer

namespace Payload

inductive Kind
  | script
  | entryFunction
  | multisig
  deriving DecidableEq, Repr

namespace Kind

def tag : Kind → UInt32
  | script => 0
  | entryFunction => 2
  | multisig => 3

def ofTag? (tag : UInt32) : Option Kind :=
  match tag.toNat with
  | 0 => some script
  | 2 => some entryFunction
  | 3 => some multisig
  | _ => none

def name : Kind → String
  | script => "Script"
  | entryFunction => "EntryFunction"
  | multisig => "Multisig"

theorem ofTag?_tag (kind : Kind) : ofTag? kind.tag = some kind := by
  cases kind <;> rfl

end Kind

end Payload

inductive Payload
  | script (body : Bytes)
  | entryFunction (call : EntryCall)
  | multisig (body : Bytes)
  deriving DecidableEq, Repr

def Payload.kind : Payload → Kind
  | script _ => .script
  | entryFunction _ => .entryFunction
  | multisig _ => .multisig

structure RawTransaction where
  sender : Address
  sequenceNumber : UInt64
  payload : Payload
  footer : Footer
  deriving DecidableEq, Repr

inductive Request
  | transaction (tx : RawTransaction)
  | transactionWithData (body : Bytes)
  | plainMessage (message : Bytes)
  | rawMessage (message : Bytes)
  deriving DecidableEq, Repr

namespace Request

inductive Kind
  | transaction
  | transactionWithData
  | plainMessage
  | rawMessage
  deriving DecidableEq, Repr

def Kind.name : Kind → String
  | transaction => "RawTransaction"
  | transactionWithData => "RawTransactionWithData"
  | plainMessage => "PlainMessage"
  | rawMessage => "RawBytesMessage"

def kind : Request → Kind
  | transaction _ => .transaction
  | transactionWithData _ => .transactionWithData
  | plainMessage _ => .plainMessage
  | rawMessage _ => .rawMessage

def call? : Request → Option EntryCall
  | transaction ⟨_, _, .entryFunction call, _⟩ => some call
  | _ => none

end Request

end ClearSign
