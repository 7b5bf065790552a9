import ClearSign.Call.Encode
import ClearSign.Domain
import ClearSign.Request

namespace ClearSign

def Footer.encode (footer : Footer) : Bytes :=
  LittleEndian.toBytes 8 footer.maxGasAmount.toNat ++
    LittleEndian.toBytes 8 footer.gasUnitPrice.toNat ++
    LittleEndian.toBytes 8 footer.expirationTimestamp.toNat ++ [footer.chainId]

namespace Payload

def Kind.encode (kind : Kind) : Bytes :=
  Varint.encode kind.tag

def encodeBody : Payload → Bytes
  | script body => body
  | entryFunction call => call.encode
  | multisig body => body

def encode (payload : Payload) : Bytes :=
  payload.kind.encode ++ payload.encodeBody

end Payload

def RawTransaction.encodeHead (sender : Address) (sequenceNumber : UInt64) : Bytes :=
  sender.bytes ++ LittleEndian.toBytes 8 sequenceNumber.toNat

def RawTransaction.encode (tx : RawTransaction) : Bytes :=
  RawTransaction.encodeHead tx.sender tx.sequenceNumber ++ tx.payload.encode ++ tx.footer.encode

namespace Request

/-- The request to sign a transaction that further signers take part in. -/
def withData (body : Bytes) : Bytes :=
  Domain.rawTransactionWithData.separator ++ body

def encode : Request → Bytes
  | transaction tx => Domain.rawTransaction.separator ++ tx.encode
  | transactionWithData body => withData body
  | plainMessage message => message
  | rawMessage message => message

end Request

end ClearSign
