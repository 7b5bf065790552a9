import ClearSign.Call
import ClearSign.TypeTag.Encode

namespace ClearSign

def FunctionId.encode (f : FunctionId) : Bytes :=
  f.module.address.bytes ++ f.module.name.withLength ++ f.name.withLength

def StructTag.encodeTypeArg (coin : StructTag) : Bytes :=
  TypeTag.Kind.struct.encode ++ coin.encode

def Transfer.encode (transfer : Transfer) : Bytes :=
  Varint.encode 2 ++ transfer.receiver.bytes.withLength ++
    (LittleEndian.toBytes 8 transfer.amount.toNat).withLength

def CoinTransfer.encode (c : CoinTransfer) : Bytes :=
  Varint.encode 1 ++ c.coin.encodeTypeArg ++ c.transfer.encode

def Action.encode : Action → Bytes
  | .unknown => []
  | .accountTransfer t => Varint.encode 0 ++ t.encode
  | .coinTransfer c => c.encode
  | .accountTransferCoins c => c.encode

def EntryCall.encode (call : EntryCall) : Bytes :=
  call.target.encode ++ call.action.encode

end ClearSign
