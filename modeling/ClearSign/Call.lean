import ClearSign.TypeTag

/-!
Calls of entry functions. A function is named by module address, module name and function name.
Three of the framework's functions are classified, and for these the arguments are known in full.
-/

namespace ClearSign

inductive Callee
  | unknown
  | accountTransfer
  | coinTransfer
  | accountTransferCoins
  deriving DecidableEq, Repr

namespace Callee

def name : Callee → String
  | unknown => "Unknown"
  | accountTransfer => "AptosAccountTransfer"
  | coinTransfer => "CoinTransfer"
  | accountTransferCoins => "AptosAccountTransferCoins"

def number : Callee → Nat
  | unknown => 0
  | accountTransfer => 1
  | coinTransfer => 2
  | accountTransferCoins => 3

def typeArgs? : Callee → Option UInt32
  | unknown => none
  | accountTransfer => some 0
  | coinTransfer => some 1
  | accountTransferCoins => some 1

def args? : Callee → Option UInt32
  | unknown => none
  | accountTransfer => some 2
  | coinTransfer => some 2
  | accountTransferCoins => some 2

def table : List (String × String × Callee) :=
  [("aptos_account", "transfer", accountTransfer),
   ("coin", "transfer", coinTransfer),
   ("aptos_account", "transfer_coins", accountTransferCoins)]

end Callee

structure ModuleId where
  address : Address
  name : Bytes
  deriving DecidableEq, Repr

namespace ModuleId

def text (m : ModuleId) : List Char :=
  m.address.shortText ++ "::".toList ++ Escape.name m.name

def display (m : ModuleId) : String :=
  String.ofList m.text

/-- Whether the module counts as one of the framework: by its whole address, or by no more than
the last byte of it. -/
def isFramework (exact : Bool) (m : ModuleId) : Bool :=
  if exact then decide (m.address = .framework) else m.address.lastByte == 1

end ModuleId

structure FunctionId where
  module : ModuleId
  name : Bytes
  deriving DecidableEq, Repr

namespace FunctionId

def text (f : FunctionId) : List Char :=
  f.module.text ++ "::".toList ++ Escape.name f.name

def display (f : FunctionId) : String :=
  String.ofList f.text

/-- Classifies a function by its names, if its module is one of the framework. -/
def classify (exact : Bool) (f : FunctionId) : Callee :=
  if f.module.isFramework exact then
    match Callee.table.find? fun (module, name, _) =>
        f.module.name == Utf8.encode module && f.name == Utf8.encode name with
    | some (_, _, callee) => callee
    | none => .unknown
  else .unknown

end FunctionId

structure Transfer where
  receiver : Address
  amount : UInt64
  deriving DecidableEq, Repr

structure CoinTransfer where
  coin : StructTag
  transfer : Transfer
  deriving DecidableEq, Repr

/-- What a call does; nothing is known of a call that is not classified. -/
inductive Action
  | unknown
  | accountTransfer (transfer : Transfer)
  | coinTransfer (coinTransfer : CoinTransfer)
  | accountTransferCoins (coinTransfer : CoinTransfer)
  deriving DecidableEq, Repr

namespace Action

def callee : Action → Callee
  | unknown => .unknown
  | accountTransfer _ => .accountTransfer
  | coinTransfer _ => .coinTransfer
  | accountTransferCoins _ => .accountTransferCoins

def transfer? : Action → Option Transfer
  | unknown => none
  | accountTransfer t => some t
  | coinTransfer c => some c.transfer
  | accountTransferCoins c => some c.transfer

def coin? : Action → Option StructTag
  | unknown => none
  | accountTransfer _ => none
  | coinTransfer c => some c.coin
  | accountTransferCoins c => some c.coin

end Action

structure EntryCall where
  target : FunctionId
  action : Action
  deriving DecidableEq, Repr

def EntryCall.callee (call : EntryCall) : Callee :=
  call.action.callee

end ClearSign
