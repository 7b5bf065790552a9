import ClearSign.Bytes

namespace ClearSign

inductive Domain
  | rawTransaction
  | rawTransactionWithData
  deriving DecidableEq, Repr

namespace Domain

def width : Nat := 32

def salt : Domain → String
  | rawTransaction => "APTOS::RawTransaction"
  | rawTransactionWithData => "APTOS::RawTransactionWithData"

def separator : Domain → Bytes
  | rawTransaction =>
    [0xb5, 0xe9, 0x7d, 0xb0, 0x7f, 0xa0, 0xbd, 0x0e, 0x55, 0x98, 0xaa, 0x36, 0x43, 0xa9, 0xbc, 0x6f,
     0x66, 0x93, 0xbd, 0xdc, 0x1a, 0x9f, 0xec, 0x9e, 0x67, 0x4a, 0x46, 0x1e, 0xaa, 0x00, 0xb1, 0x93]
  | rawTransactionWithData =>
    [0x5e, 0xfa, 0x3c, 0x4f, 0x02, 0xf8, 0x3a, 0x0f, 0x4b, 0x2d, 0x69, 0xfc, 0x95, 0xc6, 0x07, 0xcc,
     0x02, 0x82, 0x5c, 0xc4, 0xe7, 0xbe, 0x53, 0x6e, 0xf0, 0x99, 0x2d, 0xf0, 0x50, 0xd9, 0xe6, 0x7c]

theorem length_separator (domain : Domain) : domain.separator.length = 32 := by
  cases domain <;> rfl

def ofSeparator? (lead : Bytes) : Option Domain :=
  if lead = separator rawTransaction then some rawTransaction
  else if lead = separator rawTransactionWithData then some rawTransactionWithData
  else none

def of? (bs : Bytes) : Option Domain :=
  ofSeparator? (bs.take 32)

end Domain

end ClearSign
