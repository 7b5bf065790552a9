import ClearSign.Bytes

namespace ClearSign.Hex

def digit (n : Nat) : Char :=
  if n < 10 then Char.ofNat (48 + n) else Char.ofNat (87 + n)

/-- A byte is written with two lowercase digits, the high half first. -/
def pair (b : UInt8) : List Char :=
  [digit (b.toNat / 16), digit (b.toNat % 16)]

def digits (bs : Bytes) : List Char :=
  bs.flatMap pair

inductive Fault
  | oddLength
  | invalidHexCharacter (c : Char) (index : Nat)
  | invalidStringLength
  deriving DecidableEq, Repr

/-- A library that reads and writes hexadecimal text, and tells of the faults that it finds. -/
structure Codec where
  decode : Bytes → Except Fault Bytes
  encode : Bytes → String
  debug : Fault → String

end ClearSign.Hex
