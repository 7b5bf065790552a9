import ClearSign.Text.Escape

namespace ClearSign.Hex

def value? (b : UInt8) : Option Nat :=
  let n := b.toNat
  if 48 ≤ n ∧ n ≤ 57 then some (n - 48)
  else if 97 ≤ n ∧ n ≤ 102 then some (n - 87)
  else if 65 ≤ n ∧ n ≤ 70 then some (n - 55)
  else none

namespace Fault

def ofByte (b : UInt8) (index : Nat) : Fault :=
  invalidHexCharacter (Char.ofNat b.toNat) index

/-- The fault as it is counted from one pair of digits earlier. -/
def behindPair : Fault → Fault
  | invalidHexCharacter c index => invalidHexCharacter c (index + 2)
  | fault => fault

def text : Fault → String
  | oddLength => "OddLength"
  | invalidHexCharacter c index =>
    "InvalidHexCharacter \x7b c: " ++ Escape.quoted (UInt8.ofNat c.toNat) ++
      s!", index: {index} \x7d"
  | invalidStringLength => "InvalidStringLength"

end Fault

def decodePairs : Bytes → Except Fault Bytes
  | high :: low :: rest =>
    match value? high, value? low with
    | none, _ => .error (.ofByte high 0)
    | _, none => .error (.ofByte low 1)
    | some h, some l =>
      match decodePairs rest with
      | .error fault => .error fault.behindPair
      | .ok bs => .ok (UInt8.ofNat (16 * h + l) :: bs)
  | _ => .ok []

def decode (text : Bytes) : Except Fault Bytes :=
  if text.length % 2 = 1 then .error .oddLength else decodePairs text

def encode (bs : Bytes) : String :=
  String.ofList (digits bs)

/-- The codec that the command line is run with. -/
def table : Codec where
  decode := decode
  encode := encode
  debug := Fault.text

end ClearSign.Hex
