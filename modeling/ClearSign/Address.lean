import ClearSign.Text.Hex

namespace ClearSign

structure Address where
  bytes : Bytes
  length_bytes : bytes.length = 32
  deriving DecidableEq, Repr

namespace Address

def width : Nat := 32

def zero : Address := ⟨List.replicate 32 0, by decide⟩

def framework : Address := ⟨List.replicate 31 0 ++ [1], by decide⟩

instance : Inhabited Address := ⟨zero⟩

def ofBytes? (bs : Bytes) : Option Address :=
  if h : bs.length = 32 then some ⟨bs, h⟩ else none

def lastByte (a : Address) : UInt8 :=
  a.bytes.get ⟨31, by simp [a.length_bytes]⟩

/-- Leading zero bytes are dropped, but never the last byte. -/
def significant : Bytes → Bytes
  | b :: next :: rest => if b = 0 then significant (next :: rest) else b :: next :: rest
  | bs => bs

def fullText (a : Address) : List Char :=
  '0' :: 'x' :: Hex.digits a.bytes

def shortText (a : Address) : List Char :=
  '0' :: 'x' :: Hex.digits (significant a.bytes)

def full (a : Address) : String :=
  String.ofList a.fullText

def short (a : Address) : String :=
  String.ofList a.shortText

def labelled (a : Address) : String :=
  "AccountAddress(" ++ a.full ++ ")"

end Address

end ClearSign
