import ClearSign.Text.Hex

/-!
Escaped text. A name of arbitrary bytes is shown in printable ASCII: tab, carriage return, line
feed, both quotes and the backslash are escaped by a letter or by themselves, every other byte
outside the printable range by two hexadecimal digits. A single character between quotes has an
escape of its own, by its code point.
-/

namespace ClearSign.Escape

def byte (b : UInt8) : List Char :=
  let n := b.toNat
  if n = 9 then ['\\', 't']
  else if n = 13 then ['\\', 'r']
  else if n = 10 then ['\\', 'n']
  else if n = 39 then ['\\', '\'']
  else if n = 34 then ['\\', '"']
  else if n = 92 then ['\\', '\\']
  else if 32 ≤ n ∧ n ≤ 126 then [Char.ofNat n]
  else '\\' :: 'x' :: Hex.pair b

def name (bs : Bytes) : List Char :=
  bs.flatMap byte

def codePoint (n : Nat) : List Char :=
  if n < 16 then [Hex.digit n] else [Hex.digit (n / 16), Hex.digit (n % 16)]

/-- A character of the first 256 code points between single quotes. Controls, the blank at 0xa0
and the soft hyphen are not printable and are written by their code point. -/
def quoted (b : UInt8) : String :=
  let n := b.toNat
  let inner : List Char :=
    if n = 0 then ['\\', '0']
    else if n = 9 then ['\\', 't']
    else if n = 13 then ['\\', 'r']
    else if n = 10 then ['\\', 'n']
    else if n = 39 then ['\\', '\'']
    else if n = 92 then ['\\', '\\']
    else if (32 ≤ n ∧ n ≤ 126) ∨ (161 ≤ n ∧ n ≠ 173) then [Char.ofNat n]
    else ['\\', 'u', '\x7b'] ++ codePoint n ++ ['\x7d']
  String.ofList (['\''] ++ inner ++ ['\''])

end ClearSign.Escape
