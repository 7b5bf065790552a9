import ClearSign.Wire.Read

namespace ClearSign

namespace Varint

def digits : (more n : Nat) → Bytes
  | 0, n => [UInt8.ofNat n]
  | more + 1, n =>
    if n < 128 then [UInt8.ofNat n] else UInt8.ofNat (n % 128 + 128) :: digits more (n / 128)

def encode (n : UInt32) : Bytes :=
  digits (Limits.varintBytes - 1) n.toNat

/-- Writes the digits of `n` into the scratch from place `length` on. The answer is the scratch and
the place behind the last digit; there is none if a digit finds no place. -/
def fill? (scratch : Bytes) (length n : Nat) : Option (Bytes × Nat) :=
  if length < scratch.length then
    if n < 128 then some (scratch.set length (UInt8.ofNat n), length + 1)
    else fill? (scratch.set length (UInt8.ofNat (n % 128 + 128))) (length + 1) (n / 128)
  else none

/-- The number as it is put together in a scratch of five bytes. -/
def write? (n : UInt32) : Option Bytes :=
  (fill? (List.replicate Limits.varintBytes 0) 0 n.toNat).map fun (scratch, length) =>
    scratch.take length

/-- Reads at most `room` digits of a number that is at most `max`. The first digit alone may be a
last digit of zero. -/
def readDigits (context : String) : (room max : Nat) → (first : Bool) → Read Nat
  | 0, _, _ => .fail (.varintTooLong context)
  | room + 1, max, first => do
    let b ← Read.byte context
    let digit := b.toNat % 128
    if max < digit then .fail (.varintOverflow context)
    else if 128 ≤ b.toNat then
      return digit + 128 * (← readDigits context room (max / 128) false)
    else if digit = 0 ∧ first = false then .fail (.nonCanonicalVarint context)
    else return digit

end Varint

namespace Read

def varint (context : String) : Read UInt32 := atomically do
  return UInt32.ofNat (← Varint.readDigits context Limits.varintBytes (UInt32.size - 1) true)

end Read

end ClearSign
