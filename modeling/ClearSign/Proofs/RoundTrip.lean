import ClearSign.Wire.Sequence
import Mathlib

namespace ClearSign

namespace LittleEndian

theorem ofBytes_lt (bs : Bytes) : ofBytes bs < 256 ^ bs.length := by
  induction bs with
  | nil => simp [ofBytes]
  | cons b bs ih =>
    have := b.toNat_lt
    simp only [ofBytes, List.length_cons, Nat.pow_succ]
    omega

theorem ofBytes_toBytes {width n : Nat} (fits : n < 256 ^ width) :
    ofBytes (toBytes width n) = n := by
  induction width generalizing n with
  | zero => simp_all [ofBytes, toBytes]
  | succ width ih =>
    have : n / 256 < 256 ^ width := by
      rw [Nat.pow_succ] at fits
      omega
    simp only [toBytes, ofBytes, ih this, UInt8.toNat_ofNat']
    omega

end LittleEndian

namespace Varint

theorem readDigits_last {room max n : Nat} {first : Bool} (small : n < 128) (atMost : n ≤ max)
    (positive : first = false → 0 < n) (context : String) (rest : Bytes) :
    readDigits context (room + 1) max first (UInt8.ofNat n :: rest) = (.ok n, rest) := by
  have value : (UInt8.ofNat n).toNat = n := by
    rw [UInt8.toNat_ofNat']
    omega
  have accepted : ¬ (n = 0 ∧ first = false) := by
    rintro ⟨zero, later⟩
    have := positive later
    omega
  simp only [readDigits, Read.bind_apply, Read.byte, value, Nat.mod_eq_of_lt small]
  rw [if_neg (by omega), if_neg (by omega), if_neg accepted]
  rfl

theorem readDigits_digits {room max n : Nat} {first : Bool} (atMost : n ≤ max)
    (fits : max < 128 ^ (room + 1)) (positive : first = false → 0 < n) (context : String)
    (rest : Bytes) :
    readDigits context (room + 1) max first (digits room n ++ rest) = (.ok n, rest) := by
  induction room generalizing n max first with
  | zero =>
    exact readDigits_last (by simpa using Nat.lt_of_le_of_lt atMost fits) atMost positive _ _
  | succ room ih =>
    rw [digits]
    split
    · next small => exact readDigits_last small atMost positive _ _
    · next big =>
      have value : (UInt8.ofNat (n % 128 + 128)).toNat = n % 128 + 128 := by
        rw [UInt8.toNat_ofNat']
        omega
      rw [Nat.pow_succ] at fits
      have higher :
          readDigits context (room + 1) (max / 128) false (digits room (n / 128) ++ rest) =
            (.ok (n / 128), rest) := ih (by omega) (by omega) (by omega)
      rw [List.cons_append, readDigits]
      simp only [Read.bind_apply, Read.byte, value]
      rw [if_neg (by omega), if_pos (by omega), Read.bind_apply, higher]
      simp only [Read.pure_apply, Prod.mk.injEq, Except.ok.injEq, and_true]
      omega

end Varint

namespace Read

theorem varint_encode (context : String) (n : UInt32) (rest : Bytes) :
    varint context (Varint.encode n ++ rest) = (.ok n, rest) := by
  have := n.toNat_lt
  have digits := @Varint.readDigits_digits 4 (UInt32.size - 1) n.toNat true (by simp; omega)
    (by decide) (by simp) context rest
  apply atomically_of_ok
  rw [bind_apply]
  simp only [Varint.encode, Limits.varintBytes]
  rw [digits]
  simp

theorem length_encode {n : Nat} (known : n ≤ Limits.sequenceLength) (field : String)
    (rest : Bytes) :
    length field (Varint.encode (UInt32.ofNat n) ++ rest) = (.ok n, rest) := by
  have value : (UInt32.ofNat n).toNat = n := by
    simp only [Limits.sequenceLength] at known
    rw [UInt32.toNat_ofNat']
    omega
  apply atomically_of_ok
  rw [bind_apply, varint_encode]
  simp [value, known]

theorem prefixed_withLength {bs : Bytes} (known : bs.length ≤ Limits.sequenceLength)
    (field : String) (rest : Bytes) :
    prefixed field (bs.withLength ++ rest) = (.ok bs, rest) := by
  apply atomically_of_ok
  rw [bind_apply, Bytes.withLength, List.append_assoc, length_encode known]
  exact bytes_append field bs rest

end Read

end ClearSign
