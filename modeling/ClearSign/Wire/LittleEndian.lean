import ClearSign.Bytes

namespace ClearSign.LittleEndian

def toBytes : (width n : Nat) → Bytes
  | 0, _ => []
  | width + 1, n => UInt8.ofNat (n % 256) :: toBytes width (n / 256)

def ofBytes : Bytes → Nat
  | [] => 0
  | b :: bs => b.toNat + 256 * ofBytes bs

@[simp] theorem length_toBytes (width n : Nat) : (toBytes width n).length = width := by
  induction width generalizing n with
  | zero => rfl
  | succ width ih => simp [toBytes, ih]

theorem toBytes_ofBytes (bs : Bytes) : toBytes bs.length (ofBytes bs) = bs := by
  induction bs with
  | nil => rfl
  | cons b bs ih =>
    have := b.toNat_lt
    simp only [List.length_cons, ofBytes, toBytes]
    rw [show (b.toNat + 256 * ofBytes bs) / 256 = ofBytes bs by omega, ih,
      show (b.toNat + 256 * ofBytes bs) % 256 = b.toNat by omega, UInt8.ofNat_toNat]

end ClearSign.LittleEndian
