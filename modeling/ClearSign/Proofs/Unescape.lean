import ClearSign.Proofs.ShortAddress
import ClearSign.Text.Escape
import Mathlib

namespace ClearSign

def Hex.digitValue (c : Char) : Nat :=
  alphabet.idxOf c

theorem Hex.digitValue_digit {n : Nat} (small : n < 16) : digitValue (digit n) = n := by
  have values : ∀ n < 16, digitValue (digit n) = n := by decide
  exact values n small

namespace Escape

def letter (c : Char) : UInt8 :=
  if c = 't' then 9 else if c = 'r' then 13 else if c = 'n' then 10 else UInt8.ofNat c.toNat

def unescape : List Char → Bytes
  | '\\' :: 'x' :: high :: low :: rest =>
    UInt8.ofNat (16 * Hex.digitValue high + Hex.digitValue low) :: unescape rest
  | '\\' :: c :: rest => letter c :: unescape rest
  | c :: rest => UInt8.ofNat c.toNat :: unescape rest
  | [] => []

theorem unescape_plain {c : Char} (plain : c ≠ '\\') (rest : List Char) :
    unescape (c :: rest) = UInt8.ofNat c.toNat :: unescape rest := by
  rw [unescape]
  · intro _ _ _ same
    exact absurd same plain
  · intro _ _ same
    exact absurd same plain

theorem unescape_letter {c : Char} (other : c ≠ 'x') (rest : List Char) :
    unescape ('\\' :: c :: rest) = letter c :: unescape rest := by
  rw [unescape]
  intro _ _ _ same
  exact absurd same other

theorem unescape_pair (b : UInt8) (rest : List Char) :
    unescape ('\\' :: 'x' :: Hex.pair b ++ rest) = b :: unescape rest := by
  have high := Hex.digitValue_digit (Hex.halves_lt b).1
  have low := Hex.digitValue_digit (Hex.halves_lt b).2
  simp only [Hex.pair, List.cons_append, List.nil_append, unescape, high, low, Hex.ofNat_halves]

theorem unescape_byte (b : UInt8) (rest : List Char) :
    unescape (byte b ++ rest) = b :: unescape rest := by
  have lettered {c : Char} (other : c ≠ 'x') (stands : b.toNat = (letter c).toNat) :
      unescape (['\\', c] ++ rest) = b :: unescape rest := by
    rw [UInt8.toNat_inj.mp stands]
    exact unescape_letter other rest
  simp only [byte]
  split
  · next tab => exact lettered (by decide) tab
  split
  · next carriage => exact lettered (by decide) carriage
  split
  · next feed => exact lettered (by decide) feed
  split
  · next quote => exact lettered (by decide) quote
  split
  · next quotes => exact lettered (by decide) quotes
  split
  · next backslash => exact lettered (by decide) backslash
  · next other =>
    split
    · next plain =>
      have valid : b.toNat.isValidChar := .inl (by omega)
      have value : (Char.ofNat b.toNat).toNat = b.toNat := by
        rw [Char.toNat_ofNat, if_pos valid]
      have apart : Char.ofNat b.toNat ≠ '\\' := by
        intro same
        exact other (value.symm.trans (congrArg Char.toNat same))
      rw [List.singleton_append, unescape_plain apart, value, UInt8.ofNat_toNat]
    · exact unescape_pair b rest

theorem unescape_name (bs : Bytes) : unescape (name bs) = bs := by
  induction bs with
  | nil => rfl
  | cons b bs ih =>
    have split : name (b :: bs) = byte b ++ name bs := List.flatMap_cons
    rw [split, unescape_byte, ih]

theorem name_inj {bs cs : Bytes} : name bs = name cs ↔ bs = cs :=
  (Function.LeftInverse.injective unescape_name).eq_iff

theorem name_append (bs cs : Bytes) : name (bs ++ cs) = name bs ++ name cs :=
  List.flatMap_append

end Escape

end ClearSign
