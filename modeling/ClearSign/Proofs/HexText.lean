import ClearSign.Proofs.CharLen
import ClearSign.Proofs.ShortAddress

/-!
Reading hexadecimal text. A text is read just if it is, in either letter case, the digits that some
bytes are written with. Otherwise an odd number of bytes is found, or else the first byte that is no
digit. This holds of any codec that reads pair by pair from the left.
-/

namespace ClearSign.Hex

/-- The codes of the digits in either letter case. -/
def IsDigit (b : UInt8) : Prop :=
  b ∈ Utf8.encode "0123456789abcdefABCDEF"

instance (b : UInt8) : Decidable (IsDigit b) :=
  inferInstanceAs (Decidable (b ∈ _))

def lower (b : UInt8) : Char :=
  (Char.ofNat b.toNat).toLower

theorem exists_digit_of_isDigit : ∀ b : UInt8, IsDigit b → ∃ n < 16, lower b = digit n :=
  forall_byte (by decide +kernel)

theorem isDigit_of_lower : ∀ b : UInt8, lower b ∈ alphabet → IsDigit b :=
  forall_byte (by decide +kernel)

theorem lt_of_isDigit : ∀ b : UInt8, IsDigit b → b.toNat < 0x80 :=
  forall_byte (by decide +kernel)

theorem exists_pair {high low : UInt8} (first : IsDigit high) (second : IsDigit low) :
    ∃ b, [high, low].map lower = pair b := by
  obtain ⟨h, small, spelled⟩ := exists_digit_of_isDigit high first
  obtain ⟨l, small', spelled'⟩ := exists_digit_of_isDigit low second
  have value : (UInt8.ofNat (16 * h + l)).toNat = 16 * h + l := by
    rw [UInt8.toNat_ofNat']
    omega
  have upper : (16 * h + l) / 16 = h := by omega
  have under : (16 * h + l) % 16 = l := by omega
  refine ⟨UInt8.ofNat (16 * h + l), ?_⟩
  rw [pair, value, upper, under, List.map_cons, List.map_singleton, spelled, spelled']

theorem exists_digits {text : Bytes} (even : text.length % 2 = 0)
    (all : ∀ b ∈ text, IsDigit b) : ∃ bs, text.map lower = digits bs := by
  obtain ⟨count, width⟩ : ∃ count, text.length = 2 * count := ⟨text.length / 2, by omega⟩
  induction count generalizing text with
  | zero =>
    obtain rfl : text = [] := List.eq_nil_of_length_eq_zero width
    exact ⟨[], rfl⟩
  | succ count ih =>
    match text, width with
    | high :: low :: rest, width =>
      rw [List.length_cons, List.length_cons] at width
      obtain ⟨first, second, others⟩ : IsDigit high ∧ IsDigit low ∧ ∀ b ∈ rest, IsDigit b := by
        simpa only [List.forall_mem_cons] using all
      obtain ⟨b, spelled⟩ := exists_pair first second
      obtain ⟨bs, tail⟩ := ih (by omega) others (by omega)
      refine ⟨b :: bs, ?_⟩
      rw [digits_cons, ← spelled, ← tail]
      rfl

theorem exists_digits_iff {text : Bytes} :
    (∃ bs, text.map lower = digits bs) ↔ text.length % 2 = 0 ∧ ∀ b ∈ text, IsDigit b := by
  constructor
  · rintro ⟨bs, spelled⟩
    have width := congrArg List.length spelled
    rw [List.length_map, length_digits] at width
    refine ⟨by omega, ?_⟩
    intro b member
    have shown : lower b ∈ digits bs := spelled ▸ List.mem_map_of_mem member
    exact isDigit_of_lower b (digits_subset_alphabet bs shown)
  · rintro ⟨even, all⟩
    exact exists_digits even all

/-- The place of the first byte that is no digit, and this byte. -/
structure FirstFault (text : Bytes) (index : Nat) (b : UInt8) : Prop where
  found : text[index]? = some b
  fault : ¬ IsDigit b
  before : ∀ d ∈ text.take index, IsDigit d

theorem exists_firstFault {text : Bytes} (mixed : ¬ ∀ b ∈ text, IsDigit b) :
    ∃ index b, FirstFault text index b := by
  induction text with
  | nil => exact absurd (List.forall_mem_nil _) mixed
  | cons c text ih =>
    by_cases digit : IsDigit c
    · obtain ⟨index, b, found, fault, before⟩ := ih fun all =>
        mixed (List.forall_mem_cons.mpr ⟨digit, all⟩)
      exact ⟨index + 1, b, found, fault, List.forall_mem_cons.mpr ⟨digit, before⟩⟩
    · exact ⟨0, c, rfl, digit, List.forall_mem_nil _⟩

namespace Codec

/-- What is assumed of a codec. That the number of bytes is odd is found before any of them is
looked at. They are read from the left in pairs of digits, in either letter case; a byte that is no
digit is told with its place. -/
structure Lawful (hex : Codec) : Prop where
  odd : ∀ text, text.length % 2 = 1 → hex.decode text = .error .oddLength
  empty : hex.decode [] = .ok []
  pair : ∀ high low b rest bs, [high, low].map lower = Hex.pair b → hex.decode rest = .ok bs →
    hex.decode (high :: low :: rest) = .ok (b :: bs)
  first : ∀ high low rest, rest.length % 2 = 0 → ¬ IsDigit high →
    hex.decode (high :: low :: rest) = .error (.invalidHexCharacter (Char.ofNat high.toNat) 0)
  second : ∀ high low rest, rest.length % 2 = 0 → IsDigit high → ¬ IsDigit low →
    hex.decode (high :: low :: rest) = .error (.invalidHexCharacter (Char.ofNat low.toNat) 1)
  later : ∀ high low b rest c index, [high, low].map lower = Hex.pair b →
    hex.decode rest = .error (.invalidHexCharacter c index) →
    hex.decode (high :: low :: rest) = .error (.invalidHexCharacter c (index + 2))

namespace Lawful

variable {hex : Codec}

theorem decode_digits (lawful : hex.Lawful) {text bs : Bytes}
    (spelled : text.map lower = digits bs) : hex.decode text = .ok bs := by
  induction bs generalizing text with
  | nil =>
    obtain rfl : text = [] := List.map_eq_nil_iff.mp spelled
    exact lawful.empty
  | cons b bs ih =>
    rw [digits_cons, Hex.pair] at spelled
    obtain ⟨high, after, rfl, first, others⟩ := List.map_eq_cons_iff.mp spelled
    obtain ⟨low, rest, rfl, second, others⟩ := List.map_eq_cons_iff.mp others
    have two : [high, low].map lower = Hex.pair b := by
      rw [List.map_cons, List.map_singleton, first, second, Hex.pair]
    exact lawful.pair high low b rest bs two (ih others)

theorem decode_fault (lawful : hex.Lawful) {text : Bytes} {index : Nat} {b : UInt8}
    (even : text.length % 2 = 0) (first : FirstFault text index b) :
    hex.decode text = .error (.invalidHexCharacter (Char.ofNat b.toNat) index) := by
  induction index using Nat.twoStepInduction generalizing text with
  | zero =>
    match text, even, first with
    | high :: low :: rest, even, first =>
      rw [List.length_cons, List.length_cons] at even
      obtain rfl : high = b := Option.some.inj first.found
      exact lawful.first high low rest (by omega) first.fault
  | one =>
    match text, even, first with
    | high :: low :: rest, even, first =>
      rw [List.length_cons, List.length_cons] at even
      obtain rfl : low = b := Option.some.inj first.found
      have digit := first.before high List.mem_cons_self
      exact lawful.second high low rest (by omega) digit first.fault
  | more index ih _ =>
    match text, even, first with
    | high :: low :: rest, even, first =>
      rw [List.length_cons, List.length_cons] at even
      obtain ⟨digit, digit', before⟩ : IsDigit high ∧ IsDigit low ∧
          ∀ d ∈ rest.take index, IsDigit d := by
        simpa only [List.take_succ_cons, List.forall_mem_cons] using first.before
      obtain ⟨b', spelled⟩ := exists_pair digit digit'
      have found := ih (by omega) ⟨first.found, first.fault, before⟩
      exact lawful.later high low b' rest _ index spelled found

end Lawful

end Codec

theorem lt_of_toLower {c : Char} (member : c.toLower ∈ alphabet) : c.toNat < 0x80 := by
  have ascii : alphabet.all (·.toNat < 0x80) = true := by decide
  unfold Char.toLower at member
  split at member
  · next upper =>
    have below : c.toNat ≤ 90 := upper.2
    omega
  · exact of_decide_eq_true (List.all_eq_true.mp ascii c member)

theorem map_lower_encode {cs : List Char} (ascii : ∀ c ∈ cs, c.toNat < 0x80) :
    (cs.flatMap String.utf8EncodeChar).map lower = cs.map Char.toLower := by
  have single : ∀ c ∈ cs, (String.utf8EncodeChar c).map lower = [c.toLower] := by
    intro c member
    have small := ascii c member
    have value : (UInt8.ofNat c.toNat).toNat = c.toNat := by
      rw [UInt8.toNat_ofNat']
      omega
    rw [Utf8.encodeChar_of_ascii small, List.map_singleton, lower, value, Char.ofNat_toNat]
  rw [List.map_flatMap, List.flatMap_congr single, ← List.map_eq_flatMap]

theorem map_lower_encode_eq_iff {core : String} {bs : Bytes} :
    (Utf8.encode core).map lower = digits bs ↔ core.toList.map Char.toLower = digits bs := by
  by_cases ascii : ∀ c ∈ core.toList, c.toNat < 0x80
  · rw [Utf8.encode, map_lower_encode ascii]
  · -- a character outside ASCII is no digit, and neither is any of its bytes
    simp only [not_forall, not_lt] at ascii
    obtain ⟨c, member, outside⟩ := ascii
    refine iff_of_false ?_ ?_
    · intro spelled
      obtain ⟨b, inside⟩ := List.exists_mem_of_ne_nil _ (String.utf8EncodeChar_ne_nil (c := c))
      have high := Utf8.high_of_mem_encode outside inside
      have shown : lower b ∈ digits bs := by
        rw [← spelled]
        exact List.mem_map_of_mem (List.mem_flatMap.mpr ⟨c, member, inside⟩)
      have low := lt_of_isDigit b (isDigit_of_lower b (digits_subset_alphabet bs shown))
      omega
    · intro spelled
      have shown : c.toLower ∈ digits bs := by
        rw [← spelled]
        exact List.mem_map_of_mem member
      have low := lt_of_toLower (digits_subset_alphabet bs shown)
      omega

end ClearSign.Hex
