import ClearSign.Message
import Mathlib

namespace ClearSign.Utf8

theorem continuation?_cons (count high low : Nat) (small : low < 64) (rest : Bytes) :
    continuation? (count + 1) high (UInt8.ofNat (low + 0x80) :: rest) =
      continuation? count (64 * high + low) rest := by
  have value : (UInt8.ofNat (low + 0x80)).toNat = low + 0x80 := by
    rw [UInt8.toNat_ofNat']
    omega
  rw [continuation?, value, if_pos (by omega), show (low + 0x80) % 64 = low by omega]

theorem eq_cons_of_continuation? {count high n : Nat} {bs rest : Bytes}
    (found : continuation? (count + 1) high bs = some (n, rest)) :
    ∃ low tail, low < 64 ∧ bs = UInt8.ofNat (low + 0x80) :: tail ∧
      continuation? count (64 * high + low) tail = some (n, rest) := by
  cases bs with
  | nil => cases found
  | cons b tail =>
    have := b.toNat_lt
    rw [continuation?] at found
    split at found
    · next follows =>
      refine ⟨b.toNat % 64, tail, by omega, ?_, found⟩
      rw [show b.toNat % 64 + 0x80 = b.toNat by omega, UInt8.ofNat_toNat]
    · cases found

theorem continuation?_zero {high n : Nat} {bs rest : Bytes} :
    continuation? 0 high bs = some (n, rest) ↔ high = n ∧ bs = rest := by
  simp [continuation?]

theorem toNat_lt (c : Char) : c.toNat < 0x110000 := by
  have := c.valid
  change c.val.toNat < _
  simp only [UInt32.isValidChar, Nat.isValidChar] at this
  omega

theorem encodeChar_eq (c : Char) :
    String.utf8EncodeChar c =
      if c.toNat < 0x80 then [UInt8.ofNat c.toNat]
      else if c.toNat < 0x800 then
        [UInt8.ofNat (c.toNat / 64 + 0xC0), UInt8.ofNat (c.toNat % 64 + 0x80)]
      else if c.toNat < 0x10000 then
        [UInt8.ofNat (c.toNat / 4096 + 0xE0), UInt8.ofNat (c.toNat / 64 % 64 + 0x80),
          UInt8.ofNat (c.toNat % 64 + 0x80)]
      else
        [UInt8.ofNat (c.toNat / 262144 + 0xF0), UInt8.ofNat (c.toNat / 4096 % 64 + 0x80),
          UInt8.ofNat (c.toNat / 64 % 64 + 0x80), UInt8.ofNat (c.toNat % 64 + 0x80)] := by
  have below := toNat_lt c
  have value : c.val.toNat = c.toNat := rfl
  simp only [String.utf8EncodeChar, value]
  by_cases one : c.toNat < 0x80
  · rw [if_pos one, if_pos (by omega)]
  · rw [if_neg one, if_neg (by omega)]
    by_cases two : c.toNat < 0x800
    · rw [if_pos two, if_pos (by omega), Nat.mod_eq_of_lt (by omega : c.toNat / 64 < 0x20)]
    · rw [if_neg two, if_neg (by omega)]
      by_cases three : c.toNat < 0x10000
      · rw [if_pos three, if_pos (by omega), Nat.mod_eq_of_lt (by omega : c.toNat / 4096 < 0x10)]
      · rw [if_neg three, if_neg (by omega),
          Nat.mod_eq_of_lt (by omega : c.toNat / 262144 < 0x08)]

theorem high_of_mem_encode {c : Char} {b : UInt8} (outside : 0x80 ≤ c.toNat)
    (member : b ∈ String.utf8EncodeChar c) : 0x80 ≤ b.toNat := by
  have below := toNat_lt c
  rw [encodeChar_eq, if_neg (by omega)] at member
  split at member
  · simp only [List.mem_cons, List.not_mem_nil, or_false] at member
    rcases member with rfl | rfl
    all_goals
      rw [UInt8.toNat_ofNat']
      omega
  · split at member
    · simp only [List.mem_cons, List.not_mem_nil, or_false] at member
      rcases member with rfl | rfl | rfl
      all_goals
        rw [UInt8.toNat_ofNat']
        omega
    · simp only [List.mem_cons, List.not_mem_nil, or_false] at member
      rcases member with rfl | rfl | rfl | rfl
      all_goals
        rw [UInt8.toNat_ofNat']
        omega

theorem value?_encode (c : Char) (rest : Bytes) :
    value? (String.utf8EncodeChar c ++ rest) = some (c.toNat, rest) := by
  have below := toNat_lt c
  have lead {n : Nat} (small : n < 256) : (UInt8.ofNat n).toNat = n := by
    rw [UInt8.toNat_ofNat']
    omega
  rw [encodeChar_eq]
  by_cases one : c.toNat < 0x80
  · rw [if_pos one, List.cons_append, value?, lead (by omega), if_pos one]
    rfl
  · rw [if_neg one]
    by_cases two : c.toNat < 0x800
    · rw [if_pos two, List.cons_append, value?, lead (by omega), if_neg (by omega),
        if_neg (by omega), if_pos (by omega), List.cons_append,
        continuation?_cons _ _ _ (by omega)]
      rw [show 64 * ((c.toNat / 64 + 0xC0) % 32) + c.toNat % 64 = c.toNat by omega]
      simp only [List.nil_append, continuation?, Option.filter_some, decide_eq_true_eq]
      rw [if_pos (by omega)]
    · rw [if_neg two]
      by_cases three : c.toNat < 0x10000
      · rw [if_pos three, List.cons_append, value?, lead (by omega), if_neg (by omega),
          if_neg (by omega), if_neg (by omega), if_pos (by omega), List.cons_append,
          continuation?_cons _ _ _ (by omega), List.cons_append,
          continuation?_cons _ _ _ (by omega)]
        rw [show 64 * (64 * ((c.toNat / 4096 + 0xE0) % 16) + c.toNat / 64 % 64) + c.toNat % 64 =
          c.toNat by omega]
        simp only [List.nil_append, continuation?, Option.filter_some, decide_eq_true_eq]
        rw [if_pos (by omega)]
      · rw [if_neg three, List.cons_append, value?, lead (by omega), if_neg (by omega),
          if_neg (by omega), if_neg (by omega), if_neg (by omega), if_pos (by omega),
          List.cons_append, continuation?_cons _ _ _ (by omega), List.cons_append,
          continuation?_cons _ _ _ (by omega), List.cons_append,
          continuation?_cons _ _ _ (by omega)]
        rw [show 64 * (64 * (64 * ((c.toNat / 262144 + 0xF0) % 8) + c.toNat / 4096 % 64) +
          c.toNat / 64 % 64) + c.toNat % 64 = c.toNat by omega]
        simp only [List.nil_append, continuation?, Option.filter_some, decide_eq_true_eq]
        rw [if_pos (by omega)]

theorem eq_encode_of_value? {bs rest : Bytes} {c : Char}
    (found : value? bs = some (c.toNat, rest)) : bs = String.utf8EncodeChar c ++ rest := by
  cases bs with
  | nil => cases found
  | cons b bs =>
    have := b.toNat_lt
    have lead {n : Nat} (same : b.toNat = n) : b = UInt8.ofNat n := by
      rw [← same, UInt8.ofNat_toNat]
    rw [encodeChar_eq]
    simp only [value?] at found
    split at found
    · next one =>
      obtain ⟨value, rfl⟩ := (by simpa using found : b.toNat = c.toNat ∧ bs = rest)
      rw [if_pos (by omega), ← lead value]
      rfl
    · split at found
      · cases found
      · split at found
        · obtain ⟨read, least⟩ := Option.filter_eq_some_iff.mp found
          obtain ⟨x, _, small_x, rfl, final⟩ := eq_cons_of_continuation? read
          obtain ⟨value, rfl⟩ := continuation?_zero.mp final
          rw [decide_eq_true_eq] at least
          rw [if_neg (by omega), if_pos (by omega),
            lead (by omega : b.toNat = c.toNat / 64 + 0xC0), show x = c.toNat % 64 by omega]
          rfl
        · split at found
          · obtain ⟨read, least⟩ := Option.filter_eq_some_iff.mp found
            obtain ⟨x, _, small_x, rfl, second⟩ := eq_cons_of_continuation? read
            obtain ⟨y, _, small_y, rfl, final⟩ := eq_cons_of_continuation? second
            obtain ⟨value, rfl⟩ := continuation?_zero.mp final
            rw [decide_eq_true_eq] at least
            rw [if_neg (by omega), if_neg (by omega), if_pos (by omega),
              lead (by omega : b.toNat = c.toNat / 4096 + 0xE0),
              show x = c.toNat / 64 % 64 by omega, show y = c.toNat % 64 by omega]
            rfl
          · split at found
            · obtain ⟨read, least⟩ := Option.filter_eq_some_iff.mp found
              obtain ⟨x, _, small_x, rfl, second⟩ := eq_cons_of_continuation? read
              obtain ⟨y, _, small_y, rfl, third⟩ := eq_cons_of_continuation? second
              obtain ⟨z, _, small_z, rfl, final⟩ := eq_cons_of_continuation? third
              obtain ⟨value, rfl⟩ := continuation?_zero.mp final
              rw [decide_eq_true_eq] at least
              rw [if_neg (by omega), if_neg (by omega), if_neg (by omega),
                lead (by omega : b.toNat = c.toNat / 262144 + 0xF0),
                show x = c.toNat / 4096 % 64 by omega, show y = c.toNat / 64 % 64 by omega,
                show z = c.toNat % 64 by omega]
              rfl
            · cases found

theorem scalar?_eq_some_iff {bs rest : Bytes} {c : Char} :
    scalar? bs = some (c, rest) ↔ bs = String.utf8EncodeChar c ++ rest := by
  unfold scalar?
  constructor
  · intro found
    cases read : value? bs with
    | none => simp [read] at found
    | some answer =>
      obtain ⟨n, tail⟩ := answer
      simp only [read] at found
      split at found
      · next valid =>
        obtain ⟨rfl, rfl⟩ := Prod.mk.inj (Option.some.inj found)
        have value : (Char.ofNat n).toNat = n := by
          rw [Char.toNat_ofNat, if_pos valid]
        exact eq_encode_of_value? (by rw [value, read])
      · cases found
  · rintro rfl
    have valid : c.toNat.isValidChar := c.valid
    simp only [value?_encode, if_pos valid, Char.ofNat_toNat]

theorem next?_eq_some_iff {bs rest : Bytes} {c : Char} :
    next? bs = some (c, rest) ↔
      isNoncharacter c = false ∧ bs = String.utf8EncodeChar c ++ rest := by
  unfold next?
  constructor
  · intro found
    cases read : scalar? bs with
    | none => simp [read] at found
    | some answer =>
      obtain ⟨d, tail⟩ := answer
      simp only [read] at found
      split at found
      · cases found
      · next character =>
        obtain ⟨rfl, rfl⟩ := Prod.mk.inj (Option.some.inj found)
        exact ⟨by simpa using character, scalar?_eq_some_iff.mp read⟩
  · intro spelled
    obtain ⟨character, rfl⟩ := spelled
    simp [scalar?_eq_some_iff.mpr rfl, character]

theorem lossy_encode (cs : List Char) : lossy (cs.flatMap String.utf8EncodeChar) = cs := by
  induction cs with
  | nil => rw [List.flatMap_nil, lossy]
  | cons c cs ih =>
    have found : scalar? ((c :: cs).flatMap String.utf8EncodeChar) =
        some (c, cs.flatMap String.utf8EncodeChar) :=
      scalar?_eq_some_iff.mpr List.flatMap_cons
    generalize (c :: cs).flatMap String.utf8EncodeChar = bs at found
    cases bs with
    | nil => cases found
    | cons b tail =>
      rw [lossy]
      split
      · next d rest other =>
        rw [found] at other
        cases other
        rw [ih]
      · next missing => simp [found] at missing

theorem encodeChar_of_ascii {c : Char} (ascii : c.toNat < 0x80) :
    String.utf8EncodeChar c = [UInt8.ofNat c.toNat] := by
  rw [encodeChar_eq, if_pos ascii]

end ClearSign.Utf8
