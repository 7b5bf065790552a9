import ClearSign.Proofs.Atomicity
import ClearSign.Proofs.Canonical.Varint

namespace ClearSign

namespace Varint

/-- The bytes write the number in base 128, the least significant digit first: another digit follows
wherever the top bit is set. The last digits may be zero. -/
inductive Denotes : Bytes → Nat → Prop
  | last (b : UInt8) (last : ¬ Continues b) : Denotes [b] b.toNat
  | more (b : UInt8) (bs : Bytes) (n : Nat) (further : Continues b) (higher : Denotes bs n) :
      Denotes (b :: bs) (b.toNat % 128 + 128 * n)

theorem length_digits_pos (more n : Nat) : 1 ≤ (digits more n).length := by
  cases more with
  | zero => exact Nat.le_refl 1
  | succ more =>
    rw [digits]
    split <;> simp

theorem length_digits_le (more n : Nat) : (digits more n).length ≤ more + 1 := by
  induction more generalizing n with
  | zero => exact Nat.le_refl 1
  | succ more ih =>
    rw [digits]
    split
    · simp
    · exact Nat.succ_le_succ (ih (n / 128))

theorem denotes_digits {more n : Nat} (fits : n < 128 ^ (more + 1)) :
    Denotes (digits more n) n := by
  have single {m : Nat} (small : m < 128) : Denotes [UInt8.ofNat m] m := by
    have value : (UInt8.ofNat m).toNat = m := by
      rw [UInt8.toNat_ofNat']
      omega
    have last : ¬ Continues (UInt8.ofNat m) := by
      rw [Continues, value]
      omega
    simpa only [value] using Denotes.last (UInt8.ofNat m) last
  induction more generalizing n with
  | zero => exact single fits
  | succ more ih =>
    rw [digits]
    split
    · next small => exact single small
    · rw [Nat.pow_succ] at fits
      have value : (UInt8.ofNat (n % 128 + 128)).toNat = n % 128 + 128 := by
        rw [UInt8.toNat_ofNat']
        omega
      have further : Continues (UInt8.ofNat (n % 128 + 128)) := by
        rw [Continues, value]
        omega
      have digit := Denotes.more _ _ (n / 128) further (ih (by omega))
      rwa [value, show (n % 128 + 128) % 128 + 128 * (n / 128) = n by omega] at digit

theorem Denotes.length_digits_le {bs : Bytes} {n : Nat} (denotes : Denotes bs n) (more : Nat) :
    (digits more n).length ≤ bs.length := by
  induction denotes generalizing more with
  | last b last =>
    have small : b.toNat < 128 := Nat.lt_of_not_le last
    cases more with
    | zero => exact Nat.le_refl 1
    | succ more => simp [digits, small]
  | more b bs n further higher ih =>
    cases more with
    | zero => simp [digits]
    | succ more =>
      rw [digits]
      split
      · simp
      · rw [show (b.toNat % 128 + 128 * n) / 128 = n by omega]
        exact Nat.succ_le_succ (ih more)

theorem fill?_digits {more n : Nat} {front back : Bytes} (fits : n < 128 ^ (more + 1))
    (room : (digits more n).length ≤ back.length) :
    fill? (front ++ back) front.length n =
      some (front ++ (digits more n ++ back.drop (digits more n).length),
        front.length + (digits more n).length) := by
  induction more generalizing n front back with
  | zero =>
    cases back with
    | nil => cases room
    | cons x back =>
      have small : n < 128 := fits
      rw [fill?, if_pos (by simp), if_pos small, Bytes.set_append_cons]
      rfl
  | succ more ih =>
    cases back with
    | nil => exact absurd (Nat.le_trans (length_digits_pos _ n) room) (by simp)
    | cons x back =>
      rw [fill?, if_pos (by simp), Bytes.set_append_cons, Bytes.set_append_cons]
      rw [digits] at room ⊢
      split
      · rfl
      · next big =>
        rw [if_neg big, List.length_cons, List.length_cons] at room
        rw [Nat.pow_succ] at fits
        have placed := @ih (n / 128) (front ++ [UInt8.ofNat (n % 128 + 128)]) back (by omega)
          (by omega)
        rw [List.length_append, List.append_assoc, List.append_assoc] at placed
        simp only [List.length_singleton, List.singleton_append] at placed
        rw [placed]
        simp only [List.cons_append, List.length_cons, List.drop_succ_cons]
        rw [Nat.add_right_comm, Nat.add_assoc]

theorem write?_eq (n : UInt32) : write? n = some (encode n) := by
  have small : n.toNat < 128 ^ (4 + 1) := Nat.lt_trans n.toNat_lt (by decide)
  have placed := @fill?_digits 4 n.toNat [] (List.replicate Limits.varintBytes 0) small
    (length_digits_le 4 n.toNat)
  rw [List.nil_append, List.length_nil, Nat.zero_add] at placed
  simp only [write?, placed, Option.map_some, List.nil_append, List.take_left]
  rfl

end Varint

open Varint

theorem Read.varint_atomic (context : String) : (Read.varint context).Atomic :=
  .atomically _

theorem varint_run_eq_error_iff {context : String} {c stop : Cursor}
    (inside : c.pos ≤ c.data.length) {e : DecodeError} :
    c.run (Read.varint context) = (.error e, stop) ↔
      stop = c ∧ Refused context c.remaining e := by
  rw [Cursor.run_eq_error_iff inside (Read.varint_atomic context), Read.varint_eq_error_iff,
    eq_self, true_and]

theorem varint_run_eq_ok_iff {context : String} {c : Cursor} (inside : c.pos ≤ c.data.length)
    {n : UInt32} {k : Nat} :
    c.run (Read.varint context) = (.ok n, ⟨c.data, c.pos + k⟩) ↔
      k = (encode n).length ∧ encode n <+: c.remaining := by
  rw [Cursor.run_eq_ok_iff_spelled (Read.varint_accepts context) inside, true_and, and_comm]
  simp only [Cursor.mk.injEq, true_and, Nat.add_left_cancel_iff]

/-- A varint is written as the shortest form of its number, in five bytes at most, and is read from
just the bytes that start so. All other bytes are refused: they end too early, the fifth byte has
bits for which there is no room or still a byte behind it, or a last digit of zero stands behind
others. Then the cursor stays where it was. -/
theorem varints_are_shortest_forms :
    (∀ n : UInt32, write? n = some (encode n) ∧ 1 ≤ (encode n).length ∧ (encode n).length ≤ 5 ∧
      Denotes (encode n) n.toNat ∧ ∀ bs, Denotes bs n.toNat → (encode n).length ≤ bs.length) ∧
    ∀ (context : String) (c : Cursor), c.pos ≤ c.data.length →
      (∀ n k, c.run (Read.varint context) = (.ok n, ⟨c.data, c.pos + k⟩) ↔
        k = (encode n).length ∧ encode n <+: c.remaining) ∧
      (c.run (Read.varint context) = (.error (.unexpectedEnd context), c) ↔
        c.remaining.length < 5 ∧ ∀ b ∈ c.remaining, Continues b) ∧
      (c.run (Read.varint context) = (.error (.varintOverflow context), c) ↔
        ∃ front b rest, c.remaining = front ++ b :: rest ∧ front.length = 4 ∧
          (∀ x ∈ front, Continues x) ∧ 0x0F < b.toNat % 128) ∧
      (c.run (Read.varint context) = (.error (.varintTooLong context), c) ↔
        ∃ front b rest, c.remaining = front ++ b :: rest ∧ front.length = 4 ∧
          (∀ x ∈ front, Continues x) ∧ Continues b ∧ b.toNat % 128 ≤ 0x0F) ∧
      (c.run (Read.varint context) = (.error (.nonCanonicalVarint context), c) ↔
        ∃ front rest, c.remaining = front ++ 0 :: rest ∧ 1 ≤ front.length ∧ front.length ≤ 4 ∧
          ∀ x ∈ front, Continues x) ∧
      ∀ e stop, c.run (Read.varint context) = (.error e, stop) → stop = c ∧
        e ∈ [.unexpectedEnd context, .varintOverflow context, .varintTooLong context,
          .nonCanonicalVarint context] := by
  constructor
  · intro n
    have small : n.toNat < 128 ^ (4 + 1) := Nat.lt_trans n.toNat_lt (by decide)
    exact ⟨write?_eq n, length_digits_pos 4 n.toNat, length_digits_le 4 n.toNat,
      denotes_digits small, fun bs denotes => denotes.length_digits_le 4⟩
  · intro context c inside
    refine ⟨fun n k => varint_run_eq_ok_iff inside, ?_⟩
    simp only [varint_run_eq_error_iff inside, true_and]
    generalize c.remaining = bs
    refine ⟨⟨?_, ?_⟩, ⟨?_, ?_⟩, ⟨?_, ?_⟩, ⟨?_, ?_⟩, ?_⟩
    · intro refused
      cases refused with
      | ended _ few continues => exact ⟨few, continues⟩
    · rintro ⟨few, continues⟩
      exact .ended bs few continues
    · intro refused
      cases refused with
      | overflow front rest b fifth continues large =>
        exact ⟨front, b, rest, rfl, fifth, continues, large⟩
    · rintro ⟨front, b, rest, rfl, fifth, continues, large⟩
      exact .overflow front rest b fifth continues large
    · intro refused
      cases refused with
      | tooLong front rest b fifth continues further small =>
        exact ⟨front, b, rest, rfl, fifth, continues, further, small⟩
    · rintro ⟨front, b, rest, rfl, fifth, continues, further, small⟩
      exact .tooLong front rest b fifth continues further small
    · intro refused
      cases refused with
      | padded front rest later inside continues =>
        exact ⟨front, rest, rfl, later, inside, continues⟩
    · rintro ⟨front, rest, rfl, later, inside, continues⟩
      exact .padded front rest later inside continues
    · rintro e stop ⟨rfl, refused⟩
      refine ⟨rfl, ?_⟩
      cases refused <;> simp

/-- The number 300 behind one byte, and a zero in two bytes. -/
theorem varints_are_shortest_forms_300 :
    write? 300 = some [0xAC, 0x02] ∧
      (encode 300).length ≤ [0xAC, 0x82, 0x00].length ∧
      (Cursor.mk [0xFF, 0xAC, 0x02, 0x80] 1).run (Read.varint "count") =
        (.ok 300, ⟨[0xFF, 0xAC, 0x02, 0x80], 1 + 2⟩) ∧
      (Cursor.start [0x80, 0x00]).run (Read.varint "count") =
        (.error (.nonCanonicalVarint "count"), Cursor.start [0x80, 0x00]) := by
  have written := varints_are_shortest_forms.1 300
  have padded : Denotes [0xAC, 0x82, 0x00] 300 :=
    .more 0xAC [0x82, 0x00] 2 (by decide) (.more 0x82 [0x00] 0 (by decide) (.last 0x00 (by decide)))
  have behind := varints_are_shortest_forms.2 "count" ⟨[0xFF, 0xAC, 0x02, 0x80], 1⟩ (by decide)
  have zero := varints_are_shortest_forms.2 "count" (Cursor.start [0x80, 0x00]) (by decide)
  refine ⟨written.1, written.2.2.2.2 _ padded, (behind.1 300 2).mpr ⟨rfl, by decide⟩, ?_⟩
  exact zero.2.2.2.2.1.mpr ⟨[0x80], [], rfl, by decide, by decide, by simp [Continues]⟩

end ClearSign
