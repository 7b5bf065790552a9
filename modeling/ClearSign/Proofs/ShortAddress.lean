import ClearSign.Address

namespace ClearSign

namespace Hex

theorem eq_of_digit_eq : ∀ m < 16, ∀ n < 16, digit m = digit n → m = n := by
  decide

theorem digit_inj {m n : Nat} (small : m < 16) (small' : n < 16) (same : digit m = digit n) :
    m = n :=
  eq_of_digit_eq m small n small' same

theorem halves_lt (b : UInt8) : b.toNat / 16 < 16 ∧ b.toNat % 16 < 16 := by
  have := b.toNat_lt
  omega

theorem ofNat_halves (b : UInt8) : UInt8.ofNat (16 * (b.toNat / 16) + b.toNat % 16) = b := by
  rw [Nat.div_add_mod, UInt8.ofNat_toNat]

theorem pair_inj {b c : UInt8} (same : pair b = pair c) : b = c := by
  obtain ⟨high, rest⟩ := List.cons.inj same
  obtain ⟨low, -⟩ := List.cons.inj rest
  have high := digit_inj (halves_lt b).1 (halves_lt c).1 high
  have low := digit_inj (halves_lt b).2 (halves_lt c).2 low
  rw [← ofNat_halves b, high, low, ofNat_halves]

theorem digits_cons (b : UInt8) (bs : Bytes) : digits (b :: bs) = pair b ++ digits bs :=
  List.flatMap_cons

theorem digits_append (bs cs : Bytes) : digits (bs ++ cs) = digits bs ++ digits cs :=
  List.flatMap_append

theorem length_digits (bs : Bytes) : (digits bs).length = 2 * bs.length := by
  induction bs with
  | nil => rfl
  | cons b bs ih =>
    rw [digits_cons, List.length_append, ih, List.length_cons]
    simp only [pair, List.length_cons, List.length_nil]
    omega

theorem digits_replicate_zero (count : Nat) :
    digits (List.replicate count 0) = List.replicate (2 * count) '0' := by
  induction count with
  | zero => rfl
  | succ count ih =>
    have zero : pair 0 = ['0', '0'] := by decide
    rw [List.replicate_succ, digits_cons, zero, ih]
    rfl

def alphabet : List Char :=
  "0123456789abcdef".toList

theorem digit_mem_alphabet : ∀ n < 16, digit n ∈ alphabet := by
  decide

theorem digits_subset_alphabet (bs : Bytes) : digits bs ⊆ alphabet := by
  intro c member
  obtain ⟨b, -, inside⟩ := List.mem_flatMap.mp member
  simp only [pair, List.mem_cons, List.not_mem_nil, or_false] at inside
  rcases inside with rfl | rfl
  · exact digit_mem_alphabet _ (halves_lt b).1
  · exact digit_mem_alphabet _ (halves_lt b).2

theorem digits_inj {bs cs : Bytes} (same : digits bs = digits cs) : bs = cs := by
  induction bs generalizing cs with
  | nil =>
    cases cs with
    | nil => rfl
    | cons c cs => cases same
  | cons b bs ih =>
    cases cs with
    | nil => cases same
    | cons c cs =>
      rw [digits_cons, digits_cons] at same
      obtain ⟨first, rest⟩ := List.append_inj same rfl
      rw [pair_inj first, ih rest]

theorem colon_notMem_digits (bs : Bytes) : ':' ∉ digits bs := by
  intro member
  have listed : ':' ∈ alphabet := digits_subset_alphabet bs member
  exact absurd listed (by decide)

end Hex

namespace Address

theorem exists_zeros (bs : Bytes) :
    ∃ count, bs = List.replicate count 0 ++ significant bs := by
  induction bs with
  | nil => exact ⟨0, rfl⟩
  | cons b bs ih =>
    cases bs with
    | nil => exact ⟨0, rfl⟩
    | cons next rest =>
      by_cases zero : b = 0
      · obtain ⟨count, split⟩ := ih
        refine ⟨count + 1, ?_⟩
        rw [significant, if_pos zero, List.replicate_succ, List.cons_append, ← split, zero]
      · refine ⟨0, ?_⟩
        rw [significant, if_neg zero, List.replicate_zero, List.nil_append]

theorem length_significant_le (bs : Bytes) : (significant bs).length ≤ bs.length := by
  obtain ⟨count, split⟩ := exists_zeros bs
  have width := congrArg List.length split
  rw [List.length_append] at width
  omega

theorem significant_ne_nil {bs : Bytes} (present : bs ≠ []) : significant bs ≠ [] := by
  induction bs with
  | nil => exact absurd rfl present
  | cons b bs ih =>
    cases bs with
    | nil => exact List.cons_ne_nil _ _
    | cons next rest =>
      by_cases zero : b = 0
      · rw [significant, if_pos zero]
        exact ih (List.cons_ne_nil _ _)
      · rw [significant, if_neg zero]
        exact List.cons_ne_nil _ _

theorem rest_eq_nil_of_significant {bs rest : Bytes} (kept : significant bs = 0 :: rest) :
    rest = [] := by
  induction bs with
  | nil => cases kept
  | cons b bs ih =>
    cases bs with
    | nil => exact (List.cons.inj kept).2.symm
    | cons next tail =>
      by_cases zero : b = 0
      · rw [significant, if_pos zero] at kept
        exact ih kept
      · rw [significant, if_neg zero] at kept
        exact absurd (List.cons.inj kept).1 zero

theorem bytes_ne_nil (a : Address) : a.bytes ≠ [] := by
  intro empty
  have width := a.length_bytes
  rw [empty] at width
  cases width

theorem leftpad_digits_significant (a : Address) :
    (Hex.digits (significant a.bytes)).leftpad 64 '0' = Hex.digits a.bytes := by
  obtain ⟨count, split⟩ := exists_zeros a.bytes
  have width := a.length_bytes
  rw [split, List.length_append, List.length_replicate] at width
  have missing : 64 - (Hex.digits (significant a.bytes)).length = 2 * count := by
    rw [Hex.length_digits]
    omega
  calc (Hex.digits (significant a.bytes)).leftpad 64 '0'
      = List.replicate (2 * count) '0' ++ Hex.digits (significant a.bytes) := by
        rw [List.leftpad, missing]
    _ = Hex.digits (List.replicate count 0 ++ significant a.bytes) := by
        rw [Hex.digits_append, Hex.digits_replicate_zero]
    _ = Hex.digits a.bytes := by rw [← split]

theorem zeros_isPrefix_iff (a : Address) :
    ['0', '0'] <+: Hex.digits (significant a.bytes) ↔ a = .zero := by
  constructor
  · intro zeros
    obtain ⟨b, rest, kept⟩ := List.exists_cons_of_ne_nil (significant_ne_nil a.bytes_ne_nil)
    obtain ⟨more, shown⟩ := zeros
    rw [kept, Hex.digits_cons] at shown
    have first : Hex.pair 0 = Hex.pair b := (List.append_inj shown rfl).1
    obtain rfl := Hex.pair_inj first
    obtain rfl := rest_eq_nil_of_significant kept
    obtain ⟨count, split⟩ := exists_zeros a.bytes
    have width := a.length_bytes
    rw [split, kept, List.length_append, List.length_replicate] at width
    obtain rfl : count = 31 := Nat.add_right_cancel width
    obtain ⟨bytes, _⟩ := a
    rw [kept] at split
    subst split
    rfl
  · rintro rfl
    decide

theorem significant_inj {bs cs : Bytes} (width : bs.length = cs.length)
    (same : significant bs = significant cs) : bs = cs := by
  obtain ⟨count, split⟩ := exists_zeros bs
  obtain ⟨count', split'⟩ := exists_zeros cs
  rw [split, split', same, List.length_append, List.length_append, List.length_replicate,
    List.length_replicate] at width
  rw [split, split', same, Nat.add_right_cancel width]

theorem shortText_inj {a b : Address} : a.shortText = b.shortText ↔ a = b := by
  constructor
  · intro same
    have digits := List.cons.inj (List.cons.inj same).2
    have bytes := significant_inj (a.length_bytes.trans b.length_bytes.symm)
      (Hex.digits_inj digits.2)
    obtain ⟨bytes, width⟩ := a
    subst bytes
    rfl
  · rintro rfl
    rfl

theorem ofList_marked (ds : List Char) :
    String.ofList ('0' :: 'x' :: ds) = "0x" ++ String.ofList ds := by
  have mark : "0x" = String.ofList ['0', 'x'] := rfl
  rw [mark, ← String.ofList_append]
  rfl

theorem short_eq (a : Address) :
    a.short = "0x" ++ String.ofList (Hex.digits (significant a.bytes)) :=
  ofList_marked _

theorem full_eq (a : Address) : a.full = "0x" ++ String.ofList (Hex.digits a.bytes) :=
  ofList_marked _

theorem short_inj {a b : Address} : a.short = b.short ↔ a = b := by
  rw [short, short, String.ofList_inj, shortText_inj]

theorem colon_notMem_shortText (a : Address) : ':' ∉ a.shortText := by
  intro member
  simp only [shortText, List.mem_cons] at member
  rcases member with zero | cross | inside
  · cases zero
  · cases cross
  · exact Hex.colon_notMem_digits _ inside

/-- The short form loses nothing. It has two to 64 lowercase digits, two for each byte, and filled
up with zeros they are the 64 digits of the full form. They start with two zeros for the zero
address alone. Thus no two addresses share a short form. -/
theorem short_form_keeps_address :
    (∀ a : Address, ∃ digits : List Char,
      a.short = "0x" ++ String.ofList digits ∧
      a.full = "0x" ++ String.ofList (digits.leftpad 64 '0') ∧
      (digits.leftpad 64 '0').length = 64 ∧
      2 ∣ digits.length ∧ 2 ≤ digits.length ∧ digits.length ≤ 64 ∧
      digits ⊆ "0123456789abcdef".toList ∧
      (['0', '0'] <+: digits ↔ a = .zero)) ∧
    ∀ a b : Address, a.short = b.short ↔ a = b := by
  refine ⟨?_, fun _ _ => short_inj⟩
  intro a
  have positive : 0 < (significant a.bytes).length :=
    List.length_pos_iff.mpr (significant_ne_nil a.bytes_ne_nil)
  have bounded : (significant a.bytes).length ≤ 32 :=
    a.length_bytes ▸ length_significant_le a.bytes
  refine ⟨Hex.digits (significant a.bytes), a.short_eq, ?_, ?_, ?_, ?_, ?_,
    Hex.digits_subset_alphabet _, a.zeros_isPrefix_iff⟩
  · rw [leftpad_digits_significant, full_eq]
  · rw [leftpad_digits_significant, Hex.length_digits, a.length_bytes]
  all_goals
    rw [Hex.length_digits]
  · exact Nat.dvd_mul_right 2 _
  · omega
  · omega

example : (⟨List.replicate 30 0 ++ [0xab, 0], by decide⟩ : Address).short = "0xab00" := by
  decide

end Address

end ClearSign
