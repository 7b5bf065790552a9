import ClearSign.Proofs.Canonical.Wire

namespace ClearSign

namespace Varint

def Continues (b : UInt8) : Prop :=
  128 ≤ b.toNat

instance : DecidablePred Continues := fun b => inferInstanceAs (Decidable (128 ≤ b.toNat))

/-- Why no varint is read from these bytes. -/
inductive Refused (context : String) : Bytes → DecodeError → Prop
  | ended (bs : Bytes) (few : bs.length < 5) (continues : ∀ b ∈ bs, Continues b) :
      Refused context bs (.unexpectedEnd context)
  | overflow (front rest : Bytes) (b : UInt8) (fifth : front.length = 4)
      (continues : ∀ x ∈ front, Continues x) (large : 0x0F < b.toNat % 128) :
      Refused context (front ++ b :: rest) (.varintOverflow context)
  | tooLong (front rest : Bytes) (b : UInt8) (fifth : front.length = 4)
      (continues : ∀ x ∈ front, Continues x) (further : Continues b)
      (small : b.toNat % 128 ≤ 0x0F) :
      Refused context (front ++ b :: rest) (.varintTooLong context)
  | padded (front rest : Bytes) (later : 1 ≤ front.length) (inside : front.length ≤ 4)
      (continues : ∀ x ∈ front, Continues x) :
      Refused context (front ++ 0 :: rest) (.nonCanonicalVarint context)

variable {context : String} {e : DecodeError}

theorem readDigits_continues {room max : Nat} {first : Bool} {b : UInt8} {bs : Bytes}
    (continues : Continues b) (fits : b.toNat % 128 ≤ max) :
    (readDigits context (room + 1) max first (b :: bs)).1 = .error e ↔
      (readDigits context room (max / 128) false bs).1 = .error e := by
  have further : 128 ≤ b.toNat := continues
  simp only [readDigits, Read.bind_apply, Read.byte]
  rw [if_neg (by omega), if_pos further, Read.bind_apply]
  cases readDigits context room (max / 128) false bs with
  | mk result rest => cases result <;> simp

/-- Digits that others follow use up room and bound, and fail only by what stands behind them. -/
theorem readDigits_front {room max total : Nat} {first : Bool} {front bs : Bytes}
    (continues : ∀ b ∈ front, Continues b) (wide : 128 ^ front.length ≤ max + 1)
    (places : total = front.length + room) :
    (readDigits context total max first (front ++ bs)).1 = .error e ↔
      (readDigits context room (max / 128 ^ front.length) (first && front.isEmpty) bs).1 =
        .error e := by
  induction front generalizing max total first with
  | nil => simp [places]
  | cons b front ih =>
    obtain ⟨further, others⟩ := List.forall_mem_cons.mp continues
    rw [List.length_cons, Nat.pow_succ] at wide
    have positive : 0 < 128 ^ front.length := Nat.pow_pos (by decide)
    have split : total = (front.length + room) + 1 := by
      rw [places, List.length_cons]
      omega
    have higher : 128 ^ front.length ≤ max / 128 + 1 := by omega
    rw [split, List.cons_append, readDigits_continues further (by omega),
      ih others higher rfl, Nat.div_div_eq_div_mul, List.length_cons, Nat.pow_succ, Nat.mul_comm]
    simp

theorem readDigits_last_ok {room max : Nat} {first : Bool} {b : UInt8} {rest : Bytes}
    (last : ¬ Continues b) (fits : b.toNat ≤ max) (positive : first = false → b ≠ 0) :
    readDigits context (room + 1) max first (b :: rest) = (.ok b.toNat, rest) := by
  have small : b.toNat < 128 := Nat.lt_of_not_le last
  have nonzero : first = false → 0 < b.toNat := by
    intro later
    refine Nat.pos_of_ne_zero fun zero => positive later ?_
    exact UInt8.toNat_inj.mp zero
  have read := @readDigits_last room max b.toNat first small fits nonzero context rest
  rwa [UInt8.ofNat_toNat] at read

theorem fails_of_refused {bs : Bytes} (refused : Refused context bs e) :
    (readDigits context 5 (UInt32.size - 1) true bs).1 = .error e := by
  have wide {n : Nat} (few : n ≤ 4) : 128 ^ n ≤ UInt32.size - 1 + 1 :=
    Nat.le_trans (Nat.pow_le_pow_right (by decide) few) (by decide)
  cases refused with
  | ended _ few continues =>
    have behind := @readDigits_front context (.unexpectedEnd context) (5 - bs.length)
      (UInt32.size - 1) 5 true bs [] continues (wide (by omega)) (by omega)
    rw [List.append_nil] at behind
    obtain ⟨room, more⟩ : ∃ room, 5 - bs.length = room + 1 := ⟨4 - bs.length, by omega⟩
    rw [behind, more]
    rfl
  | overflow front rest b fifth continues large =>
    rw [readDigits_front continues (wide (by omega)) (by omega : 5 = front.length + 1), fifth]
    simp only [readDigits, Read.bind_apply, Read.byte]
    rw [if_pos (Nat.lt_of_le_of_lt (by decide) large)]
    rfl
  | tooLong front rest b fifth continues further small =>
    rw [readDigits_front continues (wide (by omega)) (by omega : 5 = front.length + 1), fifth,
      readDigits_continues further (Nat.le_trans small (by decide))]
    rfl
  | padded front rest later inside continues =>
    obtain ⟨room, more⟩ : ∃ room, 5 = front.length + (room + 1) := ⟨4 - front.length, by omega⟩
    have present : front.isEmpty = false := by
      cases front with
      | nil => cases later
      | cons x front => rfl
    rw [readDigits_front continues (wide inside) more, present]
    rfl

theorem exists_front (limit : Nat) (bs : Bytes) :
    ∃ front tail, bs = front ++ tail ∧ (∀ b ∈ front, Continues b) ∧ front.length ≤ limit ∧
      (front.length = limit ∨ ∀ b ∈ tail.head?, ¬ Continues b) := by
  induction limit generalizing bs with
  | zero => exact ⟨[], bs, rfl, by simp, Nat.le_refl 0, .inl rfl⟩
  | succ limit ih =>
    cases bs with
    | nil => exact ⟨[], [], rfl, by simp, Nat.zero_le _, .inr (by simp)⟩
    | cons b bs =>
      by_cases further : Continues b
      · obtain ⟨front, tail, rfl, continues, few, stop⟩ := ih bs
        refine ⟨b :: front, tail, rfl, List.forall_mem_cons.mpr ⟨further, continues⟩, ?_, ?_⟩
        · simpa using few
        · simpa using stop
      · exact ⟨[], b :: bs, rfl, by simp, Nat.zero_le _, .inr (by simpa using further)⟩

end Varint

namespace Read

open Varint (Refused Continues)

variable {context : String} {e : DecodeError} {bs rest : Bytes}

theorem varint_eq_error_iff_digits :
    varint context bs = (.error e, rest) ↔
      rest = bs ∧ (Varint.readDigits context 5 (UInt32.size - 1) true bs).1 = .error e := by
  have digits : (∃ mid, Varint.readDigits context 5 (UInt32.size - 1) true bs = (.error e, mid)) ↔
      (Varint.readDigits context 5 (UInt32.size - 1) true bs).1 = .error e :=
    ⟨fun ⟨_, failed⟩ => by rw [failed], fun failed => ⟨_, Prod.ext failed rfl⟩⟩
  rw [← digits]
  exact atomically_eq_error_iff.trans (and_congr_right fun _ => exists_congr fun _ =>
    map_eq_error_iff)

theorem encode_of_last {front tail : Bytes} {b : UInt8} (continues : ∀ x ∈ front, Continues x)
    (few : front.length ≤ 4) (last : ¬ Continues b) (fits : front.length = 4 → b.toNat ≤ 0x0F)
    (positive : front ≠ [] → b ≠ 0) : ∃ n, Varint.encode n <+: front ++ b :: tail := by
  have small : b.toNat < 128 := Nat.lt_of_not_le last
  have wide : 128 ^ front.length ≤ UInt32.size - 1 + 1 :=
    Nat.le_trans (Nat.pow_le_pow_right (by decide) few) (by decide)
  have bounded : b.toNat ≤ (UInt32.size - 1) / 128 ^ front.length := by
    by_cases fifth : front.length = 4
    · rw [fifth]
      exact fits fifth
    · have shorter : 128 ^ front.length ≤ 128 ^ 3 := Nat.pow_le_pow_right (by decide) (by omega)
      have room : (UInt32.size - 1) / 128 ^ 3 ≤ (UInt32.size - 1) / 128 ^ front.length :=
        Nat.div_le_div_left shorter (Nat.pow_pos (by decide))
      exact Nat.le_trans (by simp; omega) room
  obtain ⟨room, places⟩ : ∃ room, 5 = front.length + (room + 1) := ⟨4 - front.length, by omega⟩
  have later : (true && front.isEmpty) = false → b ≠ 0 := by
    intro others
    exact positive (by simpa using others)
  cases read : varint "" (front ++ b :: tail) with
  | mk result left =>
    cases result with
    | ok n =>
      obtain ⟨-, spelled⟩ := (varint_accepts "" _ n left).mp read
      exact ⟨n, spelled ▸ List.prefix_append _ _⟩
    | error e =>
      have failed := (varint_eq_error_iff_digits.mp read).2
      rw [Varint.readDigits_front continues wide places,
        Varint.readDigits_last_ok last bounded later] at failed
      cases failed

theorem accepted_or_refused (context : String) (bs : Bytes) :
    (∃ n, Varint.encode n <+: bs) ∨ ∃ e, Refused context bs e := by
  obtain ⟨front, tail, rfl, continues, few, stop⟩ := Varint.exists_front 4 bs
  cases tail with
  | nil =>
    rw [List.append_nil]
    exact .inr ⟨_, .ended front (by omega) continues⟩
  | cons b rest =>
    by_cases large : front.length = 4 ∧ 0x0F < b.toNat % 128
    · exact .inr ⟨_, .overflow front rest b large.1 continues large.2⟩
    · by_cases further : Continues b
      · have fifth : front.length = 4 := stop.resolve_right fun last => last b rfl further
        exact .inr ⟨_, .tooLong front rest b fifth continues further (by omega)⟩
      · by_cases zero : b = 0 ∧ front ≠ []
        · obtain ⟨rfl, others⟩ := zero
          exact .inr ⟨_, .padded front rest (List.length_pos_iff.mpr others) few continues⟩
        · have small : b.toNat < 128 := Nat.lt_of_not_le further
          refine .inl (encode_of_last continues few further ?_ ?_)
          · intro fifth
            omega
          · rintro others rfl
            exact zero ⟨rfl, others⟩

theorem varint_eq_error_iff :
    varint context bs = (.error e, rest) ↔ rest = bs ∧ Refused context bs e := by
  constructor
  · intro failed
    obtain ⟨unread, -⟩ := varint_eq_error_iff_digits.mp failed
    refine ⟨unread, ?_⟩
    obtain ⟨n, tail, rfl⟩ | ⟨e', refused⟩ := accepted_or_refused context bs
    · rw [varint_encode] at failed
      cases failed
    · have failed' := varint_eq_error_iff_digits.mpr ⟨rfl, Varint.fails_of_refused refused⟩
      rw [failed] at failed'
      cases failed'
      exact refused
  · rintro ⟨rfl, refused⟩
    exact varint_eq_error_iff_digits.mpr ⟨rfl, Varint.fails_of_refused refused⟩

end Read

end ClearSign
