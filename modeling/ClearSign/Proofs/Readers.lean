import ClearSign.Proofs.PrefixedReads

/-!
Readers answer as reads of the unread bytes do, and come to stand where the bytes start that these
leave unread. This holds of any cursor inside of its buffer, if the places in the buffer are numbers
of 64 bits: then no sum of a position and a length wraps around unnoticed.
-/

namespace ClearSign

theorem Read.map_bind (f : β → γ) (r : Read α) (next : α → Read β) :
    f <$> (r >>= next) = r >>= fun a => f <$> next a := by
  funext bs
  change Read.andThen (Read.andThen r next) (fun b => pure (f b)) bs = _
  rw [Read.bind_apply]
  unfold Read.andThen
  cases r bs with
  | mk result rest => cases result <;> rfl

theorem Read.map_pure (f : α → β) (a : α) : f <$> (pure a : Read α) = pure (f a) := rfl

theorem Read.map_ite {p : Prop} [Decidable p] (f : α → β) (r s : Read α) :
    f <$> (if p then r else s) = if p then f <$> r else f <$> s :=
  apply_ite _ _ _ _

namespace Cursor

structure Inside (c : Cursor) : Prop where
  reached : c.pos ≤ c.data.length
  counted : c.data.length < UInt64.size

theorem run_remaining {c : Cursor} (inside : c.pos ≤ c.data.length) :
    (⟨c.data, c.data.length - c.remaining.length⟩ : Cursor) = c := by
  rw [length_remaining, Nat.sub_sub_self inside]

theorem remaining_run {r : Read α} (known : r.Local) (c : Cursor) :
    (c.run r).2.remaining = (r c.remaining).2 := by
  have passed := (known.suffix c.remaining).trans (List.drop_suffix c.pos c.data)
  exact (List.suffix_iff_eq_drop.mp passed).symm

theorem Inside.run {c : Cursor} (inside : c.Inside) (r : Read α) : (c.run r).2.Inside :=
  ⟨Nat.sub_le _ _, inside.counted⟩

end Cursor

namespace Reader

structure Follows (m : Reader α) (r : Read α) : Prop where
  known : r.Local
  agree : ∀ c : Cursor, c.Inside → m c = c.run r

namespace Follows

theorem pure (a : α) : (Pure.pure a : Reader α).Follows (Pure.pure a) where
  known := .pure a
  agree _ inside := congrArg (Prod.mk _) (Cursor.run_remaining inside.reached).symm

theorem fail (e : DecodeError) : (Reader.fail e : Reader α).Follows (Read.fail e) where
  known := .fail e
  agree _ inside := congrArg (Prod.mk _) (Cursor.run_remaining inside.reached).symm

theorem bind {m : Reader α} {r : Read α} {next : α → Reader β} {next' : α → Read β}
    (first : m.Follows r) (second : ∀ a, (next a).Follows (next' a)) :
    (m >>= next).Follows (r >>= next') where
  known := first.known.bind fun a => (second a).known
  agree c inside := by
    have left := Cursor.remaining_run first.known c
    have stays := inside.run r
    rw [Reader.bind_apply, first.agree c inside]
    unfold Cursor.run at left stays ⊢
    rw [Read.bind_apply]
    cases read : r c.remaining with
    | mk result rest =>
      rw [read] at left stays
      dsimp only at left stays ⊢
      cases result with
      | ok a =>
        dsimp only
        rw [(second a).agree _ stays, Cursor.run, left]
      | error e => rfl

theorem map {m : Reader α} {r : Read α} (inner : m.Follows r) (f : α → β) :
    (f <$> m).Follows (f <$> r) :=
  inner.bind fun a => .pure (f a)

theorem ite_iff {m n : Reader α} {r s : Read α} {p q : Prop} [Decidable p] [Decidable q]
    (same : p ↔ q) (yes : m.Follows r) (no : n.Follows s) :
    (if p then m else n).Follows (if q then r else s) := by
  by_cases holds : q
  · rw [if_pos holds, if_pos (same.mpr holds)]
    exact yes
  · rw [if_neg holds, if_neg (mt same.mp holds)]
    exact no

theorem ite {m n : Reader α} {r s : Read α} {p : Prop} [Decidable p] (yes : m.Follows r)
    (no : n.Follows s) : (if p then m else n).Follows (if p then r else s) :=
  ite_iff Iff.rfl yes no

theorem ite_not {m n : Reader α} {r s : Read α} {p q : Prop} [Decidable p] [Decidable q]
    (other : p ↔ ¬ q) (yes : n.Follows r) (no : m.Follows s) :
    (if p then m else n).Follows (if q then r else s) := by
  by_cases holds : q
  · rw [if_pos holds, if_neg (mt other.mp (not_not_intro holds))]
    exact yes
  · rw [if_neg holds, if_pos (other.mpr holds)]
    exact no

theorem atomically {m : Reader α} {r : Read α} (inner : m.Follows r) :
    (Reader.atomically m).Follows (Read.atomically r) where
  known := inner.known.atomically
  agree c inside := by
    unfold Reader.atomically
    rw [inner.agree c inside]
    unfold Cursor.run Read.atomically
    cases r c.remaining with
    | mk result rest =>
      cases result with
      | ok a => rfl
      | error e => exact congrArg (Prod.mk _) (Cursor.run_remaining inside.reached).symm

end Follows

theorem byte_follows (context : String) : (byte context).Follows (Read.byte context) where
  known := Read.byte_local context
  agree c inside := by
    obtain ⟨before, after, rfl⟩ := Cursor.exists_between inside.reached
    have counted := inside.counted
    rw [Cursor.data_between, List.length_append] at counted
    rw [Cursor.run_between]
    unfold byte
    rw [Cursor.data_between, Cursor.pos_between, List.getElem?_append_right (Nat.le_refl _),
      Nat.sub_self]
    cases after with
    | nil =>
      simp [Read.byte, Cursor.between]
    | cons b after =>
      have next : wrappingAdd before.length 1 = (before ++ b :: after).length - after.length := by
        rw [List.length_cons] at counted
        rw [wrappingAdd, Nat.mod_eq_of_lt (by omega), List.length_append, List.length_cons]
        omega
      simp only [List.getElem?_cons_zero, next]
      rfl

theorem endOf?_eq {c : Cursor} (inside : c.Inside) (n : Nat) :
    endOf? c n = if n ≤ c.remaining.length then some (c.pos + n) else none := by
  have reached := inside.reached
  have counted := inside.counted
  rw [Cursor.length_remaining]
  unfold endOf? checkedAdd?
  by_cases enough : n ≤ c.data.length - c.pos
  · rw [if_pos enough, if_pos (by omega)]
    simp
    omega
  · rw [if_neg enough]
    split
    · simp
      omega
    · rfl

theorem block_follows (n : Nat) (context : String) :
    (block n context).Follows (Read.block n context) where
  known := Read.block_local n context
  agree c inside := by
    have place := endOf?_eq inside n
    have reached := inside.reached
    have left := c.length_remaining
    unfold block Cursor.run Read.block
    split
    · next stop found =>
      rw [place] at found
      split at found
      · next enough =>
        cases found
        rw [dif_pos enough]
        have taken : c.data.extract c.pos (c.pos + n) = c.remaining.take n := by
          rw [List.extract_eq_take_drop, Nat.add_sub_cancel_left]
          rfl
        have stop : c.pos + n = c.data.length - (c.remaining.drop n).length := by
          rw [List.length_drop]
          omega
        exact Prod.ext (congrArg Except.ok (Subtype.ext taken)) (congrArg (Cursor.mk c.data) stop)
      · cases found
    · next missing =>
      rw [place] at missing
      split at missing
      · cases missing
      · next short =>
        rw [dif_neg short]
        exact congrArg (Prod.mk _) (Cursor.run_remaining reached).symm

theorem bytes_follows (n : Nat) (context : String) :
    (bytes n context).Follows (Read.bytes n context) :=
  (block_follows n context).map _

theorem number_follows (width : Nat) (context : String) :
    (number width context).Follows (Read.number width context) :=
  (bytes_follows width context).map _

theorem bool_follows (context : String) : (bool context).Follows (Read.bool context) :=
  ((byte_follows context).bind fun _ => .ite (.pure _) (.ite (.pure _) (.fail _))).atomically

theorem address_follows (context : String) : (address context).Follows (Read.address context) :=
  (block_follows 32 context).map _

theorem toNat_and_7F : ∀ b : UInt8, (b &&& 0x7F).toNat = b.toNat % 128 :=
  forall_byte (by decide +kernel)

theorem and_80_eq_zero_iff : ∀ b : UInt8, b &&& 0x80 = 0 ↔ ¬ 128 ≤ b.toNat :=
  forall_byte (by decide +kernel)

theorem digit_eq_zero_iff (b : UInt8) : (b &&& 0x7F).toUInt64 = 0 ↔ b.toNat % 128 = 0 := by
  rw [← toNat_and_7F, ← UInt64.toNat_inj, UInt8.toNat_toUInt64]
  rfl

theorem toNat_or_shift {value : UInt64} {i : Nat} (place : i ≤ 4) (small : value.toNat < 128 ^ i)
    (b : UInt8) :
    (value ||| (b &&& 0x7F).toUInt64 <<< UInt64.ofNat (7 * i)).toNat =
      value.toNat + 128 ^ i * (b.toNat % 128) := by
  have power : 128 ^ i = 2 ^ (7 * i) := (pow_mul 2 7 i).symm
  have bound : 2 ^ (7 * i) ≤ 2 ^ 28 := Nat.pow_le_pow_right (by decide) (by omega)
  have digit : b.toNat % 128 < 128 := Nat.mod_lt _ (by decide)
  have shift : (UInt64.ofNat (7 * i)).toNat % 64 = 7 * i := by
    rw [UInt64.toNat_ofNat']
    omega
  have fits : (b.toNat % 128) * 2 ^ (7 * i) < 2 ^ 64 := by
    calc (b.toNat % 128) * 2 ^ (7 * i) ≤ 127 * 2 ^ 28 :=
          Nat.mul_le_mul (by omega) bound
      _ < 2 ^ 64 := by decide
  rw [power] at small ⊢
  rw [UInt64.toNat_or, UInt64.toNat_shiftLeft, UInt8.toNat_toUInt64, toNat_and_7F, shift,
    Nat.shiftLeft_eq, Nat.mod_eq_of_lt fits, Nat.mul_comm, Nat.or_comm,
    ← Nat.two_pow_add_eq_or_of_lt small, Nat.add_comm]

section Digit

variable {value value' : UInt64} {i : Nat} {b : UInt8}

theorem overflow_iff (place : i ≤ 4) (small : value.toNat < 128 ^ i)
    (sum : value'.toNat = value.toNat + 128 ^ i * (b.toNat % 128)) :
    0xFFFFFFFF < value' ↔ (UInt32.size - 1) / 128 ^ i < b.toNat % 128 := by
  have size : UInt32.size - 1 = 0xFFFFFFFF := rfl
  rw [UInt64.lt_iff_toNat_lt, sum, size]
  change 0xFFFFFFFF < _ ↔ _
  generalize value.toNat = n at small
  interval_cases i <;> omega

theorem lt_pow_succ (small : value.toNat < 128 ^ i)
    (sum : value'.toNat = value.toNat + 128 ^ i * (b.toNat % 128)) :
    value'.toNat < 128 ^ (i + 1) := by
  have digit : b.toNat % 128 ≤ 127 := Nat.le_of_lt_succ (Nat.mod_lt _ (by decide))
  calc value'.toNat < 128 ^ i + 128 ^ i * 127 := by
        rw [sum]
        exact Nat.add_lt_add_of_lt_of_le small (Nat.mul_le_mul_left _ digit)
    _ = 128 ^ (i + 1) := by ring

theorem shifted_eq (sum : value'.toNat = value.toNat + 128 ^ i * (b.toNat % 128)) (n : Nat) :
    value.toNat + 128 ^ i * (b.toNat % 128 + 128 * n) = value'.toNat + 128 ^ (i + 1) * n := by
  rw [sum]
  ring

theorem padded_iff :
    (0 < 7 * i ∧ (b &&& 0x7F).toUInt64 = 0) ↔ b.toNat % 128 = 0 ∧ decide (i = 0) = false := by
  rw [digit_eq_zero_iff, decide_eq_false_iff_not, and_comm]
  exact and_congr_right fun _ => by omega

end Digit

theorem accumulate_follows (context : String) {room i : Nat} (five : room + i = 5) {value : UInt64}
    (small : value.toNat < 128 ^ i) :
    (accumulate context room i value).Follows
      ((fun n => UInt32.ofNat (value.toNat + 128 ^ i * n)) <$>
        Varint.readDigits context room ((UInt32.size - 1) / 128 ^ i) (decide (i = 0))) := by
  induction room generalizing i value with
  | zero => exact .fail _
  | succ room ih =>
    have place : i ≤ 4 := by omega
    rw [Varint.readDigits, Read.map_bind]
    refine (byte_follows context).bind fun b => ?_
    have sum := toNat_or_shift place small b
    dsimp only
    rw [Read.map_ite, Read.map_ite, Read.map_ite]
    generalize value ||| (b &&& 0x7F).toUInt64 <<< UInt64.ofNat (7 * i) = value' at sum
    refine .ite_iff (overflow_iff place small sum) (.fail _)
      (.ite_not (and_80_eq_zero_iff b) ?_ (.ite_iff padded_iff (.fail _) ?_))
    · have tail := ih (by omega : room + (i + 1) = 5) (lt_pow_succ small sum)
      rw [pow_succ, ← Nat.div_div_eq_div_mul, decide_eq_false (Nat.succ_ne_zero i)] at tail
      rw [Read.map_bind]
      simp only [Read.map_pure, shifted_eq sum]
      exact tail
    · rw [Read.map_pure, ← sum]
      exact .pure _

theorem varint_follows (context : String) : (varint context).Follows (Read.varint context) := by
  have digits := accumulate_follows context (Nat.add_zero 5)
    (by decide : (0 : UInt64).toNat < 128 ^ 0)
  simp only [UInt64.toNat_zero, pow_zero, Nat.div_one, Nat.one_mul, Nat.zero_add] at digits
  exact digits.atomically

theorem bind_bytes_follows {n : Nat} {context : String} {next : Bytes → Reader α}
    {next' : Bytes → Read α} (second : ∀ bs, bs.length = n → (next bs).Follows (next' bs)) :
    (bytes n context >>= next).Follows (Read.bytes n context >>= next') := by
  have blocks := (block_follows n context).bind fun bs => second bs.val bs.property
  have same : (bytes n context >>= next) = (block n context >>= fun bs => next bs.val) := by
    funext c
    rw [bind_apply, bind_apply, bytes, bind_apply]
    cases block n context c with
    | mk result c => cases result <;> rfl
  have same' : (Read.bytes n context >>= next') =
      (Read.block n context >>= fun bs => next' bs.val) := by
    funext bs
    rw [Read.bind_apply, Read.bind_apply, Read.bytes, Read.bind_apply]
    cases Read.block n context bs with
    | mk result rest => cases result <;> rfl
  rw [same, same']
  exact blocks

theorem length_follows (field : String) : (length field).Follows (Read.length field) := by
  refine ((varint_follows field).bind fun n => ?_).atomically
  exact .ite_not Nat.not_le.symm (.pure _) (.fail _)

theorem prefixed_follows (field : String) : (prefixed field).Follows (Read.prefixed field) :=
  ((length_follows field).bind fun n => bytes_follows n field).atomically

theorem expected_follows (context : String) (expected : UInt32) (fault : UInt32 → DecodeError) :
    (Reader.expected context expected fault).Follows
      (do let found ← Read.varint context
          if found = expected then return () else Read.fail (fault found)) :=
  (varint_follows context).bind fun _ => .ite (.pure _) (.fail _)

end Reader

end ClearSign
