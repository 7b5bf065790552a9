import ClearSign.Proofs.RoundTrip

/-!
Reading accepts exactly what writing produces. A read answers with a value just if the bytes start
with the value as it is written, and it leaves what stands behind; so every value has one spelling,
and what follows it never changes what is read.
-/

namespace ClearSign

/-- No longer than a byte string on the wire may be. -/
def Bytes.Bounded (bs : Bytes) : Prop :=
  bs.length ≤ Limits.sequenceLength

theorem Bytes.exists_split {n : Nat} {bs : Bytes} (enough : n ≤ bs.length) :
    ∃ front back : Bytes, front.length = n ∧ bs = front ++ back :=
  ⟨bs.take n, bs.drop n, by simp [enough], by simp⟩

theorem LittleEndian.exists_u64 {bs : Bytes} (width : bs.length = 8) :
    ∃ n : UInt64, bs = toBytes 8 n.toNat := by
  have small : ofBytes bs < 256 ^ 8 := width ▸ ofBytes_lt bs
  have value : (UInt64.ofNat (ofBytes bs)).toNat = ofBytes bs := by
    rw [UInt64.toNat_ofNat']
    omega
  exact ⟨UInt64.ofNat (ofBytes bs), by rw [value, ← width, toBytes_ofBytes]⟩

theorem LittleEndian.exists_u128 {bs : Bytes} (width : bs.length = 16) :
    ∃ n : BitVec 128, bs = toBytes 16 n.toNat := by
  have small : ofBytes bs < 256 ^ 16 := width ▸ ofBytes_lt bs
  have value : (BitVec.ofNat 128 (ofBytes bs)).toNat = ofBytes bs := by
    rw [BitVec.toNat_ofNat]
    exact Nat.mod_eq_of_lt small
  exact ⟨BitVec.ofNat 128 (ofBytes bs), by rw [value, ← width, toBytes_ofBytes]⟩

namespace Read

/-- The read accepts the values in `valid`, each in the one form that `encode` gives it. -/
def Accepts (r : Read α) (valid : α → Prop) (encode : α → Bytes) : Prop :=
  ∀ bs a rest, r bs = (.ok a, rest) ↔ valid a ∧ bs = encode a ++ rest

theorem Accepts.read {r : Read α} {valid : α → Prop} {encode : α → Bytes}
    (accepts : r.Accepts valid encode) {a : α} (known : valid a) (rest : Bytes) :
    r (encode a ++ rest) = (.ok a, rest) :=
  (accepts _ a rest).mpr ⟨known, rfl⟩

theorem Accepts.unique {r : Read α} {valid : α → Prop} {encode : α → Bytes}
    (accepts : r.Accepts valid encode) {a b : α} {x y : Bytes} (known : valid a)
    (other : valid b) (same : encode a ++ x = encode b ++ y) : a = b ∧ x = y := by
  have left := accepts.read known x
  have right := accepts.read other y
  rw [same, right] at left
  simp only [Prod.mk.injEq, Except.ok.injEq] at left
  exact ⟨left.1.symm, left.2.symm⟩

/-- How the read answers to these bytes, whatever follows them. If it accepts, then it leaves just
what follows. -/
def Answers (r : Read α) (bs : Bytes) : Except DecodeError α → Prop
  | .ok a => ∀ rest, r (bs ++ rest) = (.ok a, rest)
  | .error e => ∀ rest, (r (bs ++ rest)).1 = .error e

theorem Accepts.answers {r : Read α} {valid : α → Prop} {encode : α → Bytes}
    (accepts : r.Accepts valid encode) {a : α} (known : valid a) :
    r.Answers (encode a) (.ok a) :=
  accepts.read known

theorem answers_pure (a : α) : (pure a : Read α).Answers [] (.ok a) := fun _ => rfl

theorem answers_fail (e : DecodeError) (bs : Bytes) : (fail e : Read α).Answers bs (.error e) :=
  fun _ => rfl

theorem Answers.step {r : Read α} {next : α → Read β} {a : α} {bs more : Bytes}
    {outcome : Except DecodeError β} (first : r.Answers bs (.ok a))
    (second : (next a).Answers more outcome) : (r >>= next).Answers (bs ++ more) outcome := by
  cases outcome with
  | ok b =>
    intro rest
    rw [bind_apply, List.append_assoc, first]
    exact second rest
  | error e =>
    intro rest
    rw [bind_apply, List.append_assoc, first]
    exact second rest

theorem Answers.stop {r : Read α} {e : DecodeError} {bs : Bytes} (first : r.Answers bs (.error e))
    (next : α → Read β) (more : Bytes) : (r >>= next).Answers (bs ++ more) (.error e) := by
  intro rest
  have answer := first (more ++ rest)
  rw [bind_apply, List.append_assoc]
  cases read : r (bs ++ (more ++ rest)) with
  | mk result left =>
    rw [read] at answer
    cases answer
    rfl

theorem Answers.bind {r : Read α} {next : α → Read β} {bs more : Bytes}
    {outcome : Except DecodeError α} {following : α → Except DecodeError β}
    (first : r.Answers bs outcome) (second : ∀ a, (next a).Answers more (following a)) :
    (r >>= next).Answers (bs ++ more) (outcome >>= following) := by
  cases outcome with
  | ok a => exact first.step (second a)
  | error e => exact first.stop next more

theorem Answers.map {r : Read α} {bs : Bytes} {outcome : Except DecodeError α}
    (answers : r.Answers bs outcome) (f : α → β) :
    (do return f (← r) : Read β).Answers bs (outcome.map f) := by
  have mapped := answers.bind fun a => answers_pure (f a)
  rw [List.append_nil] at mapped
  cases outcome <;> exact mapped

theorem bind_eq_ok_iff {r : Read α} {next : α → Read β} {b : β} {bs rest : Bytes} :
    (r >>= next) bs = (.ok b, rest) ↔
      ∃ a mid, r bs = (.ok a, mid) ∧ next a mid = (.ok b, rest) := by
  rw [bind_apply]
  constructor
  · intro read
    cases first : r bs with
    | mk result mid =>
      rw [first] at read
      cases result with
      | ok a => exact ⟨a, mid, rfl, read⟩
      | error e => cases read
  · intro spelled
    obtain ⟨a, mid, first, second⟩ := spelled
    simp only [first, second]

theorem atomically_eq_ok_iff {r : Read α} {a : α} {bs rest : Bytes} :
    atomically r bs = (.ok a, rest) ↔ r bs = (.ok a, rest) := by
  cases read : r bs with
  | mk result mid => cases result <;> simp [atomically, read]

theorem bind_eq_error_iff {r : Read α} {next : α → Read β} {e : DecodeError} {bs rest : Bytes} :
    (r >>= next) bs = (.error e, rest) ↔
      r bs = (.error e, rest) ∨ ∃ a mid, r bs = (.ok a, mid) ∧ next a mid = (.error e, rest) := by
  rw [bind_apply]
  cases first : r bs with
  | mk result mid => cases result <;> simp

theorem map_eq_error_iff {r : Read α} {f : α → β} {e : DecodeError} {bs rest : Bytes} :
    (f <$> r) bs = (.error e, rest) ↔ r bs = (.error e, rest) := by
  change (r >>= fun a => pure (f a)) bs = _ ↔ _
  simp [bind_eq_error_iff]

theorem atomically_eq_error_iff {r : Read α} {e : DecodeError} {bs rest : Bytes} :
    atomically r bs = (.error e, rest) ↔ rest = bs ∧ ∃ mid, r bs = (.error e, mid) := by
  cases read : r bs with
  | mk result mid => cases result <;> simp [atomically, read, and_comm, eq_comm]

theorem map_atomically (r : Read α) (f : α → β) : f <$> atomically r = atomically (f <$> r) := by
  funext bs
  change (atomically r >>= fun a => pure (f a)) bs = atomically (r >>= fun a => pure (f a)) bs
  rw [bind_apply]
  unfold atomically
  rw [bind_apply]
  cases r bs with
  | mk result rest => cases result <;> rfl

theorem atomically_congr {r s : Read α} (same : r bs = s bs) :
    atomically r bs = atomically s bs := by
  simp only [atomically, same]

theorem Accepts.map {r : Read α} {valid : α → Prop} {encode : α → Bytes}
    (accepts : r.Accepts valid encode) {f : α → β} {valid' : β → Prop} {encode' : β → Bytes}
    (into : ∀ a, valid a → valid' (f a) ∧ encode' (f a) = encode a)
    (onto : ∀ b, valid' b → ∃ a, valid a ∧ f a = b) :
    (do return f (← r) : Read β).Accepts valid' encode' := by
  intro bs b rest
  simp only [bind_eq_ok_iff, pure_apply, Prod.mk.injEq, Except.ok.injEq]
  constructor
  · intro read
    obtain ⟨a, mid, read, rfl, rfl⟩ := read
    obtain ⟨known, rfl⟩ := (accepts bs a mid).mp read
    exact ⟨(into a known).1, by rw [(into a known).2]⟩
  · intro spelled
    obtain ⟨known, rfl⟩ := spelled
    obtain ⟨a, valid_a, rfl⟩ := onto b known
    rw [(into a valid_a).2]
    exact ⟨a, rest, accepts.read valid_a rest, rfl, rfl⟩

theorem byte_accepts (context : String) : (byte context).Accepts (fun _ => True) ([·]) := by
  intro bs b rest
  cases bs <;> simp [byte, eq_comm]

theorem bytes_accepts (n : Nat) (context : String) :
    (bytes n context).Accepts (·.length = n) id := by
  intro bs v rest
  constructor
  · intro read
    by_cases enough : n ≤ bs.length
    · simp [bytes, bind_apply, block, enough] at read
      obtain ⟨rfl, rfl⟩ := read
      simp [enough]
    · simp [bytes_short (by omega : bs.length < n)] at read
  · intro spelled
    obtain ⟨rfl, rfl⟩ := spelled
    exact bytes_append context v rest

theorem number_accepts (width : Nat) (context : String) :
    (number width context).Accepts (· < 256 ^ width) (LittleEndian.toBytes width) := by
  apply (bytes_accepts width context).map
  · rintro v rfl
    exact ⟨LittleEndian.ofBytes_lt v, LittleEndian.toBytes_ofBytes v⟩
  · intro n small
    exact ⟨LittleEndian.toBytes width n, by simp, LittleEndian.ofBytes_toBytes small⟩

theorem number_accepts_as {width : Nat} {ofNat : Nat → α} {toNat : α → Nat} (context : String)
    (small : ∀ a, toNat a < 256 ^ width) (kept : ∀ n < 256 ^ width, toNat (ofNat n) = n)
    (same : ∀ a, ofNat (toNat a) = a) :
    (do return ofNat (← number width context) : Read α).Accepts (fun _ => True)
      fun a => LittleEndian.toBytes width (toNat a) := by
  apply (number_accepts width context).map
  · intro n fits
    exact ⟨trivial, by rw [kept n fits]⟩
  · intro a _
    exact ⟨toNat a, small a, same a⟩

theorem u16_accepts (context : String) :
    (u16 context).Accepts (fun _ => True) (LittleEndian.toBytes 2 ·.toNat) :=
  number_accepts_as context UInt16.toNat_lt (fun _ => UInt16.toNat_ofNat_of_lt')
    fun _ => UInt16.ofNat_toNat

theorem u32_accepts (context : String) :
    (u32 context).Accepts (fun _ => True) (LittleEndian.toBytes 4 ·.toNat) :=
  number_accepts_as context UInt32.toNat_lt (fun _ => UInt32.toNat_ofNat_of_lt')
    fun _ => UInt32.ofNat_toNat

theorem u64_accepts (context : String) :
    (u64 context).Accepts (fun _ => True) (LittleEndian.toBytes 8 ·.toNat) :=
  number_accepts_as context UInt64.toNat_lt (fun _ => UInt64.toNat_ofNat_of_lt')
    fun _ => UInt64.ofNat_toNat

theorem u128_accepts (context : String) :
    (u128 context).Accepts (fun _ => True) (LittleEndian.toBytes 16 ·.toNat) := by
  apply number_accepts_as context
  · exact BitVec.isLt
  · intro n fits
    rw [BitVec.toNat_ofNat]
    exact Nat.mod_eq_of_lt fits
  · intro value
    rw [BitVec.ofNat_toNat, BitVec.setWidth_eq]

theorem bool_accepts (context : String) :
    (bool context).Accepts (fun _ => True) fun value => [if value then 1 else 0] := by
  intro bs value rest
  simp only [bool, atomically_eq_ok_iff, bind_eq_ok_iff, byte_accepts _ _ _ _, true_and]
  constructor
  · intro read
    obtain ⟨b, mid, rfl, read⟩ := read
    split at read
    · next zero =>
      cases read
      rw [zero]
      rfl
    · split at read
      · next one =>
        cases read
        rw [one]
        rfl
      · cases read
  · rintro rfl
    refine ⟨if value then 1 else 0, rest, rfl, ?_⟩
    cases value <;> rfl

theorem bool_of_neither (context : String) {b : UInt8} (nonzero : b ≠ 0) (other : b ≠ 1)
    (rest : Bytes) : bool context (b :: rest) = (.error (.invalidBool b), b :: rest) := by
  refine atomically_of_error (?_ : _ = (Except.error _, rest))
  simp only [bind_apply, byte, if_neg nonzero, if_neg other, fail_apply]

theorem address_accepts (context : String) :
    (address context).Accepts (fun _ => True) Address.bytes := by
  intro bs a rest
  constructor
  · intro read
    by_cases enough : 32 ≤ bs.length
    · simp [address, bind_apply, block, enough] at read
      obtain ⟨rfl, rfl⟩ := read
      simp
    · simp [address, bind_apply, block, enough] at read
  · intro spelled
    obtain ⟨-, rfl⟩ := spelled
    simp [address, bind_apply, block, a.length_bytes]

end Read

namespace Varint

theorem readDigits_cases {context : String} {room max n : Nat} {first : Bool} {bs rest : Bytes}
    (read : readDigits context (room + 1) max first bs = (.ok n, rest)) :
    ∃ b tail, bs = b :: tail ∧ b.toNat % 128 ≤ max ∧
      ((128 ≤ b.toNat ∧ ∃ higher, n = b.toNat % 128 + 128 * higher ∧
          readDigits context room (max / 128) false tail = (.ok higher, rest)) ∨
        (b.toNat < 128 ∧ (first = false → 0 < n) ∧ n = b.toNat ∧ tail = rest)) := by
  cases bs with
  | nil => cases read
  | cons b tail =>
    simp only [readDigits, Read.bind_apply, Read.byte] at read
    split at read
    · cases read
    · next fits =>
      refine ⟨b, tail, rfl, by omega, ?_⟩
      split at read
      · next continues =>
        obtain ⟨higher, mid, more, done⟩ := Read.bind_eq_ok_iff.mp read
        simp only [Read.pure_apply, Prod.mk.injEq, Except.ok.injEq] at done
        obtain ⟨rfl, rfl⟩ := done
        exact .inl ⟨continues, higher, rfl, more⟩
      · next last =>
        split at read
        · cases read
        · next accepted =>
          simp only [Read.pure_apply, Prod.mk.injEq, Except.ok.injEq] at read
          obtain ⟨rfl, rfl⟩ := read
          refine .inr ⟨by omega, ?_, by omega, rfl⟩
          intro later
          exact Nat.pos_of_ne_zero fun zero => accepted ⟨zero, later⟩

/-- Whatever digits are read are the shortest form of a number in bounds. The bound must leave the
last digit four bits and the others all of theirs. -/
theorem eq_digits_of_readDigits {context : String} {room max n : Nat} {first : Bool}
    {bs rest : Bytes} (full : max + 1 = 16 * 128 ^ room)
    (read : readDigits context (room + 1) max first bs = (.ok n, rest)) :
    n ≤ max ∧ (first = false → 0 < n) ∧ bs = digits room n ++ rest := by
  induction room generalizing max first bs n with
  | zero =>
    obtain ⟨b, tail, rfl, fits, ⟨_, _, _, more⟩ | ⟨small, positive, rfl, rfl⟩⟩ :=
      readDigits_cases read
    · cases more
    · exact ⟨by omega, positive, by simp [digits]⟩
  | succ room ih =>
    obtain ⟨b, tail, rfl, fits, ⟨continues, higher, rfl, more⟩ | ⟨small, positive, rfl, rfl⟩⟩ :=
      readDigits_cases read
    · have := b.toNat_lt
      rw [Nat.pow_succ] at full
      obtain ⟨atMost, positive, rfl⟩ := ih (by omega) more
      have high := positive rfl
      have low : UInt8.ofNat ((b.toNat % 128 + 128 * higher) % 128 + 128) = b := by
        rw [show (b.toNat % 128 + 128 * higher) % 128 + 128 = b.toNat by omega, UInt8.ofNat_toNat]
      have others : (b.toNat % 128 + 128 * higher) / 128 = higher := by omega
      refine ⟨by omega, by omega, ?_⟩
      rw [digits, if_neg (by omega), low, others]
      rfl
    · exact ⟨by omega, positive, by simp [digits, small]⟩

end Varint

namespace Read

theorem varint_accepts (context : String) :
    (varint context).Accepts (fun _ => True) Varint.encode := by
  intro bs n rest
  simp only [true_and]
  constructor
  · intro read
    simp only [varint, atomically_eq_ok_iff, bind_eq_ok_iff, pure_apply, Prod.mk.injEq,
      Except.ok.injEq] at read
    obtain ⟨m, mid, digits, rfl, rfl⟩ := read
    obtain ⟨fits, -, rfl⟩ := Varint.eq_digits_of_readDigits (by decide) digits
    have value : (UInt32.ofNat m).toNat = m := by
      rw [UInt32.toNat_ofNat']
      simp only [UInt32.size] at fits
      omega
    simp only [Varint.encode, Limits.varintBytes, value]
  · rintro rfl
    exact varint_encode context n rest

theorem length_accepts (field : String) :
    (length field).Accepts (· ≤ Limits.sequenceLength)
      (fun n => Varint.encode (UInt32.ofNat n)) := by
  intro bs n rest
  constructor
  · intro read
    simp only [length, atomically_eq_ok_iff, bind_eq_ok_iff] at read
    obtain ⟨v, mid, first, read⟩ := read
    obtain ⟨-, rfl⟩ := (varint_accepts field bs v mid).mp first
    split at read
    · next known =>
      simp only [pure_apply, Prod.mk.injEq, Except.ok.injEq] at read
      obtain ⟨rfl, rfl⟩ := read
      exact ⟨known, by simp only [UInt32.ofNat_toNat]⟩
    · cases read
  · intro spelled
    obtain ⟨known, rfl⟩ := spelled
    exact length_encode known field rest

theorem prefixed_accepts (field : String) :
    (prefixed field).Accepts Bytes.Bounded Bytes.withLength := by
  intro bs v rest
  constructor
  · intro read
    simp only [prefixed, atomically_eq_ok_iff, bind_eq_ok_iff] at read
    obtain ⟨n, mid, first, second⟩ := read
    obtain ⟨known, rfl⟩ := (length_accepts field bs n mid).mp first
    obtain ⟨rfl, rfl⟩ := (bytes_accepts n field mid v rest).mp second
    exact ⟨known, by rw [Bytes.withLength, List.append_assoc]; rfl⟩
  · intro spelled
    obtain ⟨known, rfl⟩ := spelled
    exact prefixed_withLength known field rest

end Read

end ClearSign
