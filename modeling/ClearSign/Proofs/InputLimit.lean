import ClearSign.Proofs.Dispatch

namespace ClearSign

/-- The options with a limit that the input neither exceeds nor fills. -/
def Options.ample (o : Options) (input : Bytes) : Options :=
  { o with maxLength := input.length + 1 }

namespace Request

/-- The input is too long, or it may have been cut short and is no transaction. -/
def Barred (o : Options) (input : Bytes) : Prop :=
  o.maxLength < input.length ∨
    CutShort o input ∧ input.take 32 ≠ Domain.rawTransaction.separator

theorem not_barred_of_lt {o : Options} {input : Bytes} (below : input.length < o.maxLength) :
    ¬Barred o input := by
  rintro (long | ⟨cut, -⟩)
  · exact Nat.lt_asymm below long
  · exact Nat.ne_of_lt below cut.2.1

/-- The only limit at which an input may have been cut short is its length, so that at any lower
one it is too long. -/
theorem Barred.of_le {o lower : Options} {input : Bytes} (barred : Barred o input)
    (le : lower.maxLength ≤ o.maxLength) : Barred lower input := by
  obtain long | ⟨⟨present, filled, last⟩, other⟩ := barred
  · exact .inl (Nat.lt_of_le_of_lt le long)
  · obtain below | same := Nat.lt_or_eq_of_le le
    · exact .inl (filled ▸ below)
    · exact .inr ⟨⟨present, filled.trans same.symm, last⟩, other⟩

theorem exists_decode_of_other {input : Bytes}
    (other : input.take 32 ≠ Domain.rawTransaction.separator) :
    ∃ request, ∀ o : Options, input.length ≤ o.maxLength → decode o input =
      if CutShort o input then .error (.unterminatedInput input.length) else .ok request := by
  by_cases further : input.take 32 = Domain.rawTransactionWithData.separator
  · exact ⟨_, fun o fits => decode_furtherSigners fits further⟩
  · have separate (domain : Domain) : input.take 32 ≠ domain.separator := by
      cases domain with
      | rawTransaction => exact other
      | rawTransactionWithData => exact further
    exact ⟨_, fun o fits => decode_separate fits separate⟩

theorem decode_cut {o : Options} {input : Bytes} (cut : CutShort o input)
    (other : input.take 32 ≠ Domain.rawTransaction.separator) :
    decode o input = .error (.unterminatedInput input.length) := by
  obtain ⟨request, decoded⟩ := exists_decode_of_other other
  rw [decoded o (Nat.le_of_eq cut.2.1), if_pos cut]

theorem not_barred_of_ok {o : Options} {input : Bytes} {request : Request}
    (accepted : decode o input = .ok request) : ¬Barred o input := by
  rintro (long | ⟨cut, other⟩)
  · cases accepted.symm.trans (decode_long long)
  · cases accepted.symm.trans (decode_cut cut other)

theorem decode_eq_ample {o : Options} {input : Bytes} (free : ¬Barred o input) :
    decode o input = decode (o.ample input) input := by
  have fits : input.length ≤ o.maxLength := Nat.le_of_not_lt fun long => free (.inl long)
  have room : input.length ≤ (o.ample input).maxLength := Nat.le_succ _
  by_cases raw : input.take 32 = Domain.rawTransaction.separator
  · obtain ⟨rest, rfl⟩ : ∃ rest, input = Domain.rawTransaction.separator ++ rest :=
      ⟨input.drop 32, by rw [← raw, List.take_append_drop]⟩
    rw [decode_rawTransaction fits, decode_rawTransaction room]
    rfl
  · obtain ⟨request, decoded⟩ := exists_decode_of_other raw
    have uncut : ¬CutShort o input := fun cut => free (.inr ⟨cut, raw⟩)
    have uncut' : ¬CutShort (o.ample input) input := fun cut =>
      Nat.ne_of_lt (Nat.lt_succ_self _) cut.2.1
    rw [decoded o fits, decoded _ room, if_neg uncut, if_neg uncut']

end Request

open Request

/-- At a higher limit all that was accepted is decoded to the same, and an input below both limits
gives the same result, whether it is accepted or refused. What is accepted at the higher limit is
refused at the lower one only if it exceeds that, or fills it and may have been cut short. -/
theorem raised_limit_keeps_decodes (input : Bytes) (exactFramework : Bool) {m₁ m₂ : Nat}
    (raised : m₁ ≤ m₂) :
    (∀ request, decode { maxLength := m₁, exactFramework } input = .ok request →
      decode { maxLength := m₂, exactFramework } input = .ok request) ∧
    (input.length < m₁ → decode { maxLength := m₁, exactFramework } input =
      decode { maxLength := m₂, exactFramework } input) ∧
    ∀ request, decode { maxLength := m₂, exactFramework } input = .ok request →
      decode { maxLength := m₁, exactFramework } input =
        if m₁ < input.length then .error (.inputTooLong input.length m₁)
        else if CutShort { maxLength := m₁, exactFramework } input ∧
            input.take 32 ≠ Domain.rawTransaction.separator then
          .error (.unterminatedInput input.length)
        else .ok request := by
  have agree (free : ¬Barred { maxLength := m₁, exactFramework } input) :
      decode { maxLength := m₁, exactFramework } input =
        decode { maxLength := m₂, exactFramework } input := by
    have free' : ¬Barred { maxLength := m₂, exactFramework } input :=
      fun barred => free (barred.of_le raised)
    rw [decode_eq_ample free, decode_eq_ample free']
    rfl
  refine ⟨?_, fun below => agree (not_barred_of_lt below), ?_⟩
  · intro request accepted
    rw [← agree (not_barred_of_ok accepted), accepted]
  · intro request accepted
    split
    · next long => exact decode_long long
    · next fits =>
      split
      · next cut => exact decode_cut cut.1 cut.2
      · next uncut => rw [agree (not_or.mpr ⟨fits, uncut⟩), accepted]

/-- A letter at limits that it exceeds, fills and does neither, and a transfer, which may fill the
limit with a last byte that is not zero. -/
theorem raised_limit_keeps_decodes_letter :
    decode { maxLength := 0 } [0x61] = .error (.inputTooLong 1 0) ∧
      decode { maxLength := 1 } [0x61] = .error (.unterminatedInput 1) ∧
      decode { maxLength := 2 } [0x61] = decode { maxLength := 3 } [0x61] ∧
      decode { maxLength := 3 } [0x61] = .ok (.plainMessage [0x61]) ∧
      decode {} (Request.transaction sampleTransfer).encode =
        .ok (.transaction sampleTransfer) := by
  have accepted : decode { maxLength := 2 } [0x61] = .ok (.plainMessage [0x61]) := by
    decide +kernel
  have filled : decode { maxLength := (Request.transaction sampleTransfer).encode.length }
      (Request.transaction sampleTransfer).encode = .ok (.transaction sampleTransfer) := by
    decide +kernel
  have fits : (Request.transaction sampleTransfer).encode.length ≤ Limits.requestLength := by
    decide +kernel
  have lowest := raised_limit_keeps_decodes [0x61] false (by decide : 0 ≤ 2)
  have lower := raised_limit_keeps_decodes [0x61] false (by decide : 1 ≤ 2)
  have higher := raised_limit_keeps_decodes [0x61] false (by decide : 2 ≤ 3)
  have transfer := raised_limit_keeps_decodes (Request.transaction sampleTransfer).encode false fits
  refine ⟨?_, ?_, higher.2.1 (by decide), higher.1 _ accepted, transfer.1 _ filled⟩
  · exact (lowest.2.2 _ accepted).trans (if_pos (by decide))
  · rw [lower.2.2 _ accepted, if_neg (by decide), if_pos (by decide)]
    rfl

end ClearSign
