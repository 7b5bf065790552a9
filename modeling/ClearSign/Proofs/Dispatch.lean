import ClearSign.Proofs.Refusals

namespace ClearSign

namespace Request

theorem map_checkTerminated (o : Options) (input : Bytes) (request : Request) :
    ((checkTerminated o input).map fun _ => request) =
      if CutShort o input then .error (.unterminatedInput input.length) else .ok request := by
  rw [checkTerminated_eq]
  split <;> rfl

theorem decode_transaction {o : Options} {input : Bytes} (fits : input.length ≤ o.maxLength)
    (raw : input.take 32 = Domain.rawTransaction.separator) :
    (∃ tx, decode o input = .ok (.transaction tx)) ∨
      ∃ e, decode o input = .error e ∧ RawTransaction.Refusal input.length e := by
  have front : Domain.rawTransaction.separator <+: input := by
    rw [← raw]
    exact List.take_prefix 32 input
  cases decoded : decode o input with
  | ok request =>
    obtain ⟨p, payload, -, -, rfl⟩ := RawTransaction.Parts.exists_of_decode front decoded
    exact .inl ⟨_, rfl⟩
  | error e => exact .inr ⟨e, rfl, RawTransaction.refusal_of_decode front fits decoded⟩

theorem decode_furtherSigners {o : Options} {input : Bytes} (fits : input.length ≤ o.maxLength)
    (found : input.take 32 = Domain.rawTransactionWithData.separator) :
    decode o input = if CutShort o input then .error (.unterminatedInput input.length)
      else .ok (.transactionWithData (input.drop 32)) := by
  obtain ⟨body, rfl⟩ : ∃ body, input = withData body :=
    ⟨input.drop 32, by rw [withData, ← found, List.take_append_drop]⟩
  have behind : (withData body).drop 32 = body := List.drop_left' (Domain.length_separator _)
  rw [decode_withData fits, map_checkTerminated, behind]

theorem decode_separate {o : Options} {input : Bytes} (fits : input.length ≤ o.maxLength)
    (separate : ∀ domain : Domain, input.take 32 ≠ domain.separator) :
    decode o input = if CutShort o input then .error (.unterminatedInput input.length)
      else .ok (if Message.isPlain input then .plainMessage input else .rawMessage input) := by
  rw [decode_message fits (Domain.of?_eq_none_iff.mpr separate), map_checkTerminated]
  rfl

end Request

theorem Bytes.take_replaced {front input : Bytes} (width : front.length = (input.take 32).length) :
    (front ++ input.drop 32).take 32 = front := by
  rw [List.length_take] at width
  by_cases short : input.length ≤ 32
  · rw [List.drop_of_length_le short, List.append_nil]
    exact List.take_of_length_le (by omega)
  · exact List.take_left' (by omega)

open Request

/-- What an input is decoded to is decided by its length and its first 32 bytes, which may be fewer:
a transaction or an error, the bytes behind the other separator, or the whole input as a message.
The last byte counts in the last two cases only. So a body that is sent with its separator comes
back, and with any other bytes in place of its first ones an input is a message. -/
theorem dispatch_partitions (o : Options) (input : Bytes) :
    (o.maxLength < input.length →
      decode o input = .error (.inputTooLong input.length o.maxLength)) ∧
    (input.length ≤ o.maxLength →
      (input.take 32 = Domain.rawTransaction.separator →
        (∃ tx, decode o input = .ok (.transaction tx)) ∨
          ∃ e, decode o input = .error e ∧ (∀ n max, e ≠ .inputTooLong n max) ∧
            ∀ n, e ≠ .unterminatedInput n) ∧
      (input.take 32 = Domain.rawTransactionWithData.separator →
        decode o input = if CutShort o input then .error (.unterminatedInput input.length)
          else .ok (.transactionWithData (input.drop 32))) ∧
      ((∀ domain : Domain, input.take 32 ≠ domain.separator) →
        decode o input = if CutShort o input then .error (.unterminatedInput input.length)
          else .ok (if Message.isPlain input then .plainMessage input else .rawMessage input)) ∧
      ∀ front : Bytes, front.length = (input.take 32).length →
        (∀ domain : Domain, front ≠ domain.separator) →
        decode o (front ++ input.drop 32) = .error (.unterminatedInput input.length) ∨
          decode o (front ++ input.drop 32) = .ok (.plainMessage (front ++ input.drop 32)) ∨
          decode o (front ++ input.drop 32) = .ok (.rawMessage (front ++ input.drop 32))) ∧
    ∀ body : Bytes, decode o (withData body) = .ok (.transactionWithData body) ∨
      decode o (withData body) = .error (.inputTooLong (withData body).length o.maxLength) ∨
      decode o (withData body) = .error (.unterminatedInput (withData body).length) := by
  refine ⟨decode_long, ?_, ?_⟩
  · intro fits
    refine ⟨?_, decode_furtherSigners fits, decode_separate fits, ?_⟩
    · intro raw
      obtain decoded | ⟨e, refused, refusal⟩ := decode_transaction fits raw
      · exact .inl decoded
      · refine .inr ⟨e, refused, ?_, ?_⟩
        · rintro n max rfl
          exact refusal
        · rintro n rfl
          exact refusal
    · intro front width separate
      have length : (front ++ input.drop 32).length = input.length := by
        rw [List.length_append, width, ← List.length_append, List.take_append_drop]
      rw [decode_separate (by omega) (by rwa [Bytes.take_replaced width]), length]
      split
      · exact .inl rfl
      · split
        · exact .inr (.inl rfl)
        · exact .inr (.inr rfl)
  · intro body
    by_cases long : o.maxLength < (withData body).length
    · exact .inr (.inl (decode_long long))
    · have fits := Nat.le_of_not_lt long
      rw [decode_withData fits, map_checkTerminated]
      split
      · exact .inr (.inr rfl)
      · exact .inl rfl

/-- The separators with nothing behind them and other short inputs, at limits that they exceed or
fill. -/
theorem dispatch_partitions_limits :
    decode { maxLength := 31 } (withData []) = .error (.inputTooLong 32 31) ∧
      decode { maxLength := 32 } (withData []) = .error (.unterminatedInput 32) ∧
      decode { maxLength := 0 } [] = .ok (.plainMessage []) ∧
      decode { maxLength := 1 } [0x61] = .error (.unterminatedInput 1) ∧
      ∃ e, decode { maxLength := 32 } Domain.rawTransaction.separator = .error e ∧
        ∀ n, e ≠ .unterminatedInput n := by
  have exceeded := (dispatch_partitions { maxLength := 31 } (withData [])).1 (by decide)
  have filled := (dispatch_partitions { maxLength := 32 } (withData [])).2.1 (by decide)
  have empty := (dispatch_partitions { maxLength := 0 } []).2.1 (by decide)
  have short := (dispatch_partitions { maxLength := 1 } [0x61]).2.1 (by decide)
  have bare := (dispatch_partitions { maxLength := 32 } Domain.rawTransaction.separator).2.1
    (by decide)
  refine ⟨exceeded, ?_, ?_, ?_, ?_⟩
  · rw [filled.2.1 (by decide)]
    rfl
  · rw [empty.2.2.1 fun domain => by cases domain <;> decide]
    decide +kernel
  · rw [short.2.2.1 fun domain => by cases domain <;> decide]
    rfl
  · obtain ⟨tx, decoded⟩ | ⟨e, refused, -, terminated⟩ := bare.1 (by decide)
    · have headless : decode { maxLength := 32 } Domain.rawTransaction.separator =
          .error (.unexpectedEnd "sender") := by decide +kernel
      rw [headless] at decoded
      cases decoded
    · exact ⟨e, refused, terminated⟩

end ClearSign
