import ClearSign.Proofs.HexText
import ClearSign.Text.HexTable

namespace ClearSign.Hex

theorem value?_of_not_isDigit : ∀ b : UInt8, ¬ IsDigit b → value? b = none :=
  forall_byte (by decide +kernel)

theorem exists_value?_of_isDigit : ∀ b : UInt8, IsDigit b →
    ∃ n ∈ value? b, n < 16 ∧ lower b = digit n :=
  forall_byte (by decide +kernel)

theorem value?_of_lower {b : UInt8} {n : Nat} (small : n < 16) (same : lower b = digit n) :
    value? b = some n := by
  have member : lower b ∈ alphabet := same ▸ digit_mem_alphabet n small
  obtain ⟨m, value, small', other⟩ := exists_value?_of_isDigit b (isDigit_of_lower b member)
  have agree : m = n := digit_inj small' small (other.symm.trans same)
  rw [← agree]
  exact value

theorem decodePairs_of_pair {high low b : UInt8} (spelled : [high, low].map lower = pair b)
    (rest : Bytes) :
    decodePairs (high :: low :: rest) =
      match decodePairs rest with
      | .error fault => .error fault.behindPair
      | .ok bs => .ok (b :: bs) := by
  obtain ⟨first, second⟩ : lower high = digit (b.toNat / 16) ∧
      lower low = digit (b.toNat % 16) := by
    simpa [pair] using spelled
  have value := value?_of_lower (halves_lt b).1 first
  have value' := value?_of_lower (halves_lt b).2 second
  rw [decodePairs, value, value']
  cases decodePairs rest with
  | error fault => rfl
  | ok bs => exact congrArg (fun b => Except.ok (b :: bs)) (ofNat_halves b)

theorem decode_of_even {text : Bytes} (even : text.length % 2 = 0) :
    decode text = decodePairs text :=
  if_neg (by omega)

theorem decode_behind_pair {rest : Bytes} (even : rest.length % 2 = 0) (high low : UInt8) :
    decode (high :: low :: rest) = decodePairs (high :: low :: rest) := by
  apply decode_of_even
  rw [List.length_cons, List.length_cons]
  omega

theorem even_of_decode {text : Bytes} {answer : Except Fault Bytes} (read : decode text = answer)
    (known : answer ≠ .error .oddLength) : text.length % 2 = 0 := by
  by_contra odd
  apply known
  rw [← read, decode, if_pos (by omega)]

theorem table_lawful : table.Lawful where
  odd text odd := if_pos odd
  empty := rfl
  pair high low b rest bs spelled read := by
    have even := even_of_decode read (by simp)
    change decode rest = _ at read
    change decode (high :: low :: rest) = _
    rw [decode_of_even even] at read
    rw [decode_behind_pair even, decodePairs_of_pair spelled, read]
  first high low rest even fault := by
    change decode (high :: low :: rest) = _
    rw [decode_behind_pair even, decodePairs, value?_of_not_isDigit high fault]
    rfl
  second high low rest even digit fault := by
    obtain ⟨n, value, -⟩ := exists_value?_of_isDigit high digit
    change decode (high :: low :: rest) = _
    rw [decode_behind_pair even, decodePairs, Option.mem_def.mp value,
      value?_of_not_isDigit low fault]
    rfl
  later high low b rest c index spelled read := by
    have even := even_of_decode read (by simp)
    change decode rest = _ at read
    change decode (high :: low :: rest) = _
    rw [decode_of_even even] at read
    rw [decode_behind_pair even, decodePairs_of_pair spelled, read]
    rfl

end ClearSign.Hex
