import ClearSign.Proofs.Grammar.Request

namespace ClearSign.RawTransaction

open Cursor

theorem encodeHead_inj {a b : Address} {m n : UInt64} {x y : Bytes}
    (same : encodeHead a m ++ x = encodeHead b n ++ y) : a = b ∧ m = n ∧ x = y := by
  simp only [encodeHead, List.append_assoc] at same
  obtain ⟨sender, number⟩ := (Read.address_accepts "sender").unique trivial trivial same
  obtain ⟨sequenceNumber, rest⟩ :=
    (Read.u64_accepts "sequence number").unique trivial trivial number
  exact ⟨sender, sequenceNumber, rest⟩

structure Parts where
  sender : Address
  sequenceNumber : UInt64
  body : Bytes
  footer : Footer
  present : body ≠ []

namespace Parts

def opening (p : Parts) : Bytes :=
  Domain.rawTransaction.separator ++ encodeHead p.sender p.sequenceNumber

def input (p : Parts) : Bytes :=
  p.opening ++ (p.body ++ p.footer.encode)

def transaction (p : Parts) (payload : Payload) : RawTransaction :=
  ⟨p.sender, p.sequenceNumber, payload, p.footer⟩

theorem length_opening (p : Parts) : p.opening.length = 72 := by
  rw [opening, List.length_append, Domain.length_separator, length_encodeHead]

theorem length_input (p : Parts) : p.input.length = 72 + p.body.length + 25 := by
  rw [input, List.length_append, List.length_append, length_opening, p.footer.length_encode]
  omega

theorem input_eq (p : Parts) : p.input = Domain.rawTransaction.separator ++
    (encodeHead p.sender p.sequenceNumber ++ (p.body ++ p.footer.encode)) :=
  List.append_assoc ..

theorem drop_opening (p : Parts) : p.input.drop 72 = p.body ++ p.footer.encode :=
  List.drop_left' p.length_opening

theorem length_front (p : Parts) : p.input.length - 25 = (p.opening ++ p.body).length := by
  rw [List.length_append, length_opening, length_input]
  omega

theorem take_front (p : Parts) : p.input.take (p.input.length - 25) = p.opening ++ p.body := by
  rw [length_front, input, ← List.append_assoc, List.take_left]

theorem drop_front (p : Parts) : p.input.drop (p.input.length - 25) = p.footer.encode := by
  rw [length_front, input, ← List.append_assoc, List.drop_left]

theorem opening_inj {p q : Parts} {x y : Bytes} (same : p.opening ++ x = q.opening ++ y) :
    p.sender = q.sender ∧ p.sequenceNumber = q.sequenceNumber ∧ x = y := by
  simp only [opening, List.append_assoc] at same
  exact encodeHead_inj (List.append_cancel_left same)

theorem ending_inj {p q : Parts}
    (same : p.body ++ p.footer.encode = q.body ++ q.footer.encode) :
    p.body = q.body ∧ p.footer = q.footer := by
  have width : p.footer.encode.length = q.footer.encode.length := by
    rw [p.footer.length_encode, q.footer.length_encode]
  obtain ⟨body, ending⟩ := List.append_inj' same width
  have footer : p.footer.encode ++ [] = q.footer.encode ++ [] := by
    rw [ending]
  exact ⟨body, (Footer.read_accepts.unique trivial trivial footer).1⟩

theorem exists_of_input {input : Bytes} (raw : Domain.rawTransaction.separator <+: input)
    (long : 98 ≤ input.length) : ∃ p : Parts, input = p.input := by
  obtain ⟨rest, rfl⟩ := raw
  rw [List.length_append, Domain.length_separator] at long
  obtain ⟨sender, sequenceNumber, body, footer, present, rfl⟩ :=
    exists_parts (by omega : 40 + 25 < rest.length)
  let p : Parts := ⟨sender, sequenceNumber, body, footer, present⟩
  exact ⟨p, p.input_eq.symm⟩

theorem decode_input {o : Options} (p : Parts) (fits : p.input.length ≤ o.maxLength) :
    Request.decode o p.input =
      (Payload.decode o (p.opening.length + p.body.length)
        (between p.opening (p.body ++ p.footer.encode))).result.map fun payload =>
          .transaction (p.transaction payload) := by
  rw [input_eq] at fits ⊢
  rw [Request.decode_rawTransaction fits, result_decode _ _ _ _ p.present]
  simp only [← opening.eq_def]
  cases (Payload.decode o _ _).result <;> rfl

theorem decode_input_eq_ok_iff {o : Options} {p : Parts} {request : Request} :
    Request.decode o p.input = .ok request ↔ p.input.length ≤ o.maxLength ∧
      ∃ payload : Payload, payload.Spelled o p.body ∧
        request = .transaction (p.transaction payload) := by
  constructor
  · intro decoded
    have fits := (Request.decode_eq_ok_iff.mp decoded).1
    rw [decode_input p fits] at decoded
    obtain ⟨payload, read, rfl⟩ := Except.map_eq_ok_iff.mp decoded
    exact ⟨fits, payload, Payload.spelled_of_decode read, rfl⟩
  · rintro ⟨fits, payload, spelled, rfl⟩
    rw [decode_input p fits, Payload.decode_of_spelled spelled]
    rfl

theorem accepted_iff {o : Options} {p : Parts} :
    (∃ request, Request.decode o p.input = .ok request) ↔
      p.input.length ≤ o.maxLength ∧ ∃ payload : Payload, payload.Spelled o p.body := by
  constructor
  · rintro ⟨request, decoded⟩
    obtain ⟨fits, payload, spelled, -⟩ := decode_input_eq_ok_iff.mp decoded
    exact ⟨fits, payload, spelled⟩
  · rintro ⟨fits, payload, spelled⟩
    exact ⟨_, decode_input_eq_ok_iff.mpr ⟨fits, payload, spelled, rfl⟩⟩

theorem exists_of_decode {o : Options} {input : Bytes} {request : Request}
    (raw : Domain.rawTransaction.separator <+: input)
    (decoded : Request.decode o input = .ok request) :
    ∃ (p : Parts) (payload : Payload), input = p.input ∧ payload.Spelled o p.body ∧
      request = .transaction (p.transaction payload) := by
  have long : 98 ≤ input.length := by
    obtain ⟨rest, rfl⟩ := raw
    rw [Request.decode_rawTransaction (Request.decode_eq_ok_iff.mp decoded).1] at decoded
    obtain ⟨tx, read, rfl⟩ := Except.map_eq_ok_iff.mp decoded
    have := long_of_decode read
    rw [List.length_append, Domain.length_separator]
    omega
  obtain ⟨p, rfl⟩ := exists_of_input raw long
  obtain ⟨-, payload, spelled, made⟩ := decode_input_eq_ok_iff.mp decoded
  exact ⟨p, payload, rfl, spelled, made⟩

end Parts

end ClearSign.RawTransaction
