import ClearSign.Policy
import ClearSign.Proofs.Grammar.Parts

namespace ClearSign

open Cursor

/-- Inputs of one length that differ nowhere but in their last 25 bytes. -/
def SameButFooter (x y : Bytes) : Prop :=
  x.take (x.length - 25) = y.take (y.length - 25)

/-- Inputs that differ nowhere but in bytes 32 to 72, which are sender and sequence number. -/
def SameButHead (x y : Bytes) : Prop :=
  x.take 32 = y.take 32 ∧ x.drop 72 = y.drop 72

namespace Payload

theorem bodyBefore_congr (start : Nat) {before before' : Bytes}
    (width : before.length = before'.length) (after : Bytes) :
    bodyBefore start (between before after) = bodyBefore start (between before' after) := by
  unfold bodyBefore
  rw [pos_between, pos_between, width]
  split
  · rfl
  · obtain ⟨e, fails⟩ | ⟨body, rest, rfl, reads⟩ :=
      read_cases (Read.bytes_accepts (start - before'.length) "payload body") after
    · rw [fails, fails]
    · rw [reads, reads]
      rfl

theorem decodeCall_congr (o : Options) (start : Nat) {before before' : Bytes}
    (width : before.length = before'.length) (after : Bytes) :
    (decodeCall o start (between before after)).result =
      (decodeCall o start (between before' after)).result := by
  simp only [decodeCall, Traced.result_bind, Traced.result_lift, Traced.result_record]
  obtain ⟨e, fails⟩ | ⟨target, rest, rfl, reads⟩ := read_cases FunctionId.read_accepts after
  · rw [fails, fails]
  · simp only [reads, Except.ok_bind]
    obtain ⟨e, fails⟩ | ⟨action, rest, rfl, reads⟩ :=
      read_cases (Action.read_accepts (target.classify o.exactFramework)) rest
    · rw [fails, fails]
    · simp only [reads, Except.ok_bind, pos_between, List.length_append, width]

theorem readKind_cases (after : Bytes) :
    (∃ e, ∀ before, readKind (between before after) = .error e) ∨
      ∃ (kind : Kind) (rest : Bytes), after = kind.encode ++ rest := by
  obtain ⟨e, fails⟩ | ⟨tag, rest, rfl, reads⟩ :=
    read_cases (Read.varint_accepts "payload variant") after
  · refine .inl ⟨e, ?_⟩
    intro before
    rw [readKind, fails]
    rfl
  · cases found : Kind.ofTag? tag with
    | none =>
      refine .inl ⟨.invalidPayloadVariant tag, ?_⟩
      intro before
      simp only [readKind, reads, Except.ok_bind, found]
    | some kind => exact .inr ⟨kind, rest, by rw [Kind.encode, Kind.eq_tag_of_ofTag? found]⟩

theorem result_decode_congr (o : Options) (start : Nat) {before before' : Bytes}
    (width : before.length = before'.length) (after : Bytes) :
    (Payload.decode o start (between before after)).result =
      (Payload.decode o start (between before' after)).result := by
  obtain ⟨e, fails⟩ | ⟨kind, rest, rfl⟩ := readKind_cases after
  · simp only [Payload.decode, Traced.result_bind, Traced.result_lift, fails]
  · have behind : (before ++ kind.encode).length = (before' ++ kind.encode).length := by
      rw [List.length_append, List.length_append, width]
    rw [result_decode_kind, result_decode_kind]
    cases kind with
    | script => simp only [bodyBefore_congr start behind]
    | multisig => simp only [bodyBefore_congr start behind]
    | entryFunction => simp only [decodeCall_congr o start behind]

end Payload

namespace RawTransaction.Parts

theorem eq_of_sameButFooter {p q : Parts} (same : SameButFooter p.input q.input) :
    p.sender = q.sender ∧ p.sequenceNumber = q.sequenceNumber ∧ p.body = q.body := by
  rw [SameButFooter, take_front, take_front] at same
  exact opening_inj same

theorem eq_of_sameButHead {p q : Parts} (same : SameButHead p.input q.input) :
    p.body = q.body ∧ p.footer = q.footer := by
  have ending := same.2
  rw [drop_opening, drop_opening] at ending
  exact ending_inj ending

end RawTransaction.Parts

/-- Two inputs of one length that both start with the separator of transactions. If they differ in
their footers only, both are accepted or none is, and only what is said by the footer differs. If
they differ in their heads only, both are refused for the same reason or only what is said by the
head differs. -/
theorem footer_and_head_isolated (o : Options) (x y : Bytes) (length : x.length = y.length)
    (long : 98 ≤ x.length) (raw : Domain.rawTransaction.separator <+: x)
    (raw' : Domain.rawTransaction.separator <+: y) :
    (SameButFooter x y →
      ((∃ r, Request.decode o x = .ok r) ↔ ∃ s, Request.decode o y = .ok s) ∧
        ∀ r s, Request.decode o x = .ok r → Request.decode o y = .ok s →
          ∃ tx tx', r = .transaction tx ∧ s = .transaction tx' ∧ tx.sender = tx'.sender ∧
            tx.sequenceNumber = tx'.sequenceNumber ∧ tx.payload = tx'.payload ∧
            r.blindReason? = s.blindReason? ∧ x.drop (x.length - 25) = tx.footer.encode ∧
            y.drop (y.length - 25) = tx'.footer.encode) ∧
      (SameButHead x y →
        (∃ e, Request.decode o x = .error e ∧ Request.decode o y = .error e) ∨
          ∃ tx tx', Request.decode o x = .ok (.transaction tx) ∧
            Request.decode o y = .ok (.transaction tx') ∧ tx.payload = tx'.payload ∧
            tx.footer = tx'.footer) := by
  obtain ⟨p, rfl⟩ := RawTransaction.Parts.exists_of_input raw long
  obtain ⟨q, rfl⟩ := RawTransaction.Parts.exists_of_input raw' (length ▸ long)
  constructor
  · intro same
    obtain ⟨sender, sequenceNumber, body⟩ := RawTransaction.Parts.eq_of_sameButFooter same
    refine ⟨?_, ?_⟩
    · rw [RawTransaction.Parts.accepted_iff, RawTransaction.Parts.accepted_iff, length, body]
    · intro r s decoded decoded'
      obtain ⟨-, payload, spelled, rfl⟩ := RawTransaction.Parts.decode_input_eq_ok_iff.mp decoded
      obtain ⟨-, payload', spelled', rfl⟩ := RawTransaction.Parts.decode_input_eq_ok_iff.mp decoded'
      rw [← body] at spelled'
      obtain rfl := spelled.unique spelled'
      exact ⟨_, _, rfl, rfl, sender, sequenceNumber, rfl, rfl, p.drop_front, q.drop_front⟩
  · intro same
    obtain ⟨body, footer⟩ := RawTransaction.Parts.eq_of_sameButHead same
    obtain long | fits := Nat.lt_or_ge o.maxLength p.input.length
    · refine .inl ⟨_, Request.decode_long long, ?_⟩
      rw [length] at long ⊢
      exact Request.decode_long long
    · have opening : p.opening.length = q.opening.length := by
        rw [p.length_opening, q.length_opening]
      rw [p.decode_input fits, q.decode_input (length ▸ fits), ← body, ← footer, ← opening,
        ← Payload.result_decode_congr _ _ opening]
      cases (Payload.decode o _ _).result with
      | error e => exact .inl ⟨e, rfl, rfl⟩
      | ok payload => exact .inr ⟨_, _, rfl, rfl, rfl, footer⟩

theorem footer_and_head_isolated_sampleTransfer :
    (∃ s, Request.decode {} (Request.transaction { sampleTransfer with footer := {} }).encode =
        .ok s) ∧
      ∃ tx tx', Request.decode {} (Request.transaction sampleTransfer).encode =
          .ok (.transaction tx) ∧
        Request.decode {} (Request.transaction
          { sampleTransfer with sender := .framework, sequenceNumber := 9 }).encode =
            .ok (.transaction tx') ∧ tx.payload = tx'.payload ∧ tx.footer = tx'.footer := by
  have raw (tx : RawTransaction) :
      Domain.rawTransaction.separator <+: (Request.transaction tx).encode :=
    List.prefix_append _ _
  constructor
  · have footer := (footer_and_head_isolated {} _ _ (by decide +kernel) (by decide +kernel)
      (raw sampleTransfer) (raw { sampleTransfer with footer := {} })).1
    have same : SameButFooter (Request.transaction sampleTransfer).encode
        (Request.transaction { sampleTransfer with footer := {} }).encode := by
      unfold SameButFooter
      decide +kernel
    exact (footer same).1.mp ⟨_, decode_sampleTransfer⟩
  · have head := (footer_and_head_isolated {} _ _ (by decide +kernel) (by decide +kernel)
      (raw sampleTransfer)
      (raw { sampleTransfer with sender := .framework, sequenceNumber := 9 })).2
    obtain ⟨e, refused, -⟩ | accepted := head ⟨by decide +kernel, by decide +kernel⟩
    · rw [decode_sampleTransfer] at refused
      cases refused
    · exact accepted

end ClearSign
