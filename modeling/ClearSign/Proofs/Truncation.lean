import ClearSign.Policy
import ClearSign.Proofs.Grammar.Parts

namespace ClearSign

namespace Payload

/-- Payloads that are blind for the same reason, and that call the same function if any. -/
inductive SameBlindKind : Payload → Payload → Prop
  | script (body body' : Bytes) : SameBlindKind (.script body) (.script body')
  | multisig (body body' : Bytes) : SameBlindKind (.multisig body) (.multisig body')
  | unknownCall (call call' : EntryCall) (unknown : call.callee = .unknown)
      (unknown' : call'.callee = .unknown) (target : call.target = call'.target) :
      SameBlindKind (.entryFunction call) (.entryFunction call')

end Payload

namespace EntryCall

theorem target_unique {exact : Bool} {call call' : EntryCall} {x y : Bytes}
    (readable : call.Readable exact) (readable' : call'.Readable exact)
    (same : call.encode ++ x = call'.encode ++ y) : call.target = call'.target := by
  simp only [encode, List.append_assoc] at same
  exact (FunctionId.read_accepts.unique readable.1 readable'.1 same).1

end EntryCall

namespace Payload

theorem Spelled.sameBlindKind {o : Options} {p q : Payload} {body body' ending ending' : Bytes}
    (spelled : p.Spelled o body) (spelled' : q.Spelled o body')
    (same : body ++ ending = body' ++ ending') (longer : ending'.length < ending.length) :
    p.SameBlindKind q := by
  cases spelled with
  | script s =>
    cases spelled' with
    | script s' => exact .script s s'
    | _ => cases congrArg List.head? same
  | multisig s =>
    cases spelled' with
    | multisig s' => exact .multisig s s'
    | _ => cases congrArg List.head? same
  | call call gap readable tight =>
    cases spelled' with
    | call call' gap' readable' tight' =>
      simp only [List.append_assoc] at same
      have calls := List.append_cancel_left same
      have target := EntryCall.target_unique readable readable' calls
      have callee : call.callee = call'.callee := by
        rw [readable.2.2, readable'.2.2, target]
      have unknown : call.callee = .unknown := by
        apply Decidable.byContradiction
        intro classified
        have behind := ((EntryCall.read_accepts _).unique readable readable' calls).2
        rw [tight classified, tight' (callee ▸ classified)] at behind
        have width := congrArg List.length behind
        simp only [List.nil_append] at width
        omega
      exact .unknownCall call call' unknown (callee ▸ unknown) target
    | _ => cases congrArg List.head? same

theorem SameBlindKind.isBlind {p q : Payload} (same : p.SameBlindKind q) :
    p.blindReason?.isSome = true ∧ q.blindReason?.isSome = true := by
  cases same with
  | script body body' => exact ⟨rfl, rfl⟩
  | multisig body body' => exact ⟨rfl, rfl⟩
  | unknownCall call call' unknown unknown' _ => simp [blindReason?, unknown, unknown']

end Payload

/-- A transaction's input and a proper part of its front, if both are accepted, are blind for the
same reason, and agree in sender, sequence number and the function that they call. -/
theorem cut_request_stays_blind (o : Options) (x y : Bytes)
    (raw : Domain.rawTransaction.separator <+: x) (cut : x <+: y) (proper : x ≠ y) (r s : Request)
    (decoded : Request.decode o x = .ok r) (decoded' : Request.decode o y = .ok s) :
    r.isBlind = true ∧ s.isBlind = true ∧
      ∃ tx tx', r = .transaction tx ∧ s = .transaction tx' ∧ tx.sender = tx'.sender ∧
        tx.sequenceNumber = tx'.sequenceNumber ∧ tx.payload.SameBlindKind tx'.payload := by
  obtain ⟨p, payload, rfl, spelled, rfl⟩ := RawTransaction.Parts.exists_of_decode raw decoded
  obtain ⟨q, payload', rfl, spelled', rfl⟩ :=
    RawTransaction.Parts.exists_of_decode (raw.trans cut) decoded'
  obtain ⟨more, whole⟩ := cut
  have present : more ≠ [] := by
    rintro rfl
    exact proper (by rw [← whole, List.append_nil])
  rw [RawTransaction.Parts.input, RawTransaction.Parts.input, List.append_assoc, List.append_assoc]
    at whole
  obtain ⟨sender, sequenceNumber, bodies⟩ := RawTransaction.Parts.opening_inj whole
  have longer : q.footer.encode.length < (p.footer.encode ++ more).length := by
    have := List.length_pos_iff.mpr present
    rw [List.length_append, p.footer.length_encode, q.footer.length_encode]
    omega
  have kind := spelled.sameBlindKind spelled' bodies longer
  exact ⟨kind.isBlind.1, kind.isBlind.2, _, _, rfl, rfl, sender, sequenceNumber, kind⟩

/-- A transaction of zeros, so that its input without its last byte is that of a shorter script. -/
def sampleScript (body : Bytes) : RawTransaction :=
  ⟨.zero, 0, .script body, {}⟩

theorem cut_request_stays_blind_sampleScript :
    (Request.transaction (sampleScript [])).encode <+:
        (Request.transaction (sampleScript [0])).encode ∧
      Request.decode {} (Request.transaction (sampleScript [])).encode =
        .ok (.transaction (sampleScript [])) ∧
      Request.decode {} (Request.transaction (sampleScript [0])).encode =
        .ok (.transaction (sampleScript [0])) ∧
      (Request.transaction (sampleScript [])).isBlind = true ∧
      (Request.transaction (sampleScript [0])).isBlind = true := by
  have cut : (Request.transaction (sampleScript [])).encode <+:
      (Request.transaction (sampleScript [0])).encode := ⟨[0], by decide +kernel⟩
  have decoded : Request.decode {} (Request.transaction (sampleScript [])).encode =
      .ok (.transaction (sampleScript [])) := by decide +kernel
  have decoded' : Request.decode {} (Request.transaction (sampleScript [0])).encode =
      .ok (.transaction (sampleScript [0])) := by decide +kernel
  have blind := cut_request_stays_blind {} _ _ (List.prefix_append _ _) cut (by decide +kernel) _ _
    decoded decoded'
  exact ⟨cut, decoded, decoded', blind.1, blind.2.1⟩

end ClearSign
