import ClearSign.Proofs.Grammar.Request

namespace ClearSign

def RawTransaction.around (tx : RawTransaction) (payload : Bytes) : Bytes :=
  Domain.rawTransaction.separator ++ tx.sender.bytes ++
    LittleEndian.toBytes 8 tx.sequenceNumber.toNat ++ payload ++ tx.footer.encode

/-- The input that a request was decoded from. -/
inductive Request.WrittenAs : Request → Bytes → Prop
  | script (tx : RawTransaction) (body : Bytes) (payload : tx.payload = .script body) :
      WrittenAs (.transaction tx) (tx.around ([0x00] ++ body))
  | multisig (tx : RawTransaction) (body : Bytes) (payload : tx.payload = .multisig body) :
      WrittenAs (.transaction tx) (tx.around ([0x03] ++ body))
  | classifiedCall (tx : RawTransaction) (call : EntryCall)
      (payload : tx.payload = .entryFunction call) (classified : call.callee ≠ .unknown) :
      WrittenAs (.transaction tx) (tx.around ([0x02] ++ call.target.encode ++ call.action.encode))
  | unknownCall (tx : RawTransaction) (call : EntryCall) (gap : Bytes)
      (payload : tx.payload = .entryFunction call) (unknown : call.callee = .unknown) :
      WrittenAs (.transaction tx) (tx.around ([0x02] ++ call.target.encode ++ gap))
  | transactionWithData (body : Bytes) :
      WrittenAs (.transactionWithData body) (Domain.rawTransactionWithData.separator ++ body)
  | plainMessage (message : Bytes) : WrittenAs (.plainMessage message) message
  | rawMessage (message : Bytes) : WrittenAs (.rawMessage message) message

namespace Request

theorem Spelled.writtenAs {o : Options} {request : Request} {input : Bytes}
    (spelled : request.Spelled o input) : request.WrittenAs input := by
  cases spelled with
  | transaction tx body payload =>
    have around : Domain.rawTransaction.separator ++
        (RawTransaction.encodeHead tx.sender tx.sequenceNumber ++ (body ++ tx.footer.encode)) =
          tx.around body := by
      simp [RawTransaction.around, RawTransaction.encodeHead]
    rw [around]
    generalize kind : tx.payload = payload at *
    cases payload with
    | script s => exact .script tx s kind
    | multisig s => exact .multisig tx s kind
    | call call gap readable tight =>
      have tag : Payload.Kind.entryFunction.encode = [0x02] := rfl
      rw [tag, ← List.append_assoc]
      by_cases unknown : call.callee = .unknown
      · rw [EntryCall.encode, Action.encode_of_unknown unknown, List.append_nil]
        exact .unknownCall tx call gap kind unknown
      · rw [tight unknown, List.append_nil, EntryCall.encode, ← List.append_assoc]
        exact .classifiedCall tx call kind unknown
  | transactionWithData body terminated => exact .transactionWithData body
  | plainMessage _ separate terminated plain => exact .plainMessage input
  | rawMessage _ separate terminated raw => exact .rawMessage input

theorem WrittenAs.eq_encode {request : Request} {input : Bytes} (written : request.WrittenAs input)
    (classified : ∀ call ∈ request.call?, call.callee ≠ .unknown) : input = request.encode := by
  have around (tx : RawTransaction) : tx.around tx.payload.encode = (transaction tx).encode := by
    simp [RawTransaction.around, encode, RawTransaction.encode, RawTransaction.encodeHead]
  cases written with
  | script tx body payload =>
    rw [← around, payload]
    rfl
  | multisig tx body payload =>
    rw [← around, payload]
    rfl
  | classifiedCall tx call payload known =>
    rw [← around, payload, List.append_assoc]
    rfl
  | unknownCall tx call gap payload unknown =>
    have called : (transaction tx).call? = some call := by
      obtain ⟨sender, number, _, footer⟩ := tx
      subst payload
      rfl
    exact absurd unknown (classified call called)
  | transactionWithData body => rfl
  | plainMessage message => rfl
  | rawMessage message => rfl

end Request

/-- Encoding undoes decoding: an input is written out of the request that it is decoded to, and no
other input is decoded to the same request, unless that calls a function that is not classified. -/
theorem decode_recovers (o : Options) (input : Bytes) (request : Request)
    (decoded : Request.decode o input = .ok request) :
    request.WrittenAs input ∧
      ((∀ call ∈ request.call?, call.callee ≠ .unknown) →
        ∀ o' input', Request.decode o' input' = .ok request → input' = input) := by
  have written := (Request.decode_eq_ok_iff.mp decoded).2.writtenAs
  refine ⟨written, ?_⟩
  intro classified o' input' other
  have written' := (Request.decode_eq_ok_iff.mp other).2.writtenAs
  rw [written'.eq_encode classified, written.eq_encode classified]

theorem decode_recovers_sampleTransfer :
    Request.decode {} (Request.transaction sampleTransfer).encode =
        .ok (.transaction sampleTransfer) ∧
      (Request.transaction sampleTransfer).WrittenAs (Request.transaction sampleTransfer).encode ∧
      ∀ o' input', Request.decode o' input' = .ok (.transaction sampleTransfer) →
        input' = (Request.transaction sampleTransfer).encode := by
  have decoded := decode_sampleTransfer
  have recovered := decode_recovers _ _ _ decoded
  refine ⟨decoded, recovered.1, recovered.2 ?_⟩
  rintro call ⟨⟩
  decide

end ClearSign
