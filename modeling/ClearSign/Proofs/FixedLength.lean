import ClearSign.Proofs.Grammar.Request

namespace ClearSign

namespace EntryCall

theorem length_encode (call : EntryCall) : 32 ≤ call.encode.length := by
  have names := call.target.length_encode
  rw [EntryCall.encode, List.length_append]
  omega

end EntryCall

namespace RawTransaction

def front (sender : Address) (sequenceNumber : UInt64) (call : EntryCall) : Bytes :=
  Domain.rawTransaction.separator ++ (encodeHead sender sequenceNumber ++
    (Payload.Kind.entryFunction.encode ++ call.encode))

theorem decode_front {o : Options} (sender : Address) (sequenceNumber : UInt64) {call : EntryCall}
    (readable : call.Readable o.exactFramework) (tail : Bytes)
    (fits : (front sender sequenceNumber call ++ tail).length ≤ o.maxLength) :
    ∃ footer, Request.decode o (front sender sequenceNumber call ++ tail) =
      (Payload.checkEnd ((front sender sequenceNumber call ++ tail).length - 25)
        (front sender sequenceNumber call).length call.callee).map fun _ =>
          .transaction ⟨sender, sequenceNumber, .entryFunction call, footer⟩ := by
  have long : 25 < (Payload.Kind.entryFunction.encode ++ (call.encode ++ tail)).length := by
    have := call.length_encode
    simp only [List.length_append]
    omega
  obtain ⟨body, footer, present, split⟩ := Footer.exists_append long
  have whole : front sender sequenceNumber call ++ tail = Domain.rawTransaction.separator ++
      (encodeHead sender sequenceNumber ++ (body ++ footer.encode)) := by
    simp [front, ← split]
  have start : (Domain.rawTransaction.separator ++ encodeHead sender sequenceNumber).length +
      body.length = (front sender sequenceNumber call ++ tail).length - 25 := by
    simp only [whole, List.length_append, footer.length_encode]
    omega
  have stop : (Domain.rawTransaction.separator ++ encodeHead sender sequenceNumber ++
      Payload.Kind.entryFunction.encode).length + call.encode.length =
        (front sender sequenceNumber call).length := by
    simp only [front, List.length_append]
    omega
  have decoded := Request.decode_rawTransaction (whole ▸ fits)
  rw [result_decode _ _ _ _ present, ← whole, start, ← split, Payload.result_decode_kind] at decoded
  refine ⟨footer, ?_⟩
  simp only [decoded, Payload.result_decodeCall _ _ _ readable, stop]
  cases Payload.checkEnd _ _ call.callee <;> rfl

theorem front_of_decode {o : Options} {input : Bytes} {sender : Address} {sequenceNumber : UInt64}
    {call : EntryCall} {footer : Footer} (classified : call.callee ≠ .unknown)
    (decoded : Request.decode o input =
      .ok (.transaction ⟨sender, sequenceNumber, .entryFunction call, footer⟩)) :
    call.Readable o.exactFramework ∧ input = front sender sequenceNumber call ++ footer.encode := by
  obtain ⟨-, spelled⟩ := Request.decode_eq_ok_iff.mp decoded
  cases spelled with
  | transaction _ body spelled =>
    cases spelled with
    | call _ gap readable tight =>
      refine ⟨readable, ?_⟩
      rw [tight classified]
      simp [front]

theorem not_decoded_of_cut {o : Options} {sender : Address} {sequenceNumber : UInt64}
    {call : EntryCall} (readable : call.Readable o.exactFramework) {z more : Bytes}
    (long : 32 ≤ z.length) (cut : front sender sequenceNumber call = z ++ more)
    (request : Request) : Request.decode o z ≠ .ok request := by
  intro decoded
  obtain ⟨-, spelled⟩ := Request.decode_eq_ok_iff.mp decoded
  have domain : Domain.of? z = some .rawTransaction := by
    have start : Domain.rawTransaction.separator <+: z := by
      have known : Domain.rawTransaction.separator <+: front sender sequenceNumber call :=
        List.prefix_append _ _
      exact List.prefix_of_prefix_length_le known ⟨more, cut.symm⟩ long
    obtain ⟨rest, rfl⟩ := start
    exact Domain.of?_append _ rest
  cases spelled with
  | transaction tx body spelled =>
    have same : Payload.Kind.entryFunction.encode ++ call.encode =
        body ++ (tx.footer.encode ++ more) := by
      rw [front, List.append_assoc, List.append_assoc, List.append_assoc] at cut
      exact (List.append_inj (List.append_cancel_left cut) (by simp [length_encodeHead])).2
    generalize tx.payload = payload at spelled
    cases spelled with
    | script s => cases congrArg List.head? same
    | multisig s => cases congrArg List.head? same
    | call other gap readable' tight =>
      rw [List.append_assoc, List.append_assoc] at same
      have alone : call.encode ++ [] = other.encode ++ (gap ++ (tx.footer.encode ++ more)) := by
        rw [List.append_nil]
        exact List.append_cancel_left same
      have nothing := ((EntryCall.read_accepts _).unique readable readable' alone).2
      have width := congrArg List.length nothing
      simp only [List.length_nil, List.length_append, tx.footer.length_encode] at width
      omega
  | transactionWithData body terminated =>
    rw [Request.withData, Domain.of?_append] at domain
    cases domain
  | plainMessage _ separate terminated plain =>
    rw [separate] at domain
    cases domain
  | rawMessage _ separate terminated raw =>
    rw [separate] at domain
    cases domain

end RawTransaction

/-- The length of a request to call a classified function is fixed by what stands before its
footer. With another footer it is still the same call; with more or fewer bytes it is refused, since
the call no longer ends where the footer starts; and cut within the call it is refused. -/
theorem classified_call_fixes_length (o : Options) (input : Bytes) (tx : RawTransaction)
    (call : EntryCall) (decoded : Request.decode o input = .ok (.transaction tx))
    (payload : tx.payload = .entryFunction call) (classified : call.callee ≠ .unknown)
    (z : Bytes) (fits : z.length ≤ o.maxLength) :
    (input.take (input.length - 25) <+: z → z.length = input.length →
        ∃ footer, Request.decode o z = .ok (.transaction { tx with footer })) ∧
      (input.take (input.length - 25) <+: z → z.length ≠ input.length →
        Request.decode o z =
          .error (.payloadLengthMismatch (z.length - 25) (input.length - 25))) ∧
      (32 ≤ z.length → z <+: input.take (input.length - 25) →
        z ≠ input.take (input.length - 25) → ∃ e, Request.decode o z = .error e) := by
  obtain ⟨sender, sequenceNumber, _, footer⟩ := tx
  subst payload
  obtain ⟨readable, rfl⟩ := RawTransaction.front_of_decode classified decoded
  have position : (RawTransaction.front sender sequenceNumber call ++ footer.encode).length - 25 =
      (RawTransaction.front sender sequenceNumber call).length := by
    rw [List.length_append, footer.length_encode, Nat.add_sub_cancel]
  rw [position, List.take_left]
  refine ⟨?_, ?_, ?_⟩
  · rintro ⟨tail, rfl⟩ same
    obtain ⟨footer', other⟩ := RawTransaction.decode_front sender sequenceNumber readable tail fits
    refine ⟨footer', ?_⟩
    rw [same, position] at other
    rw [other, Payload.checkEnd_eq_ok_iff.mpr ⟨Nat.le_refl _, fun _ => rfl⟩]
    rfl
  · rintro ⟨tail, rfl⟩ differs
    obtain ⟨footer', other⟩ := RawTransaction.decode_front sender sequenceNumber readable tail fits
    rw [other, Payload.checkEnd, if_neg classified, if_pos]
    · rfl
    · intro hit
      have long := call.length_encode
      simp only [RawTransaction.front, List.length_append, footer.length_encode] at hit differs
      omega
  · rintro long ⟨more, cut⟩ proper
    cases other : Request.decode o z with
    | error e => exact ⟨e, rfl⟩
    | ok request =>
      exact absurd other (RawTransaction.not_decoded_of_cut readable long cut.symm request)

theorem classified_call_fixes_length_sampleTransfer :
    Request.decode {} ((Request.transaction sampleTransfer).encode ++ [0]) =
      .error (.payloadLengthMismatch 219 218) := by
  have fixed := classified_call_fixes_length {} _ sampleTransfer _ decode_sampleTransfer rfl
    (by decide) ((Request.transaction sampleTransfer).encode ++ [0]) (by decide +kernel)
  refine (fixed.2.1 ?_ (by simp)).trans (by decide +kernel)
  exact (List.take_prefix _ _).trans (List.prefix_append _ _)

end ClearSign
