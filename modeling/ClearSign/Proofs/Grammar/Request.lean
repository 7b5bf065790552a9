import ClearSign.Proofs.Grammar.Payload

/-!
The grammar of requests. `Request.Spelled` says what bytes spell a request, and decoding accepts
just these, up to the longest input.
-/

namespace ClearSign

open Cursor

theorem exists_parts {bs : Bytes} (long : 40 + 25 < bs.length) :
    ∃ (sender : Address) (sequenceNumber : UInt64) (body : Bytes) (footer : Footer), body ≠ [] ∧
      bs = RawTransaction.encodeHead sender sequenceNumber ++ (body ++ footer.encode) := by
  obtain ⟨sender, rest, sender_width, rfl⟩ := Bytes.exists_split (by omega : 32 ≤ bs.length)
  rw [List.length_append] at long
  obtain ⟨number, rest, number_width, rfl⟩ := Bytes.exists_split (by omega : 8 ≤ rest.length)
  rw [List.length_append] at long
  obtain ⟨body, footer, present, rfl⟩ := Footer.exists_append (by omega : 25 < rest.length)
  obtain ⟨sequenceNumber, rfl⟩ := LittleEndian.exists_u64 number_width
  refine ⟨⟨sender, sender_width⟩, sequenceNumber, body, footer, present, ?_⟩
  simp [RawTransaction.encodeHead]

namespace RawTransaction

theorem length_encodeHead (sender : Address) (sequenceNumber : UInt64) :
    (encodeHead sender sequenceNumber).length = 40 := by
  simp [encodeHead, sender.length_bytes]

theorem footerStart_between (before after : Bytes) :
    footerStart (between before after) =
      if after.length ≤ 25 then
        .error (.footerOverlap ((before ++ after).length - 25) before.length)
      else .ok ((before ++ after).length - 25) := by
  have overlaps : (between before after).data.length - Footer.width ≤ (between before after).pos ↔
      after.length ≤ 25 := by
    simp only [data_between, pos_between, Footer.width, List.length_append]
    omega
  unfold footerStart
  by_cases short : after.length ≤ 25
  · rw [if_pos short]
    exact if_pos (overlaps.mpr short)
  · rw [if_neg short]
    exact if_neg (mt overlaps.mp short)

theorem result_decode (o : Options) (before : Bytes) (sender : Address) (sequenceNumber : UInt64)
    {body : Bytes} (present : body ≠ []) (footer : Footer) :
    (RawTransaction.decode o (between before
        (encodeHead sender sequenceNumber ++ (body ++ footer.encode)))).result =
      (Payload.decode o ((before ++ encodeHead sender sequenceNumber).length + body.length)
        (between (before ++ encodeHead sender sequenceNumber)
          (body ++ footer.encode))).result.map
        fun payload => ⟨sender, sequenceNumber, payload, footer⟩ := by
  have start : (before ++ encodeHead sender sequenceNumber).length + body.length =
      (before ++ encodeHead sender sequenceNumber ++ body).length := by
    simp only [List.length_append]
  have room : footerStart (between (before ++ encodeHead sender sequenceNumber)
      (body ++ footer.encode)) =
        .ok ((before ++ encodeHead sender sequenceNumber).length + body.length) := by
    have := List.length_pos_iff.mpr present
    rw [footerStart_between, if_neg (by simp [footer.length_encode, present])]
    simp only [List.length_append, footer.length_encode]
    exact congrArg Except.ok (by omega)
  have opening : (between before (encodeHead sender sequenceNumber ++ (body ++ footer.encode))).read
      (Read.address "sender") = .ok (sender, between (before ++ sender.bytes)
        (LittleEndian.toBytes 8 sequenceNumber.toNat ++ (body ++ footer.encode))) := by
    rw [encodeHead, List.append_assoc]
    exact read_between (Read.address_accepts "sender") trivial _ _
  have number : (between (before ++ sender.bytes)
      (LittleEndian.toBytes 8 sequenceNumber.toNat ++ (body ++ footer.encode))).read
        (Read.u64 "sequence number") = .ok (sequenceNumber,
          between (before ++ encodeHead sender sequenceNumber) (body ++ footer.encode)) := by
    rw [encodeHead, ← List.append_assoc before]
    exact read_between (Read.u64_accepts "sequence number") trivial _ _
  have ending : Footer.readAt
      (before ++ encodeHead sender sequenceNumber ++ (body ++ footer.encode))
      ((before ++ encodeHead sender sequenceNumber).length + body.length) = .ok footer := by
    rw [start, ← List.append_assoc]
    exact Footer.readAt_encode _ footer
  simp only [RawTransaction.decode, Traced.result_bind, Traced.result_lift, Traced.result_pure,
    opening, Except.ok_bind, number, room, data_between, ending]
  cases (Payload.decode o _ _).result <;> rfl

theorem long_of_decode {o : Options} {before bs : Bytes} {tx : RawTransaction}
    (decoded : (RawTransaction.decode o (between before bs)).result = .ok tx) :
    40 + 25 < bs.length := by
  simp only [RawTransaction.decode, Traced.result_bind, Traced.result_lift,
    Except.bind_eq_ok_iff, Prod.exists, read_eq_ok_iff (Read.address_accepts _)] at decoded
  obtain ⟨sender, _, ⟨-, rest, rfl, rfl⟩, number, _, read, start, room, -⟩ := decoded
  obtain ⟨-, rest, rfl, rfl⟩ := (read_eq_ok_iff (Read.u64_accepts _)).mp read
  rw [footerStart_between] at room
  split at room
  · cases room
  · next long =>
    simp only [List.length_append, sender.length_bytes, LittleEndian.length_toBytes]
    omega

end RawTransaction

namespace Domain

theorem of?_append (domain : Domain) (rest : Bytes) :
    of? (domain.separator ++ rest) = some domain := by
  have front : (domain.separator ++ rest).take 32 = domain.separator := by
    rw [← length_separator domain, List.take_left]
  unfold of? ofSeparator?
  rw [front]
  cases domain with
  | rawTransaction => rfl
  | rawTransactionWithData => rfl

theorem exists_append_of_of? {bs : Bytes} {domain : Domain} (found : of? bs = some domain) :
    ∃ rest, bs = domain.separator ++ rest := by
  refine ⟨bs.drop 32, ?_⟩
  unfold of? ofSeparator? at found
  split at found
  · next front =>
    cases found
    rw [← front, List.take_append_drop]
  · split at found
    · next front =>
      cases found
      rw [← front, List.take_append_drop]
    · cases found

theorem of?_eq_none_iff {bs : Bytes} :
    of? bs = none ↔ ∀ domain : Domain, bs.take 32 ≠ domain.separator := by
  unfold of? ofSeparator?
  constructor
  · intro none domain
    split at none
    · cases none
    · next other =>
      split at none
      · cases none
      · next further =>
        cases domain with
        | rawTransaction => exact other
        | rawTransactionWithData => exact further
  · intro separate
    rw [if_neg (separate .rawTransaction), if_neg (separate .rawTransactionWithData)]

theorem of?_eq_none_of_short {bs : Bytes} (short : bs.length < width) : of? bs = none := by
  rw [of?_eq_none_iff]
  intro domain front
  have length_front := congrArg List.length front
  rw [List.length_take, length_separator] at length_front
  unfold width at short
  omega

end Domain

namespace Request

/-- An input that fills the limit ends in NUL. -/
def Terminated (o : Options) (input : Bytes) : Prop :=
  input.length = o.maxLength → ∀ last ∈ input.getLast?, last = 0

/-- What bytes spell a request. -/
inductive Spelled (o : Options) : Request → Bytes → Prop
  | transaction (tx : RawTransaction) (body : Bytes) (payload : tx.payload.Spelled o body) :
      Spelled o (.transaction tx) (Domain.rawTransaction.separator ++
        (RawTransaction.encodeHead tx.sender tx.sequenceNumber ++ (body ++ tx.footer.encode)))
  | transactionWithData (body : Bytes) (terminated : Terminated o (withData body)) :
      Spelled o (.transactionWithData body) (withData body)
  | plainMessage (input : Bytes) (separate : Domain.of? input = none)
      (terminated : Terminated o input) (plain : Message.isPlain input = true) :
      Spelled o (.plainMessage input) input
  | rawMessage (input : Bytes) (separate : Domain.of? input = none)
      (terminated : Terminated o input) (raw : Message.isPlain input = false) :
      Spelled o (.rawMessage input) input

theorem spelled_ofMessage {o : Options} {input : Bytes} (separate : Domain.of? input = none)
    (terminated : Terminated o input) : Spelled o (ofMessage input) input := by
  unfold ofMessage
  split
  · next plain => exact .plainMessage input separate terminated plain
  · next raw => exact .rawMessage input separate terminated (by simpa using raw)

theorem checkTerminated_eq_ok_iff {o : Options} {input : Bytes} :
    checkTerminated o input = .ok () ↔ Terminated o input := by
  unfold checkTerminated Terminated
  cases input.getLast? with
  | none => simp
  | some last => simp

/-- A separator is there just where the first bytes of the input are one. -/
theorem decodeTraced_eq (o : Options) (input : Bytes) :
    decodeTraced o input =
      if o.maxLength < input.length then .fail (.inputTooLong input.length o.maxLength)
      else
        match Domain.of? input with
        | some .rawTransaction => do
          Traced.record (.matchedDomain .rawTransaction)
          return .transaction (← RawTransaction.decode o ⟨input, Domain.width⟩)
        | some .rawTransactionWithData => do
          Traced.record (.matchedDomain .rawTransactionWithData)
          checkTerminated o input
          return .transactionWithData (input.drop Domain.width)
        | none => do
          checkTerminated o input
          Traced.record (.classifiedMessage (ofMessage input).kind input.length)
          return ofMessage input := by
  unfold decodeTraced
  rw [Reader.bytes_start (by decide : Domain.width < UInt64.size)]
  by_cases enough : Domain.width ≤ input.length
  · rw [if_pos enough]
    rfl
  · rw [if_neg enough, Domain.of?_eq_none_of_short (Nat.lt_of_not_le enough)]
    rfl

theorem decode_long {o : Options} {input : Bytes} (long : o.maxLength < input.length) :
    decode o input = .error (.inputTooLong input.length o.maxLength) := by
  rw [decode, decodeTraced_eq, if_pos long]
  rfl

theorem decode_rawTransaction {o : Options} {rest : Bytes}
    (fits : (Domain.rawTransaction.separator ++ rest).length ≤ o.maxLength) :
    decode o (Domain.rawTransaction.separator ++ rest) =
      (RawTransaction.decode o (between Domain.rawTransaction.separator rest)).result.map
        .transaction := by
  have start : (⟨Domain.rawTransaction.separator ++ rest, Domain.width⟩ : Cursor) =
      between Domain.rawTransaction.separator rest := rfl
  rw [decode, decodeTraced_eq, if_neg (by omega), Domain.of?_append]
  simp only [Traced.result_bind, Traced.result_record, Except.ok_bind, start]
  cases (RawTransaction.decode o _).result <;> rfl

theorem decode_withData {o : Options} {body : Bytes} (fits : (withData body).length ≤ o.maxLength) :
    decode o (withData body) =
      (checkTerminated o (withData body)).map fun _ => .transactionWithData body := by
  have behind : (withData body).drop Domain.width = body := by
    change (withData body).drop Domain.rawTransactionWithData.separator.length = body
    exact List.drop_left
  rw [decode, decodeTraced_eq, if_neg (by omega), behind, withData, Domain.of?_append]
  simp only [Traced.result_bind, Traced.result_lift, Traced.result_record, Except.ok_bind]
  cases checkTerminated o _ <;> rfl

theorem decode_message {o : Options} {input : Bytes} (fits : input.length ≤ o.maxLength)
    (none : Domain.of? input = none) :
    decode o input = (checkTerminated o input).map fun _ => ofMessage input := by
  rw [decode, decodeTraced_eq, if_neg (by omega), none]
  simp only [Traced.result_bind, Traced.result_lift]
  cases checkTerminated o input <;> rfl

/-- Decoding accepts just the bytes that spell a request, up to the longest input. -/
theorem decode_eq_ok_iff {o : Options} {input : Bytes} {request : Request} :
    decode o input = .ok request ↔ input.length ≤ o.maxLength ∧ request.Spelled o input := by
  constructor
  · intro decoded
    have fits : input.length ≤ o.maxLength := by
      apply Nat.le_of_not_lt
      intro long
      rw [decode_long long] at decoded
      cases decoded
    refine ⟨fits, ?_⟩
    cases found : Domain.of? input with
    | none =>
      rw [decode_message fits found] at decoded
      obtain ⟨⟨⟩, terminated, rfl⟩ := Except.map_eq_ok_iff.mp decoded
      exact spelled_ofMessage found (checkTerminated_eq_ok_iff.mp terminated)
    | some domain =>
      obtain ⟨rest, rfl⟩ := Domain.exists_append_of_of? found
      cases domain with
      | rawTransaction =>
        rw [decode_rawTransaction fits] at decoded
        obtain ⟨tx, read, rfl⟩ := Except.map_eq_ok_iff.mp decoded
        obtain ⟨sender, sequenceNumber, body, footer, present, rfl⟩ :=
          exists_parts (RawTransaction.long_of_decode read)
        rw [RawTransaction.result_decode _ _ _ _ present] at read
        obtain ⟨payload, inner, rfl⟩ := Except.map_eq_ok_iff.mp read
        exact .transaction ⟨sender, sequenceNumber, payload, footer⟩ body
          (Payload.spelled_of_decode inner)
      | rawTransactionWithData =>
        have decoded : decode o (withData rest) = .ok request := decoded
        rw [decode_withData fits] at decoded
        obtain ⟨⟨⟩, terminated, rfl⟩ := Except.map_eq_ok_iff.mp decoded
        exact .transactionWithData rest (checkTerminated_eq_ok_iff.mp terminated)
  · rintro ⟨fits, spelled⟩
    cases spelled with
    | transaction tx body payload =>
      rw [decode_rawTransaction fits, RawTransaction.result_decode _ _ _ _ payload.ne_nil,
        Payload.decode_of_spelled payload]
      rfl
    | transactionWithData body terminated =>
      rw [decode_withData fits, checkTerminated_eq_ok_iff.mpr terminated]
      rfl
    | plainMessage input separate terminated plain =>
      rw [decode_message fits separate, checkTerminated_eq_ok_iff.mpr terminated]
      simp [Except.map, ofMessage, plain]
    | rawMessage input separate terminated raw =>
      rw [decode_message fits separate, checkTerminated_eq_ok_iff.mpr terminated]
      simp [Except.map, ofMessage, raw]

end Request

/-- A transfer of the native coin, on which the theorems about classified calls are tried. -/
def sampleTransfer : RawTransaction where
  sender := .zero
  sequenceNumber := 7
  payload := .entryFunction ⟨⟨⟨.framework, Utf8.encode "coin"⟩, Utf8.encode "transfer"⟩,
    .coinTransfer ⟨.aptosCoin, ⟨.framework, 1000⟩⟩⟩
  footer := { maxGasAmount := 2000, gasUnitPrice := 100, chainId := 1 }

theorem decode_sampleTransfer :
    Request.decode {} (Request.transaction sampleTransfer).encode =
      .ok (.transaction sampleTransfer) := by
  decide +kernel

end ClearSign
