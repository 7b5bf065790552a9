import ClearSign.Proofs.Refusals

namespace ClearSign

open Cursor

namespace Payload

theorem result_decodeCall_read (o : Options) (start : Nat) (before after : Bytes) :
    (decodeCall o start (between before after)).result =
      (between before after).read (EntryCall.read o.exactFramework) >>= fun (call, c) =>
        (checkEnd start c.pos call.callee).map fun _ => call := by
  rw [EntryCall.read, read_bind FunctionId.read_accepts]
  simp only [decodeCall, Traced.result_bind, Traced.result_lift, Traced.result_record,
    Except.ok_bind]
  cases named : (between before after).read FunctionId.read with
  | error e => rfl
  | ok answer =>
    obtain ⟨target, c⟩ := answer
    obtain ⟨-, rest, rfl, rfl⟩ := (read_eq_ok_iff FunctionId.read_accepts).mp named
    have accepts := Action.read_accepts (target.classify o.exactFramework)
    simp only [Except.ok_bind]
    rw [read_bind accepts]
    cases acted : (between (before ++ target.encode) rest).read
        (Action.read (target.classify o.exactFramework)) with
    | error e => rfl
    | ok answer =>
      obtain ⟨action, c⟩ := answer
      obtain ⟨⟨known, -⟩, rest, rfl, rfl⟩ := (read_eq_ok_iff accepts).mp acted
      simp only [Except.ok_bind, read_pure, ← known, EntryCall.callee]
      cases checkEnd start _ action.callee <;> rfl

end Payload

namespace Envelope

/-- Sender, sequence number and footer are those at the fixed places of the input. -/
structure Framed (input : Bytes) (tx : RawTransaction) : Prop where
  sender : tx.sender.bytes = input.extract 32 64
  sequenceNumber : LittleEndian.toBytes 8 tx.sequenceNumber.toNat = input.extract 64 72
  footer : LittleEndian.toBytes 8 tx.footer.maxGasAmount.toNat ++
    LittleEndian.toBytes 8 tx.footer.gasUnitPrice.toNat ++
    LittleEndian.toBytes 8 tx.footer.expirationTimestamp.toNat ++ [tx.footer.chainId] =
      input.drop (input.length - 25)

/-- What the payload is, or why there is none, by what stands at byte 72. -/
inductive Tagged (o : Options) (input : Bytes) : Except DecodeError Payload → Prop
  | script (tag : input[72]? = some 0x00) :
      Tagged o input (.ok (.script (input.extract 73 (input.length - 25))))
  | multisig (tag : input[72]? = some 0x03) :
      Tagged o input (.ok (.multisig (input.extract 73 (input.length - 25))))
  | unreadableCall (tag : input[72]? = some 0x02) (e : DecodeError)
      (failed : (Cursor.mk input 73).read (EntryCall.read o.exactFramework) = .error e) :
      Tagged o input (.error e)
  | unknownCall (tag : input[72]? = some 0x02) (call : EntryCall) (c : Cursor)
      (read : (Cursor.mk input 73).read (EntryCall.read o.exactFramework) = .ok (call, c))
      (unknown : call.callee = .unknown) (ends : c.pos ≤ input.length - 25) :
      Tagged o input (.ok (.entryFunction call))
  | unknownOverlap (tag : input[72]? = some 0x02) (call : EntryCall) (c : Cursor)
      (read : (Cursor.mk input 73).read (EntryCall.read o.exactFramework) = .ok (call, c))
      (unknown : call.callee = .unknown) (late : input.length - 25 < c.pos) :
      Tagged o input (.error (.footerOverlap (input.length - 25) c.pos))
  | classifiedCall (tag : input[72]? = some 0x02) (call : EntryCall) (c : Cursor)
      (read : (Cursor.mk input 73).read (EntryCall.read o.exactFramework) = .ok (call, c))
      (classified : call.callee ≠ .unknown) (ends : c.pos = input.length - 25) :
      Tagged o input (.ok (.entryFunction call))
  | classifiedMismatch (tag : input[72]? = some 0x02) (call : EntryCall) (c : Cursor)
      (read : (Cursor.mk input 73).read (EntryCall.read o.exactFramework) = .ok (call, c))
      (classified : call.callee ≠ .unknown) (misses : c.pos ≠ input.length - 25) :
      Tagged o input (.error (.payloadLengthMismatch (input.length - 25) c.pos))
  | otherVariant (b : UInt8) (tag : input[72]? = some b) (other : b ∉ [0x00, 0x02, 0x03])
      (variant : UInt32) (spelled : Varint.encode variant <+: input.drop 72) :
      Tagged o input (.error (.invalidPayloadVariant variant))
  | noVariant (b : UInt8) (tag : input[72]? = some b) (other : b ∉ [0x00, 0x02, 0x03])
      (e : DecodeError) (malformed : ∀ context, e ≠ .unexpectedEnd context)
      (failed : (Cursor.mk input 72).read (Read.varint "payload variant") = .error e) :
      Tagged o input (.error e)

theorem extract_eq {input front middle back : Bytes} {i j : Nat}
    (split : input = front ++ (middle ++ back)) (start : i = front.length)
    (stop : j = i + middle.length) : input.extract i j = middle := by
  subst split start stop
  rw [List.extract_eq_take_drop, List.drop_left, Nat.add_sub_cancel_left, List.take_left]

section

open RawTransaction

variable (p : Parts)

theorem framed (payload : Payload) : Framed p.input (p.transaction payload) := by
  have address := p.sender.length_bytes
  have opened : p.input = Domain.rawTransaction.separator ++ (p.sender.bytes ++
      (LittleEndian.toBytes 8 p.sequenceNumber.toNat ++ (p.body ++ p.footer.encode))) := by
    rw [p.input_eq, encodeHead, List.append_assoc]
  constructor
  · exact (extract_eq opened (by rfl) (by rw [address])).symm
  · rw [← List.append_assoc] at opened
    refine (extract_eq opened ?_ ?_).symm
    · rw [List.length_append, Domain.length_separator, address]
    · rw [LittleEndian.length_toBytes]
  · exact p.drop_front.symm

variable {p}

theorem Framed.eq {tx : RawTransaction} (framed : Framed p.input tx) :
    tx = p.transaction tx.payload := by
  obtain ⟨sender, number, ending⟩ := Envelope.framed p tx.payload
  have head : encodeHead tx.sender tx.sequenceNumber ++ [] =
      encodeHead p.sender p.sequenceNumber ++ [] := by
    rw [encodeHead, encodeHead, framed.sender, framed.sequenceNumber, ← sender, ← number]
    rfl
  have footer : tx.footer.encode ++ [] = p.footer.encode ++ [] :=
    congrArg (· ++ []) (framed.footer.trans ending.symm)
  obtain ⟨same_sender, same_number, -⟩ := encodeHead_inj head
  have same_footer := (Footer.read_accepts.unique trivial trivial footer).1
  obtain ⟨_, _, _, _⟩ := tx
  subst same_sender same_number same_footer
  rfl

theorem mk_opening : Cursor.mk p.input 72 = between p.opening (p.body ++ p.footer.encode) := by
  rw [between, p.length_opening, Parts.input]

theorem exists_tag (p : Parts) : ∃ b, p.input[72]? = some b := by
  cases split : p.body with
  | nil => exact absurd split p.present
  | cons b body =>
    refine ⟨b, ?_⟩
    rw [Parts.input, split, List.getElem?_append_right (by rw [p.length_opening]), p.length_opening]
    rfl

theorem body_of_tag {b : UInt8} (tag : p.input[72]? = some b) :
    ∃ body, p.body = b :: body ∧ p.input.extract 73 (p.input.length - 25) = body ∧
      Cursor.mk p.input 73 = between (p.opening ++ [b]) (body ++ p.footer.encode) := by
  have opening := p.length_opening
  rw [Parts.input, List.getElem?_append_right (by omega), opening, Nat.sub_self] at tag
  cases split : p.body with
  | nil => exact absurd split p.present
  | cons b' body =>
    rw [split] at tag
    cases tag
    have whole : p.input = (p.opening ++ [b]) ++ (body ++ p.footer.encode) := by
      rw [Parts.input, split]
      simp
    refine ⟨body, rfl, extract_eq whole ?_ ?_, ?_⟩
    · rw [List.length_append, opening, List.length_singleton]
    · rw [p.length_input, split, List.length_cons]
      omega
    · rw [whole, between, List.length_append, opening, List.length_singleton]

def payloadAt (o : Options) (input : Bytes) : Payload.Kind → Except DecodeError Payload
  | .script => .ok (.script (input.extract 73 (input.length - 25)))
  | .multisig => .ok (.multisig (input.extract 73 (input.length - 25)))
  | .entryFunction => do
    let (call, c) ← (Cursor.mk input 73).read (EntryCall.read o.exactFramework)
    Payload.checkEnd (input.length - 25) c.pos call.callee
    return .entryFunction call

theorem result_of_kind (o : Options) (kind : Payload.Kind) {b : UInt8}
    (tag : p.input[72]? = some b) (written : kind.encode = [b]) :
    (Payload.decode o (p.input.length - 25)
      (between p.opening (p.body ++ p.footer.encode))).result = payloadAt o p.input kind := by
  obtain ⟨body, split, extracted, placed⟩ := body_of_tag tag
  have tagged : p.body = kind.encode ++ body := by
    rw [split, written]
    rfl
  have start := p.length_front
  rw [List.length_append, tagged] at start
  have uncut := Payload.bodyBefore_append kind p.opening body p.footer.encode
  rw [start, tagged, List.append_assoc, Payload.result_decode_kind, uncut]
  cases kind with
  | script => simp only [payloadAt, extracted, Except.map]
  | multisig => simp only [payloadAt, extracted, Except.map]
  | entryFunction =>
    simp only [Payload.result_decodeCall_read, payloadAt, start, placed, written]
    cases (between (p.opening ++ [b]) (body ++ p.footer.encode)).read
        (EntryCall.read o.exactFramework) with
    | error e => rfl
    | ok answer =>
      simp only [Except.ok_bind]
      cases Payload.checkEnd _ answer.2.pos answer.1.callee <;> rfl

theorem payloadAt_of_read {o : Options} {input : Bytes} {call : EntryCall} {c : Cursor}
    (read : (Cursor.mk input 73).read (EntryCall.read o.exactFramework) = .ok (call, c)) :
    payloadAt o input .entryFunction =
      (Payload.checkEnd (input.length - 25) c.pos call.callee).map fun _ =>
        .entryFunction call := by
  simp only [payloadAt, read, Except.ok_bind]
  cases Payload.checkEnd _ c.pos call.callee <;> rfl

theorem ofTag?_eq_none {input : Bytes} {b : UInt8} {variant : UInt32}
    (tag : input[72]? = some b) (other : b ∉ [0x00, 0x02, 0x03])
    (spelled : Varint.encode variant <+: input.drop 72) : Payload.Kind.ofTag? variant = none := by
  cases found : Payload.Kind.ofTag? variant with
  | none => rfl
  | some kind =>
    obtain ⟨more, spelled⟩ := spelled
    have first := congrArg List.head? spelled
    rw [Payload.Kind.eq_tag_of_ofTag? found, List.head?_drop, tag] at first
    cases kind <;> cases first <;> exact absurd (by decide) other

/-- Behind the head there is room for whatever varint the tag is found to be. -/
theorem not_ended_of_read {context context' : String} {e : DecodeError}
    (failed : (Cursor.mk p.input 72).read (Read.varint context) = .error e) :
    e ≠ .unexpectedEnd context' := by
  rintro rfl
  obtain ⟨rest, ended⟩ := read_eq_error_iff.mp failed
  have short := Read.length_lt_of_varint_ended ended
  rw [mk_opening, Cursor.remaining, data_between, pos_between, List.drop_left,
    List.length_append, p.footer.length_encode] at short
  omega

theorem Tagged.result {o : Options} {outcome : Except DecodeError Payload}
    (tagged : Tagged o p.input outcome) :
    (Payload.decode o (p.input.length - 25)
      (between p.opening (p.body ++ p.footer.encode))).result = outcome := by
  cases tagged with
  | script tag => exact result_of_kind o .script tag rfl
  | multisig tag => exact result_of_kind o .multisig tag rfl
  | unreadableCall tag e failed =>
    rw [result_of_kind o .entryFunction tag rfl, payloadAt, failed]
    rfl
  | unknownCall tag call c read unknown ends =>
    have fits : Payload.checkEnd (p.input.length - 25) c.pos call.callee = .ok () :=
      Payload.checkEnd_eq_ok_iff.mpr ⟨ends, fun classified => absurd unknown classified⟩
    rw [result_of_kind o .entryFunction tag rfl, payloadAt_of_read read, fits]
    rfl
  | unknownOverlap tag call c read unknown late =>
    have overlaps := Payload.checkEnd_eq_error_iff.mpr (.inl ⟨unknown, late, rfl⟩)
    rw [result_of_kind o .entryFunction tag rfl, payloadAt_of_read read, overlaps]
    rfl
  | classifiedCall tag call c read classified ends =>
    have fits : Payload.checkEnd (p.input.length - 25) c.pos call.callee = .ok () :=
      Payload.checkEnd_eq_ok_iff.mpr ⟨Nat.le_of_eq ends, fun _ => ends⟩
    rw [result_of_kind o .entryFunction tag rfl, payloadAt_of_read read, fits]
    rfl
  | classifiedMismatch tag call c read classified misses =>
    have mismatch := Payload.checkEnd_eq_error_iff.mpr (.inr ⟨classified, misses, rfl⟩)
    rw [result_of_kind o .entryFunction tag rfl, payloadAt_of_read read, mismatch]
    rfl
  | otherVariant b tag other variant spelled =>
    obtain ⟨more, spelled⟩ := spelled
    have unknown := ofTag?_eq_none tag other ⟨more, spelled⟩
    have read := read_between (Read.varint_accepts "payload variant") (a := variant) trivial
      p.opening more
    rw [p.drop_opening] at spelled
    simp only [Payload.decode, Traced.result_bind, Traced.result_lift, Payload.readKind, ← spelled,
      read, Except.ok_bind, unknown]
    rfl
  | noVariant b tag other e malformed failed =>
    rw [mk_opening] at failed
    simp only [Payload.decode, Traced.result_bind, Traced.result_lift, Payload.readKind, failed]
    rfl

theorem exists_tagged (o : Options) (p : Parts) : ∃ outcome, Tagged o p.input outcome := by
  obtain ⟨b, tag⟩ := exists_tag p
  by_cases known : b ∈ [0x00, 0x02, 0x03]
  · simp only [List.mem_cons, List.not_mem_nil, or_false] at known
    obtain rfl | rfl | rfl := known
    · exact ⟨_, .script tag⟩
    · cases read : (Cursor.mk p.input 73).read (EntryCall.read o.exactFramework) with
      | error e => exact ⟨_, .unreadableCall tag e read⟩
      | ok answer =>
        obtain ⟨call, c⟩ := answer
        by_cases unknown : call.callee = .unknown
        · obtain late | ends := Nat.lt_or_ge (p.input.length - 25) c.pos
          · exact ⟨_, .unknownOverlap tag call c read unknown late⟩
          · exact ⟨_, .unknownCall tag call c read unknown ends⟩
        · by_cases ends : c.pos = p.input.length - 25
          · exact ⟨_, .classifiedCall tag call c read unknown ends⟩
          · exact ⟨_, .classifiedMismatch tag call c read unknown ends⟩
    · exact ⟨_, .multisig tag⟩
  · cases read : (Cursor.mk p.input 72).read (Read.varint "payload variant") with
    | error e => exact ⟨_, .noVariant b tag known e (fun _ => not_ended_of_read read) read⟩
    | ok answer =>
      obtain ⟨variant, c⟩ := answer
      rw [mk_opening] at read
      obtain ⟨-, more, spelled, -⟩ := (read_eq_ok_iff (Read.varint_accepts _)).mp read
      refine ⟨_, .otherVariant b tag known variant ⟨more, ?_⟩⟩
      rw [p.drop_opening, spelled]

theorem Tagged.decode {o : Options} {outcome : Except DecodeError Payload}
    (tagged : Tagged o p.input outcome) (fits : p.input.length ≤ o.maxLength) :
    Request.decode o p.input = outcome.map fun payload => .transaction (p.transaction payload) := by
  have start := p.length_front
  rw [List.length_append] at start
  rw [p.decode_input fits, ← start, tagged.result]

end

theorem decode_short {o : Options} {input : Bytes} (raw : Domain.rawTransaction.separator <+: input)
    (fits : input.length ≤ o.maxLength) (short : input.length ≤ 97) :
    Request.decode o input =
      if input.length < 64 then .error (.unexpectedEnd "sender")
      else if input.length < 72 then .error (.unexpectedEnd "sequence number")
      else .error (.footerOverlap (input.length - 25) 72) := by
  obtain ⟨rest, rfl⟩ := raw
  have separator := Domain.length_separator .rawTransaction
  have headless : (Domain.rawTransaction.separator ++ rest).length < 64 ↔ rest.length < 32 := by
    rw [List.length_append]
    omega
  have unnumbered : (Domain.rawTransaction.separator ++ rest).length < 72 ↔ rest.length < 40 := by
    rw [List.length_append]
    omega
  rw [List.length_append] at short
  rw [Request.decode_rawTransaction fits, RawTransaction.result_decode_short (by omega), separator]
  simp only [headless, unnumbered]
  split
  · rfl
  · split <;> rfl

end Envelope

/-- An input behind the separator of transactions is refused for what is missing of the head, or
because head and footer leave no byte between them. With at least one byte there, sender, sequence
number and footer are found at their places, and what stands at byte 72 decides whether there is a
payload and which, or what the input is refused for. -/
theorem envelope_exact (o : Options) (input : Bytes)
    (raw : Domain.rawTransaction.separator <+: input) (fits : input.length ≤ o.maxLength) :
    (input.length < 64 → Request.decode o input = .error (.unexpectedEnd "sender")) ∧
    (64 ≤ input.length → input.length < 72 →
      Request.decode o input = .error (.unexpectedEnd "sequence number")) ∧
    (72 ≤ input.length → input.length ≤ 97 →
      Request.decode o input = .error (.footerOverlap (input.length - 25) 72)) ∧
    (98 ≤ input.length →
      (∀ request, Request.decode o input = .ok request ↔ ∃ tx, request = .transaction tx ∧
        Envelope.Framed input tx ∧ Envelope.Tagged o input (.ok tx.payload)) ∧
      ∀ e, Request.decode o input = .error e ↔ Envelope.Tagged o input (.error e)) := by
  refine ⟨?_, ?_, ?_, ?_⟩
  · intro headless
    rw [Envelope.decode_short raw fits (by omega), if_pos headless]
  · intro head unnumbered
    rw [Envelope.decode_short raw fits (by omega), if_neg (by omega), if_pos unnumbered]
  · intro numbered short
    rw [Envelope.decode_short raw fits short, if_neg (by omega), if_neg (by omega)]
  · intro long
    obtain ⟨p, rfl⟩ := RawTransaction.Parts.exists_of_input raw long
    obtain ⟨outcome, tagged⟩ := Envelope.exists_tagged o p
    have answer := tagged.decode fits
    refine ⟨fun request => ⟨?_, ?_⟩, fun e => ⟨?_, ?_⟩⟩
    · intro decoded
      rw [answer] at decoded
      obtain ⟨payload, rfl, rfl⟩ := Except.map_eq_ok_iff.mp decoded
      exact ⟨_, rfl, Envelope.framed p payload, tagged⟩
    · rintro ⟨tx, rfl, framed, tagged⟩
      rw [tagged.decode fits, framed.eq]
      rfl
    · intro refused
      rw [answer] at refused
      obtain rfl := Except.map_eq_error_iff.mp refused
      exact tagged
    · intro tagged
      rw [tagged.decode fits]
      rfl

/-- A transaction of zeros behind the separator, with no byte for a payload or with one. -/
theorem envelope_exact_zeros :
    Request.decode {} (Domain.rawTransaction.separator ++ List.replicate 65 0) =
        .error (.footerOverlap 72 72) ∧
      Request.decode {} (Domain.rawTransaction.separator ++ List.replicate 66 0) =
        .ok (.transaction ⟨.zero, 0, .script [], {}⟩) := by
  have raw (count : Nat) : Domain.rawTransaction.separator <+:
      Domain.rawTransaction.separator ++ List.replicate count 0 := List.prefix_append _ _
  have short := envelope_exact {} _ (raw 65) (by decide)
  have long := envelope_exact {} _ (raw 66) (by decide)
  refine ⟨short.2.2.1 (by decide) (by decide), ?_⟩
  refine ((long.2.2.2 (by decide)).1 _).mpr ⟨_, rfl, ⟨by decide, by decide, by decide⟩, ?_⟩
  exact .script (by decide)

end ClearSign
