import ClearSign.Proofs.Canonical.Call
import ClearSign.Proofs.Canonical.Cursor
import ClearSign.Request.Decode
import ClearSign.Request.Encode

namespace ClearSign

open Cursor

namespace Traced

@[simp] theorem result_pure (a : α) : (pure a : Traced α).result = .ok a := rfl

@[simp] theorem result_lift (result : Except DecodeError α) :
    (liftM result : Traced α).result = result := rfl

@[simp] theorem result_record (event : Event) : (record event).result = .ok () := rfl

end Traced

namespace Footer

theorem length_encode (footer : Footer) : footer.encode.length = 25 := by
  simp [encode]

theorem read_accepts : Footer.read.Accepts (fun _ => True) Footer.encode := by
  intro bs footer rest
  simp only [Footer.read, Read.bind_eq_ok_iff, Read.u64_accepts _ _ _ _, Read.byte_accepts _ _ _ _,
    Read.pure_apply, Prod.mk.injEq, Except.ok.injEq, true_and]
  constructor
  · intro read
    obtain ⟨_, _, rfl, _, _, rfl, _, _, rfl, _, _, rfl, rfl, rfl⟩ := read
    simp [encode]
  · rintro rfl
    refine ⟨footer.maxGasAmount, _, ?_, footer.gasUnitPrice, _, rfl, footer.expirationTimestamp, _,
      rfl, footer.chainId, rest, rfl, rfl, rfl⟩
    simp [encode]

theorem readAt_encode (before : Bytes) (footer : Footer) :
    readAt (before ++ footer.encode) before.length = .ok footer := by
  have read := read_between read_accepts (a := footer) trivial before []
  rw [List.append_nil] at read
  simp only [readAt, startAt_append, Except.ok_bind, read]
  rfl

theorem exists_encode {bs : Bytes} (width : bs.length = 25) :
    ∃ footer : Footer, bs = footer.encode := by
  obtain ⟨gas, rest, gas_width, rfl⟩ := Bytes.exists_split (by omega : 8 ≤ bs.length)
  rw [List.length_append] at width
  obtain ⟨price, rest, price_width, rfl⟩ := Bytes.exists_split (by omega : 8 ≤ rest.length)
  rw [List.length_append] at width
  obtain ⟨time, chain, time_width, rfl⟩ := Bytes.exists_split (by omega : 8 ≤ rest.length)
  rw [List.length_append] at width
  obtain ⟨maxGasAmount, rfl⟩ := LittleEndian.exists_u64 gas_width
  obtain ⟨gasUnitPrice, rfl⟩ := LittleEndian.exists_u64 price_width
  obtain ⟨expirationTimestamp, rfl⟩ := LittleEndian.exists_u64 time_width
  obtain ⟨chainId, rfl⟩ := List.length_eq_one_iff.mp (by omega : chain.length = 1)
  exact ⟨{ maxGasAmount, gasUnitPrice, expirationTimestamp, chainId }, by simp [encode]⟩

theorem exists_append {bs : Bytes} (long : 25 < bs.length) :
    ∃ (body : Bytes) (footer : Footer), body ≠ [] ∧ bs = body ++ footer.encode := by
  obtain ⟨body, ending, width, rfl⟩ := Bytes.exists_split (Nat.sub_le bs.length 25)
  rw [List.length_append] at long width
  obtain ⟨footer, rfl⟩ := Footer.exists_encode (by omega : ending.length = 25)
  exact ⟨body, footer, List.ne_nil_of_length_pos (by omega), rfl⟩

end Footer

namespace EntryCall

/-- The names are short enough, and the call does what its function was classified as. -/
def Readable (exact : Bool) (call : EntryCall) : Prop :=
  call.target.Bounded ∧ call.action.Bounded ∧ call.callee = call.target.classify exact

theorem read_accepts (exact : Bool) :
    (EntryCall.read exact).Accepts (Readable exact) EntryCall.encode := by
  intro bs call rest
  simp only [EntryCall.read, Read.bind_eq_ok_iff, FunctionId.read_accepts _ _ _,
    Action.read_accepts _ _ _ _, Read.pure_apply, Prod.mk.injEq, Except.ok.injEq]
  constructor
  · intro read
    obtain ⟨target, _, ⟨names, rfl⟩, action, _, ⟨⟨known, bounded⟩, rfl⟩, rfl, rfl⟩ := read
    exact ⟨⟨names, bounded, known⟩, (List.append_assoc ..).symm⟩
  · intro spelled
    obtain ⟨⟨names, bounded, known⟩, rfl⟩ := spelled
    exact ⟨call.target, _, ⟨names, List.append_assoc ..⟩, call.action, rest,
      ⟨⟨known, bounded⟩, rfl⟩, rfl, rfl⟩

end EntryCall

namespace Payload

/-- What bytes spell a payload. Behind a call that is not classified there may be a gap. -/
inductive Spelled (o : Options) : Payload → Bytes → Prop
  | script (body : Bytes) : Spelled o (.script body) (Kind.script.encode ++ body)
  | multisig (body : Bytes) : Spelled o (.multisig body) (Kind.multisig.encode ++ body)
  | call (call : EntryCall) (gap : Bytes) (readable : call.Readable o.exactFramework)
      (tight : call.callee ≠ .unknown → gap = []) :
      Spelled o (.entryFunction call) (Kind.entryFunction.encode ++ (call.encode ++ gap))

theorem Spelled.ne_nil {o : Options} {payload : Payload} {body : Bytes}
    (spelled : payload.Spelled o body) : body ≠ [] := by
  cases spelled <;> simp [Kind.encode, Varint.encode, Varint.digits, Kind.tag, Limits.varintBytes]

theorem Kind.eq_tag_of_ofTag? {tag : UInt32} {kind : Kind} (found : ofTag? tag = some kind) :
    tag = kind.tag := by
  unfold ofTag? at found
  split at found
  all_goals
    cases found <;> exact UInt32.toNat_inj.mp ‹_›

theorem readKind_eq_ok_iff {before after : Bytes} {kind : Kind} {c : Cursor} :
    readKind (between before after) = .ok (kind, c) ↔
      ∃ rest, after = kind.encode ++ rest ∧ c = between (before ++ kind.encode) rest := by
  simp only [readKind, Except.bind_eq_ok_iff, Prod.exists, read_eq_ok_iff (Read.varint_accepts _)]
  constructor
  · intro read
    obtain ⟨tag, _, ⟨-, rest, rfl, rfl⟩, read⟩ := read
    cases found : Kind.ofTag? tag with
    | none => simp [found] at read
    | some k =>
      simp only [found] at read
      cases read
      rw [Kind.eq_tag_of_ofTag? found]
      exact ⟨rest, rfl, rfl⟩
  · intro spelled
    obtain ⟨rest, rfl, rfl⟩ := spelled
    refine ⟨kind.tag, _, ⟨trivial, rest, rfl, rfl⟩, ?_⟩
    rw [Kind.ofTag?_tag]
    rfl

theorem readKind_eq_error_iff {c : Cursor} {e : DecodeError} :
    readKind c = .error e ↔ c.read (Read.varint "payload variant") = .error e ∨
      ∃ tag next, c.read (Read.varint "payload variant") = .ok (tag, next) ∧
        Kind.ofTag? tag = none ∧ e = .invalidPayloadVariant tag := by
  simp only [readKind, Except.bind_eq_error_iff, Prod.exists]
  refine or_congr_right (exists₂_congr fun tag next => and_congr_right fun _ => ?_)
  cases Kind.ofTag? tag <;> simp [pure, Except.pure, eq_comm]

theorem bodyBefore_eq_ok_iff {start : Nat} {before after body : Bytes} :
    bodyBefore start (between before after) = .ok body ↔
      start = before.length + body.length ∧ ∃ rest, after = body ++ rest := by
  have accepts := Read.bytes_accepts (start - before.length) "payload body"
  unfold bodyBefore
  by_cases overlaps : start < (between before after).pos
  · rw [if_pos overlaps]
    rw [pos_between] at overlaps
    constructor
    · intro read
      cases read
    · intro spelled
      obtain ⟨rfl, -⟩ := spelled
      omega
  · rw [if_neg overlaps]
    rw [pos_between] at overlaps ⊢
    constructor
    · intro read
      cases taken : (between before after).read
          (Read.bytes (start - before.length) "payload body") with
      | error e => simp [taken, Except.map] at read
      | ok answer =>
        obtain ⟨front, c⟩ := answer
        simp only [taken, Except.map, Except.ok.injEq] at read
        subst read
        obtain ⟨width, rest, rfl, -⟩ := (read_eq_ok_iff accepts).mp taken
        exact ⟨by omega, rest, rfl⟩
    · intro spelled
      obtain ⟨room, rest, rfl⟩ := spelled
      have taken := read_between accepts (a := body) (by omega) before rest
      simp only [id] at taken
      simp [taken, Except.map]

theorem eq_of_bodyBefore {kind : Kind} {before body ending rest s : Bytes}
    (split : body ++ ending = kind.encode ++ rest)
    (read : bodyBefore (before.length + body.length) (between (before ++ kind.encode) rest) =
      .ok s) : body = kind.encode ++ s := by
  obtain ⟨room, tail, rfl⟩ := bodyBefore_eq_ok_iff.mp read
  rw [← List.append_assoc] at split
  rw [List.length_append] at room
  have width : body.length = (kind.encode ++ s).length := by
    rw [List.length_append]
    omega
  exact (List.append_inj split width).1

theorem bodyBefore_append (kind : Kind) (before s ending : Bytes) :
    bodyBefore (before.length + (kind.encode ++ s).length)
      (between (before ++ kind.encode) (s ++ ending)) = .ok s := by
  refine bodyBefore_eq_ok_iff.mpr ⟨?_, ending, rfl⟩
  simp [Nat.add_assoc]

theorem checkEnd_eq_ok_iff {start pos : Nat} {callee : Callee} :
    checkEnd start pos callee = .ok () ↔ pos ≤ start ∧ (callee ≠ .unknown → pos = start) := by
  unfold checkEnd
  split
  · next unknown =>
    split
    · next overlaps => simp [overlaps, unknown]
    · next fits => simp [unknown, Nat.not_lt.mp fits]
  · next classified =>
    split
    · next misses => simp [misses, classified]
    · next hits => simp_all

theorem checkEnd_eq_error_iff {start pos : Nat} {callee : Callee} {e : DecodeError} :
    checkEnd start pos callee = .error e ↔
      (callee = .unknown ∧ start < pos ∧ e = .footerOverlap start pos) ∨
        (callee ≠ .unknown ∧ pos ≠ start ∧ e = .payloadLengthMismatch start pos) := by
  unfold checkEnd
  split
  · next unknown => split <;> simp_all [eq_comm]
  · next classified => split <;> simp_all [eq_comm]

theorem result_decodeCall {o : Options} (start : Nat) (before after : Bytes) {call : EntryCall}
    (readable : call.Readable o.exactFramework) :
    (decodeCall o start (between before (call.encode ++ after))).result =
      (checkEnd start (before.length + call.encode.length) call.callee).map fun _ => call := by
  obtain ⟨names, bounded, known⟩ := readable
  have target := read_between FunctionId.read_accepts names before (call.action.encode ++ after)
  have action := read_between (Action.read_accepts _) ⟨known, bounded⟩
    (before ++ call.target.encode) after
  have width : (before ++ call.target.encode ++ call.action.encode).length =
      before.length + call.encode.length := by
    simp [EntryCall.encode]
  have spelled : call.encode ++ after = call.target.encode ++ (call.action.encode ++ after) :=
    List.append_assoc ..
  simp only [decodeCall, Traced.result_bind, Traced.result_lift, Traced.result_record,
    Except.ok_bind, spelled, target]
  rw [action, Except.ok_bind, pos_between, width, ← known]
  cases checkEnd start _ call.callee <;> rfl

theorem decodeCall_eq_ok_iff {o : Options} {start : Nat} {before after : Bytes}
    {call : EntryCall} :
    (decodeCall o start (between before after)).result = .ok call ↔
      call.Readable o.exactFramework ∧ (∃ rest, after = call.encode ++ rest) ∧
        checkEnd start (before.length + call.encode.length) call.callee = .ok () := by
  constructor
  · intro decoded
    simp only [decodeCall, Traced.result_bind, Traced.result_lift, Traced.result_record,
      Except.ok_bind, Except.bind_eq_ok_iff, Prod.exists, read_eq_ok_iff FunctionId.read_accepts]
      at decoded
    obtain ⟨target, _, ⟨names, rest, rfl, rfl⟩, action, _, read, _, ends, done⟩ := decoded
    obtain ⟨⟨known, bounded⟩, rest, rfl, rfl⟩ := (read_eq_ok_iff (Action.read_accepts _)).mp read
    cases done
    refine ⟨⟨names, bounded, known⟩, ⟨rest, ?_⟩, ?_⟩
    · simp [EntryCall.encode]
    · simpa [EntryCall.encode, EntryCall.callee, known, Nat.add_assoc] using ends
  · intro spelled
    obtain ⟨readable, ⟨rest, rfl⟩, ends⟩ := spelled
    rw [result_decodeCall start before rest readable, ends]
    rfl

theorem result_decode_kind (o : Options) (start : Nat) (before : Bytes) (kind : Kind)
    (after : Bytes) :
    (Payload.decode o start (between before (kind.encode ++ after))).result =
      match kind with
      | .script => (bodyBefore start (between (before ++ kind.encode) after)).map .script
      | .multisig => (bodyBefore start (between (before ++ kind.encode) after)).map .multisig
      | .entryFunction =>
        (decodeCall o start (between (before ++ kind.encode) after)).result.map .entryFunction := by
  have read : readKind (between before (kind.encode ++ after)) =
      .ok (kind, between (before ++ kind.encode) after) :=
    readKind_eq_ok_iff.mpr ⟨after, rfl, rfl⟩
  simp only [Payload.decode, Traced.result_bind, Traced.result_lift, Traced.result_record, read,
    Except.ok_bind]
  cases kind with
  | script => cases bodyBefore start _ <;> rfl
  | multisig => cases bodyBefore start _ <;> rfl
  | entryFunction =>
    simp only [Traced.result_bind]
    cases (decodeCall o start _).result <;> rfl

theorem exists_kind_of_decode {o : Options} {start : Nat} {before after : Bytes}
    {payload : Payload}
    (decoded : (Payload.decode o start (between before after)).result = .ok payload) :
    ∃ (kind : Kind) (rest : Bytes), after = kind.encode ++ rest := by
  simp only [Payload.decode, Traced.result_bind, Traced.result_lift] at decoded
  obtain ⟨⟨kind, c⟩, read, -⟩ := Except.bind_eq_ok_iff.mp decoded
  obtain ⟨rest, spelled, -⟩ := readKind_eq_ok_iff.mp read
  exact ⟨kind, rest, spelled⟩

theorem spelled_of_decode {o : Options} {before body ending : Bytes} {payload : Payload}
    (decoded : (Payload.decode o (before.length + body.length)
      (between before (body ++ ending))).result = .ok payload) : payload.Spelled o body := by
  obtain ⟨kind, rest, split⟩ := exists_kind_of_decode decoded
  rw [split, result_decode_kind] at decoded
  cases kind with
  | script =>
    obtain ⟨s, read, rfl⟩ := Except.map_eq_ok_iff.mp decoded
    rw [eq_of_bodyBefore split read]
    exact .script s
  | multisig =>
    obtain ⟨s, read, rfl⟩ := Except.map_eq_ok_iff.mp decoded
    rw [eq_of_bodyBefore split read]
    exact .multisig s
  | entryFunction =>
    obtain ⟨call, read, rfl⟩ := Except.map_eq_ok_iff.mp decoded
    obtain ⟨readable, ⟨tail, rfl⟩, ends⟩ := decodeCall_eq_ok_iff.mp read
    obtain ⟨fits, tight⟩ := checkEnd_eq_ok_iff.mp ends
    rw [List.length_append] at fits tight
    have whole : Kind.entryFunction.encode ++ call.encode <+: body ++ ending :=
      ⟨tail, by rw [split, List.append_assoc]⟩
    have short : (Kind.entryFunction.encode ++ call.encode).length ≤ body.length := by
      rw [List.length_append]
      omega
    have front : Kind.entryFunction.encode ++ call.encode <+: body :=
      List.prefix_of_prefix_length_le whole (List.prefix_append body ending) short
    obtain ⟨gap, rfl⟩ := front
    rw [List.append_assoc]
    refine .call call gap readable ?_
    intro classified
    have width := tight classified
    simp only [List.length_append] at width
    exact List.length_eq_zero_iff.mp (by omega)

theorem decode_of_spelled {o : Options} {before body ending : Bytes} {payload : Payload}
    (spelled : payload.Spelled o body) :
    (Payload.decode o (before.length + body.length) (between before (body ++ ending))).result =
      .ok payload := by
  cases spelled with
  | script s =>
    rw [List.append_assoc, result_decode_kind]
    exact Except.map_eq_ok_iff.mpr ⟨s, bodyBefore_append _ _ _ _, rfl⟩
  | multisig s =>
    rw [List.append_assoc, result_decode_kind]
    exact Except.map_eq_ok_iff.mpr ⟨s, bodyBefore_append _ _ _ _, rfl⟩
  | call call gap readable tight =>
    rw [List.append_assoc, result_decode_kind, List.append_assoc]
    have ends : checkEnd
        (before.length + (Kind.entryFunction.encode ++ (call.encode ++ gap)).length)
        ((before ++ Kind.entryFunction.encode).length + call.encode.length) call.callee =
          .ok () := by
      rw [checkEnd_eq_ok_iff]
      simp only [List.length_append]
      refine ⟨by omega, ?_⟩
      intro classified
      rw [tight classified]
      simp [Nat.add_assoc]
    exact Except.map_eq_ok_iff.mpr
      ⟨call, decodeCall_eq_ok_iff.mpr ⟨readable, ⟨_, rfl⟩, ends⟩, rfl⟩

theorem Spelled.unique {o : Options} {p q : Payload} {body : Bytes} (spelled : p.Spelled o body)
    (spelled' : q.Spelled o body) : p = q := by
  have decoded := @decode_of_spelled o [] body [] p spelled
  rw [decode_of_spelled spelled'] at decoded
  exact (Except.ok.inj decoded).symm

end Payload

end ClearSign
