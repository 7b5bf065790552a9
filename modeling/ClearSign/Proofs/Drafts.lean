import ClearSign.Proofs.Grammar.Request
import ClearSign.Request.Draft

namespace ClearSign

namespace Draft

namespace Edit

def sequenceNumber? : Edit → Option UInt64
  | .sequenceNumber value => some value
  | _ => none

def maxGasAmount? : Edit → Option UInt64
  | .maxGasAmount value => some value
  | _ => none

def gasUnitPrice? : Edit → Option UInt64
  | .gasUnitPrice value => some value
  | _ => none

def expirationTimestamp? : Edit → Option UInt64
  | .expirationTimestamp value => some value
  | _ => none

def chainId? : Edit → Option UInt8
  | .chainId value => some value
  | _ => none

def payload? : Edit → Option Draft.Payload
  | .script body => some (.script body)
  | .multisig body => some (.multisig body)
  | .call c => some (.call c)
  | .accountTransfer receiver amount =>
    some (transfer "aptos_account" "transfer" [] receiver amount)
  | .coinTransfer coin receiver amount =>
    some (transfer "coin" "transfer" [coin] receiver amount)
  | .accountTransferCoins coin receiver amount =>
    some (transfer "aptos_account" "transfer_coins" [coin] receiver amount)
  | _ => none

end Edit

def last (field? : Edit → Option α) (edits : List Edit) (value : α) : α :=
  (edits.filterMap field?).getLastD value

/-- The draft after the edits, each field on its own. -/
def settle (draft : Draft) (edits : List Edit) : Draft where
  sender := draft.sender
  sequenceNumber := last Edit.sequenceNumber? edits draft.sequenceNumber
  payload := last Edit.payload? edits draft.payload
  footer :=
    { maxGasAmount := last Edit.maxGasAmount? edits draft.footer.maxGasAmount
      gasUnitPrice := last Edit.gasUnitPrice? edits draft.footer.gasUnitPrice
      expirationTimestamp := last Edit.expirationTimestamp? edits draft.footer.expirationTimestamp
      chainId := last Edit.chainId? edits draft.footer.chainId }

theorem last_cons (field? : Edit → Option α) (edit : Edit) (edits : List Edit) (value : α) :
    last field? (edit :: edits) value = last field? edits ((field? edit).getD value) := by
  unfold last
  cases found : field? edit with
  | none => rw [List.filterMap_cons_none found, Option.getD_none]
  | some v => rw [List.filterMap_cons_some found, List.getLastD_cons, Option.getD_some]

theorem settle_edit (draft : Draft) (edit : Edit) (edits : List Edit) :
    (draft.edit edit).settle edits = draft.settle (edit :: edits) := by
  cases edit <;> simp only [settle, last_cons] <;> rfl

theorem foldl_edit (draft : Draft) (edits : List Edit) :
    edits.foldl Draft.edit draft = draft.settle edits := by
  induction edits generalizing draft with
  | nil => rfl
  | cons edit edits ih => rw [List.foldl_cons, ih, settle_edit]

def coinOutcome (callee : Callee) : List TypeArg → Except DecodeError StructTag
  | [.struct owner module name] => .ok ⟨owner, Utf8.encode module, Utf8.encode name⟩
  | [arg] => .error (.unexpectedTypeTag callee .struct arg.kind)
  | typeArgs => .error (.typeArgCountMismatch callee 1 (UInt32.ofNat typeArgs.length))

def transferOutcome (callee : Callee) : List Bytes → Except DecodeError Transfer
  | [receiver, amount] =>
    if address : receiver.length = 32 then
      if amount.length = 8 then
        .ok ⟨⟨receiver, address⟩, UInt64.ofNat (LittleEndian.ofBytes amount)⟩
      else .error (.argLengthMismatch callee "amount" 8 (UInt32.ofNat amount.length))
    else .error (.argLengthMismatch callee "receiver" 32 (UInt32.ofNat receiver.length))
  | args => .error (.argCountMismatch callee 2 (UInt32.ofNat args.length))

namespace Call

def coinTransferOutcome (callee : Callee) (call : Call) : Except DecodeError CoinTransfer := do
  let coin ← coinOutcome callee call.typeArgs
  (transferOutcome callee call.args).map (⟨coin, ·⟩)

/-- What a call is decoded to if its function is classified as `callee`. -/
def outcome (callee : Callee) (call : Call) : Except DecodeError Action :=
  match callee with
  | .unknown => .ok .unknown
  | .accountTransfer =>
    if call.typeArgs = [] then (transferOutcome callee call.args).map .accountTransfer
    else .error (.typeArgCountMismatch callee 0 (UInt32.ofNat call.typeArgs.length))
  | .coinTransfer => (call.coinTransferOutcome callee).map .coinTransfer
  | .accountTransferCoins => (call.coinTransferOutcome callee).map .accountTransferCoins

structure Writable (call : Call) : Prop where
  module : (Utf8.encode call.module).Bounded
  function : (Utf8.encode call.function).Bounded
  typeArgs : call.typeArgs.length < UInt32.size
  structs : ∀ owner module name, .struct owner module name ∈ call.typeArgs →
    (Utf8.encode module).Bounded ∧ (Utf8.encode name).Bounded
  args : call.args.length < UInt32.size
  short : ∀ arg ∈ call.args, arg.Bounded

end Call

theorem Call.Writable.args_small {call : Call} (writable : call.Writable) :
    ∀ arg ∈ call.args, arg.length < UInt32.size := by
  intro arg member
  have := writable.short arg member
  simp only [Bytes.Bounded, Limits.sequenceLength] at this
  simp only [UInt32.size]
  omega

def Payload.outcome (o : Options) : Payload → Except DecodeError ClearSign.Payload
  | script body => .ok (.script body)
  | multisig body => .ok (.multisig body)
  | call c => (c.outcome (c.target.classify o.exactFramework)).map fun action =>
    .entryFunction ⟨c.target, action⟩

def outcome (o : Options) (draft : Draft) : Except DecodeError Request :=
  (draft.payload.outcome o).map fun payload =>
    .transaction ⟨draft.sender, draft.sequenceNumber, payload, draft.footer⟩

def Writable (draft : Draft) : Prop :=
  ∀ call, draft.payload = .call call → call.Writable

def encodeTypeArgs (typeArgs : List TypeArg) : Bytes :=
  Varint.encode (UInt32.ofNat typeArgs.length) ++ typeArgs.flatMap TypeArg.encode

def encodeArgs (args : List Bytes) : Bytes :=
  Varint.encode (UInt32.ofNat args.length) ++ args.flatMap Bytes.withLength

def Call.encodeRest (call : Call) : Bytes :=
  encodeTypeArgs call.typeArgs ++ encodeArgs call.args

theorem Call.encode_eq (call : Call) : call.encode = call.target.encode ++ call.encodeRest := by
  simp [Call.encode, Call.encodeRest, encodeTypeArgs, encodeArgs]

end Draft

namespace Action

open Draft

theorem expected_answers (context : String) {expected : UInt32} (fault : UInt32 → DecodeError)
    {n m : Nat} (small : n < UInt32.size) (value : expected.toNat = m) :
    (do let found ← Read.varint context
        if found = expected then return () else Read.fail (fault found) : Read Unit).Answers
      (Varint.encode (UInt32.ofNat n))
      (if n = m then .ok () else .error (fault (UInt32.ofNat n))) := by
  have same : UInt32.ofNat n = expected ↔ n = m := by
    rw [← UInt32.toNat_inj, UInt32.toNat_ofNat_of_lt' small, value]
  by_cases equal : n = m
  · rw [if_pos equal]
    intro rest
    rw [expected_encode, if_pos (same.mpr equal)]
  · rw [if_neg equal]
    intro rest
    rw [expected_encode, if_neg (mt same.mp equal)]

theorem readTypeArgCount_answers (callee : Callee) (m : Nat) {n : Nat} (small : n < UInt32.size)
    (value : (callee.typeArgs?.getD 0).toNat = m) :
    (readTypeArgCount callee).Answers (Varint.encode (UInt32.ofNat n))
      (if n = m then .ok () else .error (.typeArgCountMismatch callee (callee.typeArgs?.getD 0)
        (UInt32.ofNat n))) :=
  expected_answers _ _ small value

theorem readArgCount_answers {callee : Callee} {n : Nat} (classified : callee ≠ .unknown)
    (small : n < UInt32.size) :
    (readArgCount callee).Answers (Varint.encode (UInt32.ofNat n))
      (if n = 2 then .ok () else .error (.argCountMismatch callee 2 (UInt32.ofNat n))) := by
  unfold readArgCount
  rw [Callee.args_of_classified classified]
  exact expected_answers _ _ small rfl

theorem readArgLength_answers (callee : Callee) (arg : String) (expected : UInt32) (m : Nat)
    {n : Nat} (small : n < UInt32.size) (value : expected.toNat = m) :
    (readArgLength callee arg expected).Answers (Varint.encode (UInt32.ofNat n))
      (if n = m then .ok ()
        else .error (.argLengthMismatch callee arg expected (UInt32.ofNat n))) :=
  expected_answers _ _ small value

theorem transferOutcome_of_length {callee : Callee} {args : List Bytes} (count : args.length ≠ 2) :
    transferOutcome callee args =
      .error (.argCountMismatch callee 2 (UInt32.ofNat args.length)) := by
  unfold transferOutcome
  split
  · exact absurd rfl count
  · rfl

theorem readTransfer_answers {callee : Callee} (classified : callee ≠ .unknown) {args : List Bytes}
    (count : args.length < UInt32.size) (short : ∀ arg ∈ args, arg.length < UInt32.size) :
    (readTransfer callee).Answers (encodeArgs args) (transferOutcome callee args) := by
  have number := readArgCount_answers classified count
  unfold readTransfer encodeArgs
  by_cases two : args.length = 2
  · obtain ⟨receiver, amount, rfl⟩ := List.length_eq_two.mp two
    have spelled : [receiver, amount].flatMap Bytes.withLength =
        Varint.encode (UInt32.ofNat receiver.length) ++ (receiver ++
          (Varint.encode (UInt32.ofNat amount.length) ++ (amount ++ []))) := by
      simp [Bytes.withLength]
    rw [spelled]
    rw [if_pos two] at number
    refine number.step ?_
    have length := readArgLength_answers callee "receiver" 32 32 (short receiver (by simp)) rfl
    by_cases address : receiver.length = 32
    · rw [if_pos address] at length
      refine length.step ?_
      refine ((Read.address_accepts "receiver").answers (a := ⟨receiver, address⟩) trivial).step ?_
      have width := readArgLength_answers callee "amount" 8 8 (short amount (by simp)) rfl
      by_cases eight : amount.length = 8
      · rw [if_pos eight] at width
        refine width.step ?_
        obtain ⟨n, rfl⟩ := LittleEndian.exists_u64 eight
        have value : UInt64.ofNat (LittleEndian.ofBytes (LittleEndian.toBytes 8 n.toNat)) = n := by
          rw [LittleEndian.ofBytes_toBytes n.toNat_lt, UInt64.ofNat_toNat]
        simp only [transferOutcome, dif_pos address, if_pos eight, value]
        exact ((Read.u64_accepts "amount").answers trivial).step (Read.answers_pure _)
      · rw [if_neg eight] at width
        simp only [transferOutcome, dif_pos address, if_neg eight]
        exact width.stop _ _
    · rw [if_neg address] at length
      simp only [transferOutcome, dif_neg address]
      exact length.stop _ _
  · rw [transferOutcome_of_length two]
    rw [if_neg two] at number
    exact number.stop _ _

theorem coinOutcome_of_length {callee : Callee} {typeArgs : List TypeArg}
    (count : typeArgs.length ≠ 1) : coinOutcome callee typeArgs =
      .error (.typeArgCountMismatch callee 1 (UInt32.ofNat typeArgs.length)) := by
  unfold coinOutcome
  split
  · exact absurd rfl count
  · exact absurd rfl count
  · rfl

theorem readCoin_answers (callee : Callee) {arg : TypeArg}
    (short : ∀ owner module name, .struct owner module name = arg →
      (Utf8.encode module).Bounded ∧ (Utf8.encode name).Bounded) :
    (readCoin callee).Answers arg.encode (coinOutcome callee [arg]) := by
  have kind := TypeTag.Kind.read_accepts.answers (a := arg.kind) trivial
  refine kind.step ?_
  by_cases struct : arg.kind = .struct
  · rw [if_pos struct]
    cases arg with
    | struct owner module name =>
      exact (StructTag.read_accepts callee).answers (short owner module name rfl)
    | _ => cases struct
  · rw [if_neg struct]
    cases arg with
    | struct owner module name => exact absurd rfl struct
    | _ => exact Read.answers_fail _ _

theorem readCoinTransfer_answers {callee : Callee} (typed : callee.typeArgs? = some 1) {call : Call}
    (writable : call.Writable) :
    (readCoinTransfer callee).Answers call.encodeRest
      (call.coinTransferOutcome callee) := by
  have classified : callee ≠ .unknown := by
    rintro rfl
    cases typed
  have expected : callee.typeArgs?.getD 0 = 1 := by
    rw [typed]
    rfl
  have number := readTypeArgCount_answers callee 1 writable.typeArgs (by rw [expected]; rfl)
  rw [expected] at number
  have transfer := readTransfer_answers classified writable.args writable.args_small
  unfold readCoinTransfer Draft.Call.encodeRest encodeTypeArgs Draft.Call.coinTransferOutcome
  rw [List.append_assoc]
  by_cases one : call.typeArgs.length = 1
  · obtain ⟨arg, only⟩ := List.length_eq_one_iff.mp one
    rw [if_pos one] at number
    refine number.step ?_
    rw [only, List.flatMap_singleton]
    refine (readCoin_answers callee ?_).bind fun coin => ?_
    · rintro owner module name rfl
      exact writable.structs owner module name (by simp [only])
    · exact transfer.map _
  · rw [coinOutcome_of_length one]
    rw [if_neg one] at number
    exact number.stop _ _

theorem read_answers {callee : Callee} (classified : callee ≠ .unknown) {call : Call}
    (writable : call.Writable) :
    (Action.read callee).Answers call.encodeRest
      (call.outcome callee) := by
  cases callee with
  | unknown => exact absurd rfl classified
  | accountTransfer =>
    have number := readTypeArgCount_answers .accountTransfer 0 writable.typeArgs rfl
    have transfer := readTransfer_answers classified writable.args writable.args_small
    unfold Action.read Draft.Call.encodeRest encodeTypeArgs Call.outcome
    rw [List.append_assoc]
    by_cases none : call.typeArgs = []
    · have zero : call.typeArgs.length = 0 := by
        rw [none]
        rfl
      rw [if_pos zero] at number
      rw [if_pos none]
      refine number.step ?_
      rw [none]
      exact transfer.map _
    · rw [if_neg none]
      rw [if_neg (mt List.length_eq_zero_iff.mp none)] at number
      exact number.stop _ _
  | coinTransfer => exact (readCoinTransfer_answers rfl writable).map _
  | accountTransferCoins => exact (readCoinTransfer_answers rfl writable).map _

end Action

namespace Draft

open Cursor ClearSign.Payload

theorem result_decodeCall (o : Options) {call : Call} (writable : call.Writable)
    (before ending : Bytes) :
    (decodeCall o (before.length + call.encode.length)
      (between before (call.encode ++ ending))).result =
        (call.outcome (call.target.classify o.exactFramework)).map (⟨call.target, ·⟩) := by
  have names : call.target.Bounded := ⟨writable.module, writable.function⟩
  rw [call.encode_eq]
  by_cases unknown : call.target.classify o.exactFramework = .unknown
  · rw [unknown]
    refine decodeCall_eq_ok_iff.mpr ⟨⟨names, ?_, unknown.symm⟩, ⟨call.encodeRest ++ ending, ?_⟩, ?_⟩
    · rintro coin ⟨⟩
    · simp [EntryCall.encode, Action.encode]
    · refine checkEnd_eq_ok_iff.mpr ⟨?_, fun classified => absurd rfl classified⟩
      simp [EntryCall.encode, Action.encode]
  · have target := read_between FunctionId.read_accepts names before (call.encodeRest ++ ending)
    have action := read_of_answers (Action.read_answers unknown writable)
      (before ++ call.target.encode) ending
    have ends : checkEnd (before.length + (call.target.encode ++ call.encodeRest).length)
        (before ++ call.target.encode ++ call.encodeRest).length
        (call.target.classify o.exactFramework) = .ok () := by
      refine checkEnd_eq_ok_iff.mpr ?_
      simp
    simp only [decodeCall, Traced.result_bind, Traced.result_lift, Traced.result_record,
      Except.ok_bind, List.append_assoc, target]
    rw [action]
    cases call.outcome (call.target.classify o.exactFramework) with
    | error e => rfl
    | ok action =>
      simp only [Except.map, Except.ok_bind, pos_between, ends]
      rfl

theorem result_decode (o : Options) {payload : Payload}
    (writable : ∀ call, payload = .call call → call.Writable) (before ending : Bytes) :
    (ClearSign.Payload.decode o (before.length + payload.encode.length)
      (between before (payload.encode ++ ending))).result = payload.outcome o := by
  unfold Payload.encode
  rw [List.append_assoc, result_decode_kind]
  cases payload with
  | script body => exact congrArg (Except.map _) (bodyBefore_append _ _ _ _)
  | multisig body => exact congrArg (Except.map _) (bodyBefore_append _ _ _ _)
  | call c =>
    have inner := result_decodeCall o (writable c rfl) (before ++ Kind.entryFunction.encode) ending
    have start : before.length + (Kind.entryFunction.encode ++ c.encode).length =
        (before ++ Kind.entryFunction.encode).length + c.encode.length := by
      simp [Nat.add_assoc]
    simp only [Payload.kind, Payload.encodeBody, start, inner, Payload.outcome]
    cases c.outcome (c.target.classify o.exactFramework) <;> rfl

theorem decode_request (o : Options) {draft : Draft} (fits : draft.request.length ≤ o.maxLength)
    (writable : draft.Writable) : Request.decode o draft.request = draft.outcome o := by
  have present : draft.payload.encode ≠ [] := by
    cases draft.payload <;> simp [Payload.encode, Payload.kind, Kind.encode, Varint.encode,
      Varint.digits, Kind.tag, Limits.varintBytes]
  have body : draft.body = RawTransaction.encodeHead draft.sender draft.sequenceNumber ++
      (draft.payload.encode ++ draft.footer.encode) := List.append_assoc _ _ _
  rw [request, body] at fits ⊢
  rw [Request.decode_rawTransaction fits, RawTransaction.result_decode _ _ _ _ present,
    result_decode o writable]
  unfold outcome
  cases draft.payload.outcome o <;> rfl

end Draft

/-- The request of a draft is decoded to what the last edit of each field drafted, or refused for
the first thing that has not the shape its function requires. -/
theorem decode_edited (o : Options) (sender : Address) (edits : List Draft.Edit)
    (fits : (edits.foldl Draft.edit { sender }).request.length ≤ o.maxLength)
    (writable : (edits.foldl Draft.edit { sender }).Writable) :
    Request.decode o (edits.foldl Draft.edit { sender }).request =
      (Draft.settle { sender } edits).outcome o := by
  rw [Draft.foldl_edit] at fits writable ⊢
  exact Draft.decode_request o fits writable

/-- A number where the coin should be; the gas is edited twice. -/
theorem decode_edited_u64_coin :
    Request.decode {} ([.maxGasAmount 5, .coinTransfer .u64 .framework 1000,
        .maxGasAmount 9].foldl Draft.edit { sender := .zero }).request =
      .error (.unexpectedTypeTag .coinTransfer .struct .u64) := by
  refine (decode_edited {} .zero _ (by decide +kernel) ?_).trans (by decide)
  rintro call ⟨⟩
  refine ⟨by unfold Bytes.Bounded; decide, by unfold Bytes.Bounded; decide, by decide, ?_,
    by decide, by unfold Bytes.Bounded; decide⟩
  rintro owner module name ⟨⟩
  contradiction

end ClearSign
