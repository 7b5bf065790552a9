import ClearSign.Policy
import ClearSign.Proofs.Classification
import ClearSign.Proofs.Grammar.Request
import ClearSign.Proofs.Message

/-!
What is signed while blind signing is off. `Clear.Transaction` and `Clear.Message` spell out, byte
by byte, the inputs that can be shown in full; an input is decoded and passes the policy just if it
is one of them.
-/

namespace ClearSign

namespace Clear

/-- Receiver and amount, behind their number and each behind its length. -/
inductive TransferArgs : Bytes → Prop
  | mk (receiver amount : Bytes) (address : receiver.length = 32) (number : amount.length = 8) :
      TransferArgs ([0x02, 0x20] ++ receiver ++ [0x08] ++ amount)

/-- A coin, the only type argument. -/
inductive CoinArg : Bytes → Prop
  | mk (address module name : Bytes) (width : address.length = 32) (short : module.Bounded)
      (brief : name.Bounded) :
      CoinArg ([0x01, 0x07] ++ address ++ module.withLength ++ name.withLength ++ [0x00])

/-- The functions whose calls can be shown in full, by module and function name. -/
inductive Names : Callee → String → String → Prop
  | accountTransfer : Names .accountTransfer "aptos_account" "transfer"
  | coinTransfer : Names .coinTransfer "coin" "transfer"
  | accountTransferCoins : Names .accountTransferCoins "aptos_account" "transfer_coins"

inductive Args : Callee → Bytes → Prop
  | accountTransfer (args : Bytes) (transfer : TransferArgs args) :
      Args .accountTransfer ([0x00] ++ args)
  | coinTransfer (coin args : Bytes) (typed : CoinArg coin) (transfer : TransferArgs args) :
      Args .coinTransfer (coin ++ args)
  | accountTransferCoins (coin args : Bytes) (typed : CoinArg coin)
      (transfer : TransferArgs args) : Args .accountTransferCoins (coin ++ args)

def FrameworkAddress (exact : Bool) (address : Bytes) : Prop :=
  if exact then address = List.replicate 31 0 ++ [1] else address.getLast? = some 1

inductive Transaction (o : Options) : Bytes → Prop
  | mk (sender number address args footer : Bytes) (callee : Callee) (module function : String)
      (sent : sender.length = 32) (numbered : number.length = 8) (owned : address.length = 32)
      (framework : FrameworkAddress o.exactFramework address)
      (named : Names callee module function) (applied : Args callee args)
      (ended : footer.length = 25) :
      Transaction o (Domain.rawTransaction.separator ++ sender ++ number ++ [0x02] ++ address ++
        (Utf8.encode module).withLength ++ (Utf8.encode function).withLength ++ args ++ footer)

/-- A text that starts with no separator. An input that fills the limit must end in NUL, and behind
the first NUL there must be nothing else. -/
structure Message (o : Options) (input : Bytes) : Prop where
  separate : ∀ domain : Domain, input.take 32 ≠ domain.separator
  terminated : input.length = o.maxLength → ∀ last ∈ input.getLast?, last = 0
  plain : Message.PlainText input
  uninterrupted : Message.Uninterrupted input

theorem transferArgs_iff {bs : Bytes} : TransferArgs bs ↔ ∃ t : Transfer, bs = t.encode := by
  constructor
  · intro args
    obtain ⟨receiver, amount, address, number⟩ := args
    obtain ⟨n, rfl⟩ := LittleEndian.exists_u64 number
    exact ⟨⟨⟨receiver, address⟩, n⟩, (Transfer.encode_eq ⟨⟨receiver, address⟩, n⟩).symm⟩
  · intro written
    obtain ⟨t, rfl⟩ := written
    rw [Transfer.encode_eq]
    exact .mk _ _ t.receiver.length_bytes (LittleEndian.length_toBytes 8 _)

theorem coinArg_iff {bs : Bytes} :
    CoinArg bs ↔ ∃ coin : StructTag, coin.Bounded ∧ bs = Varint.encode 1 ++ coin.encodeTypeArg := by
  constructor
  · intro arg
    obtain ⟨address, module, name, width, short, brief⟩ := arg
    exact ⟨⟨⟨address, width⟩, module, name⟩, ⟨short, brief⟩,
      (StructTag.encodeTypeArg_eq ⟨⟨address, width⟩, module, name⟩).symm⟩
  · intro written
    obtain ⟨coin, ⟨short, brief⟩, rfl⟩ := written
    rw [StructTag.encodeTypeArg_eq]
    exact .mk _ _ _ coin.address.length_bytes short brief

theorem args_iff {callee : Callee} {bs : Bytes} :
    Args callee bs ↔ callee ≠ .unknown ∧
      ∃ action : Action, action.callee = callee ∧ action.Bounded ∧ bs = action.encode := by
  constructor
  · intro args
    cases args with
    | accountTransfer _ transfer =>
      obtain ⟨t, rfl⟩ := transferArgs_iff.mp transfer
      refine ⟨by decide, .accountTransfer t, rfl, ?_, rfl⟩
      rintro _ ⟨⟩
    | coinTransfer _ _ typed transfer =>
      obtain ⟨coin, bounded, rfl⟩ := coinArg_iff.mp typed
      obtain ⟨t, rfl⟩ := transferArgs_iff.mp transfer
      refine ⟨by decide, .coinTransfer ⟨coin, t⟩, rfl, ?_, rfl⟩
      rintro _ ⟨⟩
      exact bounded
    | accountTransferCoins _ _ typed transfer =>
      obtain ⟨coin, bounded, rfl⟩ := coinArg_iff.mp typed
      obtain ⟨t, rfl⟩ := transferArgs_iff.mp transfer
      refine ⟨by decide, .accountTransferCoins ⟨coin, t⟩, rfl, ?_, rfl⟩
      rintro _ ⟨⟩
      exact bounded
  · intro written
    obtain ⟨classified, action, rfl, bounded, rfl⟩ := written
    cases action with
    | unknown => exact absurd rfl classified
    | accountTransfer t => exact .accountTransfer _ (transferArgs_iff.mpr ⟨t, rfl⟩)
    | coinTransfer c =>
      exact .coinTransfer _ _ (coinArg_iff.mpr ⟨c.coin, bounded c.coin rfl, rfl⟩)
        (transferArgs_iff.mpr ⟨c.transfer, rfl⟩)
    | accountTransferCoins c =>
      exact .accountTransferCoins _ _ (coinArg_iff.mpr ⟨c.coin, bounded c.coin rfl, rfl⟩)
        (transferArgs_iff.mpr ⟨c.transfer, rfl⟩)

theorem names_iff {callee : Callee} {module function : String} :
    Names callee module function ↔ (module, function, callee) ∈ Callee.table := by
  constructor
  · intro named
    cases named <;> decide
  · intro member
    simp only [Callee.table, List.mem_cons, List.not_mem_nil, or_false, Prod.mk.injEq] at member
    obtain ⟨rfl, rfl, rfl⟩ | ⟨rfl, rfl, rfl⟩ | ⟨rfl, rfl, rfl⟩ := member
    · exact .accountTransfer
    · exact .coinTransfer
    · exact .accountTransferCoins

theorem Names.bounded {callee : Callee} {module function : String}
    (named : Names callee module function) :
    (Utf8.encode module).Bounded ∧ (Utf8.encode function).Bounded := by
  cases named <;> exact ⟨by simp only [Bytes.Bounded]; decide, by simp only [Bytes.Bounded]; decide⟩

theorem parts_of_readable {exact : Bool} {call : EntryCall} (readable : call.Readable exact)
    (classified : call.callee ≠ .unknown) :
    FrameworkAddress exact call.target.module.address.bytes ∧
      Args call.callee call.action.encode ∧ ∃ module function, Names call.callee module function ∧
        call.target.module.name = Utf8.encode module ∧ call.target.name = Utf8.encode function := by
  obtain ⟨-, bounded, known⟩ := readable
  obtain ⟨framework, module, function, member, named⟩ :=
    (FunctionId.classify_eq_iff classified).mp known.symm
  exact ⟨(ModuleId.isFramework_iff exact _).mp framework,
    args_iff.mpr ⟨classified, call.action, rfl, bounded, rfl⟩, module, function,
    names_iff.mpr member, named⟩

theorem exists_readable {exact : Bool} (address : Address) {callee : Callee}
    {module function : String} {args : Bytes} (framework : FrameworkAddress exact address.bytes)
    (named : Names callee module function) (applied : Args callee args) :
    ∃ call : EntryCall, call.Readable exact ∧ call.callee ≠ .unknown ∧
      call.encode = address.bytes ++ (Utf8.encode module).withLength ++
        (Utf8.encode function).withLength ++ args := by
  obtain ⟨classified, action, rfl, bounded, rfl⟩ := args_iff.mp applied
  have known : FunctionId.classify exact ⟨⟨address, Utf8.encode module⟩, Utf8.encode function⟩ =
      action.callee := by
    refine (FunctionId.classify_eq_iff classified).mpr ⟨?_, module, function, names_iff.mp named,
      rfl, rfl⟩
    exact (ModuleId.isFramework_iff exact _).mpr framework
  exact ⟨⟨⟨⟨address, Utf8.encode module⟩, Utf8.encode function⟩, action⟩,
    ⟨named.bounded, bounded, known.symm⟩, classified, rfl⟩

theorem blindReason?_call_eq_none_iff {call : EntryCall} :
    (Payload.entryFunction call).blindReason? = none ↔ call.callee ≠ .unknown := by
  simp [Payload.blindReason?]

theorem transaction_iff {o : Options} {input : Bytes} :
    Transaction o input ↔ ∃ tx : RawTransaction,
      Request.Spelled o (.transaction tx) input ∧ tx.payload.blindReason? = none := by
  have kind : Payload.Kind.entryFunction.encode = [0x02] := rfl
  constructor
  · intro transaction
    obtain ⟨sender, number, address, args, footer, callee, module, function, sent, numbered, owned,
      framework, named, applied, ended⟩ := transaction
    obtain ⟨call, readable, classified, spelled⟩ :=
      exists_readable ⟨address, owned⟩ framework named applied
    obtain ⟨sequenceNumber, rfl⟩ := LittleEndian.exists_u64 numbered
    obtain ⟨footer, rfl⟩ := Footer.exists_encode ended
    have payload := Payload.Spelled.call (o := o) call [] readable fun _ => rfl
    let tx : RawTransaction := ⟨⟨sender, sent⟩, sequenceNumber, .entryFunction call, footer⟩
    have whole := Request.Spelled.transaction tx _ payload
    refine ⟨tx, ?_, blindReason?_call_eq_none_iff.mpr classified⟩
    simpa [tx, spelled, kind, RawTransaction.encodeHead] using whole
  · intro spelled
    obtain ⟨⟨sender, sequenceNumber, payload, footer⟩, spelled, clear⟩ := spelled
    obtain ⟨_, body, spelled⟩ := spelled
    cases spelled with
    | script s => cases clear
    | multisig s => cases clear
    | call call gap readable tight =>
      have classified := blindReason?_call_eq_none_iff.mp clear
      obtain ⟨framework, applied, module, function, named, same_module, same_function⟩ :=
        parts_of_readable readable classified
      have whole := Transaction.mk (o := o) sender.bytes
        (LittleEndian.toBytes 8 sequenceNumber.toNat) _ _ footer.encode _ _ _ sender.length_bytes
        (LittleEndian.length_toBytes 8 _) call.target.module.address.length_bytes framework named
        applied footer.length_encode
      rw [tight classified]
      simpa [EntryCall.encode, FunctionId.encode, RawTransaction.encodeHead, kind, same_module,
        same_function] using whole

theorem message_iff {o : Options} {input : Bytes} :
    Message o input ↔ Request.Spelled o (.plainMessage input) input ∧
      Message.isInterrupted input = false := by
  constructor
  · intro message
    obtain ⟨separate, terminated, plain, uninterrupted⟩ := message
    refine ⟨.plainMessage input ?_ terminated (Message.isPlain_iff.mpr plain),
      Message.isInterrupted_eq_false_iff.mpr uninterrupted⟩
    exact Domain.of?_eq_none_iff.mpr separate
  · intro spelled
    obtain ⟨spelled, uninterrupted⟩ := spelled
    cases spelled with
    | plainMessage _ separate terminated plain =>
      exact ⟨Domain.of?_eq_none_iff.mp separate, terminated, Message.isPlain_iff.mp plain,
        Message.isInterrupted_eq_false_iff.mp uninterrupted⟩

end Clear

theorem SigningPolicy.check_off_iff {request : Request} :
    SigningPolicy.check { allowBlindSigning := false } request = .ok () ↔
      request.blindReason? = none := by
  unfold SigningPolicy.check
  cases request.blindReason? with
  | none => simp
  | some reason => simp

/-- Clear signing accepts exactly the clear transactions and the clear messages. -/
theorem clear_signing_iff (o : Options) (input : Bytes) :
    (∃ request, Request.decode o input = .ok request ∧
        SigningPolicy.check { allowBlindSigning := false } request = .ok ()) ↔
      input.length ≤ o.maxLength ∧ (Clear.Transaction o input ∨ Clear.Message o input) := by
  simp only [SigningPolicy.check_off_iff, Request.decode_eq_ok_iff]
  constructor
  · intro accepted
    obtain ⟨request, ⟨fits, spelled⟩, clear⟩ := accepted
    refine ⟨fits, ?_⟩
    cases request with
    | transaction tx => exact .inl (Clear.transaction_iff.mpr ⟨tx, spelled, clear⟩)
    | transactionWithData body => cases clear
    | plainMessage message =>
      have same : message = input := by
        cases spelled
        rfl
      subst same
      exact .inr (Clear.message_iff.mpr ⟨spelled, by simpa [Request.blindReason?] using clear⟩)
    | rawMessage message => cases clear
  · intro clear
    obtain ⟨fits, transaction | message⟩ := clear
    · obtain ⟨tx, spelled, clear⟩ := Clear.transaction_iff.mp transaction
      exact ⟨.transaction tx, ⟨fits, spelled⟩, clear⟩
    · obtain ⟨spelled, uninterrupted⟩ := Clear.message_iff.mp message
      exact ⟨.plainMessage input, ⟨fits, spelled⟩, by simp [Request.blindReason?, uninterrupted]⟩

end ClearSign
