import ClearSign.Call.Encode
import ClearSign.Call.Read
import ClearSign.Proofs.Canonical.Wire

namespace ClearSign

def StructTag.Bounded (tag : StructTag) : Prop :=
  tag.module.Bounded ∧ tag.name.Bounded

def FunctionId.Bounded (f : FunctionId) : Prop :=
  f.module.name.Bounded ∧ f.name.Bounded

def Action.Bounded (action : Action) : Prop :=
  ∀ coin ∈ action.coin?, coin.Bounded

theorem Transfer.encode_eq (t : Transfer) :
    t.encode = [0x02, 0x20] ++ t.receiver.bytes ++ [0x08] ++
      LittleEndian.toBytes 8 t.amount.toNat := by
  simp only [Transfer.encode, Bytes.withLength, t.receiver.length_bytes,
    LittleEndian.length_toBytes, List.append_assoc]
  rfl

theorem StructTag.encodeTypeArg_eq (coin : StructTag) :
    Varint.encode 1 ++ coin.encodeTypeArg = [0x01, 0x07] ++ coin.address.bytes ++
      coin.module.withLength ++ coin.name.withLength ++ [0x00] := by
  simp only [StructTag.encodeTypeArg, StructTag.encode, List.append_assoc]
  rfl

theorem TypeTag.Kind.eq_tag_of_ofTag? {tag : UInt32} {kind : TypeTag.Kind}
    (found : ofTag? tag = some kind) : tag = kind.tag := by
  unfold ofTag? at found
  split at found
  all_goals
    cases found <;> exact UInt32.toNat_inj.mp ‹_›

theorem TypeTag.Kind.read_accepts : Kind.read.Accepts (fun _ => True) Kind.encode := by
  intro bs kind rest
  simp only [true_and]
  constructor
  · intro read
    simp only [Kind.read, Read.atomically_eq_ok_iff, Read.bind_eq_ok_iff] at read
    obtain ⟨tag, mid, first, read⟩ := read
    obtain ⟨-, rfl⟩ := (Read.varint_accepts _ bs tag mid).mp first
    cases found : ofTag? tag with
    | none => simp [found] at read
    | some k =>
      simp only [found, Read.pure_apply, Prod.mk.injEq, Except.ok.injEq] at read
      obtain ⟨rfl, rfl⟩ := read
      rw [Kind.encode, eq_tag_of_ofTag? found]
  · rintro rfl
    simp only [Kind.read, Read.atomically_eq_ok_iff, Read.bind_eq_ok_iff]
    refine ⟨kind.tag, rest, Read.varint_encode _ _ _, ?_⟩
    rw [ofTag?_tag]
    rfl

theorem StructTag.read_accepts (callee : Callee) :
    (StructTag.read callee).Accepts StructTag.Bounded StructTag.encode := by
  intro bs tag rest
  simp only [StructTag.read, Read.bind_eq_ok_iff, Read.address_accepts _ _ _ _,
    Read.prefixed_accepts _ _ _ _, Read.varint_accepts _ _ _ _]
  constructor
  · intro read
    obtain ⟨address, _, ⟨-, rfl⟩, module, _, ⟨short, rfl⟩, name, _, ⟨brief, rfl⟩, count, mid, ⟨-,
      rfl⟩, read⟩ := read
    split at read
    · next none =>
      simp only [Read.pure_apply, Prod.mk.injEq, Except.ok.injEq] at read
      obtain ⟨rfl, rfl⟩ := read
      exact ⟨⟨short, brief⟩, by simp [StructTag.encode, none]⟩
    · cases read
  · intro spelled
    obtain ⟨⟨short, brief⟩, rfl⟩ := spelled
    refine ⟨tag.address, _, ⟨trivial, ?_⟩, tag.module, _, ⟨short, rfl⟩, tag.name, _, ⟨brief, rfl⟩,
      0, rest, ⟨trivial, rfl⟩, rfl⟩
    simp [StructTag.encode]

theorem FunctionId.read_accepts :
    FunctionId.read.Accepts FunctionId.Bounded FunctionId.encode := by
  intro bs f rest
  simp only [FunctionId.read, Read.bind_eq_ok_iff, Read.address_accepts _ _ _ _,
    Read.prefixed_accepts _ _ _ _, Read.pure_apply, Prod.mk.injEq, Except.ok.injEq]
  constructor
  · intro read
    obtain ⟨address, _, ⟨-, rfl⟩, module, _, ⟨short, rfl⟩, name, _, ⟨brief, rfl⟩, rfl, rfl⟩ := read
    exact ⟨⟨short, brief⟩, by simp [FunctionId.encode]⟩
  · intro spelled
    obtain ⟨⟨short, brief⟩, rfl⟩ := spelled
    refine ⟨f.module.address, _, ⟨trivial, ?_⟩, f.module.name, _, ⟨short, rfl⟩, f.name, rest,
      ⟨brief, rfl⟩, rfl, rfl⟩
    simp [FunctionId.encode]

theorem FunctionId.length_encode (f : FunctionId) : 32 ≤ f.encode.length := by
  simp only [FunctionId.encode, List.length_append, f.module.address.length_bytes]
  omega

theorem Callee.args_of_classified {callee : Callee} (classified : callee ≠ .unknown) :
    callee.args?.getD 0 = 2 := by
  cases callee with
  | unknown => exact absurd rfl classified
  | _ => rfl

namespace Action

theorem encode_of_unknown {action : Action} (unknown : action.callee = .unknown) :
    action.encode = [] := by
  cases action with
  | unknown => rfl
  | _ => cases unknown

theorem expected_encode (context : String) (expected : UInt32) (fault : UInt32 → DecodeError)
    (n : UInt32) (rest : Bytes) :
    (do let found ← Read.varint context
        if found = expected then return () else Read.fail (fault found) : Read Unit)
        (Varint.encode n ++ rest) =
      if n = expected then (.ok (), rest) else (.error (fault n), rest) := by
  rw [Read.bind_apply, Read.varint_encode]
  by_cases same : n = expected
  · simp [same]
  · simp [same]

theorem expected_accepts (context : String) (expected : UInt32) (fault : UInt32 → DecodeError) :
    (do let found ← Read.varint context
        if found = expected then return () else Read.fail (fault found) : Read Unit).Accepts
      (fun _ => True) (fun _ => Varint.encode expected) := by
  intro bs u rest
  constructor
  · intro read
    simp only [Read.bind_eq_ok_iff, Read.varint_accepts _ _ _ _] at read
    obtain ⟨found, mid, ⟨-, rfl⟩, read⟩ := read
    split at read
    · next same =>
      simp only [Read.pure_apply, Prod.mk.injEq] at read
      exact ⟨trivial, by rw [same, read.2]⟩
    · cases read
  · intro spelled
    obtain ⟨-, rfl⟩ := spelled
    rw [expected_encode, if_pos rfl]

theorem readTypeArgCount_accepts (callee : Callee) :
    (readTypeArgCount callee).Accepts (fun _ => True)
      (fun _ => Varint.encode (callee.typeArgs?.getD 0)) :=
  expected_accepts _ _ _

theorem readArgCount_accepts (callee : Callee) :
    (readArgCount callee).Accepts (fun _ => True)
      (fun _ => Varint.encode (callee.args?.getD 0)) :=
  expected_accepts _ _ _

theorem readArgLength_accepts (callee : Callee) (arg : String) (expected : UInt32) :
    (readArgLength callee arg expected).Accepts (fun _ => True)
      (fun _ => Varint.encode expected) :=
  expected_accepts _ _ _

theorem readCoin_accepts (callee : Callee) :
    (readCoin callee).Accepts StructTag.Bounded StructTag.encodeTypeArg := by
  intro bs coin rest
  simp only [readCoin, Read.bind_eq_ok_iff, TypeTag.Kind.read_accepts _ _ _]
  constructor
  · intro read
    obtain ⟨found, mid, ⟨-, rfl⟩, read⟩ := read
    split at read
    · next struct =>
      obtain ⟨bounded, rfl⟩ := (StructTag.read_accepts callee _ _ _).mp read
      exact ⟨bounded, by rw [struct, StructTag.encodeTypeArg, List.append_assoc]⟩
    · cases read
  · intro spelled
    obtain ⟨bounded, rfl⟩ := spelled
    refine ⟨.struct, coin.encode ++ rest, ⟨trivial, ?_⟩, ?_⟩
    · rw [StructTag.encodeTypeArg, List.append_assoc]
    · rw [if_pos rfl]
      exact (StructTag.read_accepts callee).read bounded rest

theorem readTransfer_accepts {callee : Callee} (classified : callee ≠ .unknown) :
    (readTransfer callee).Accepts (fun _ => True) Transfer.encode := by
  have count := Callee.args_of_classified classified
  have spelled (t : Transfer) : t.encode = Varint.encode 2 ++ (Varint.encode 32 ++
      (t.receiver.bytes ++ (Varint.encode 8 ++ LittleEndian.toBytes 8 t.amount.toNat))) := by
    simp [Transfer.encode, Bytes.withLength, t.receiver.length_bytes]
  intro bs t rest
  simp only [readTransfer, Read.bind_eq_ok_iff, readArgCount_accepts _ _ _ _,
    readArgLength_accepts _ _ _ _ _ _, Read.address_accepts _ _ _ _, Read.u64_accepts _ _ _ _,
    Read.pure_apply, Prod.mk.injEq, Except.ok.injEq, count, true_and, spelled]
  constructor
  · intro read
    obtain ⟨_, _, rfl, _, _, rfl, receiver, _, rfl, _, _, rfl, amount, _, rfl, rfl, rfl⟩ := read
    simp
  · rintro rfl
    refine ⟨(), _, List.append_assoc .., (), _, List.append_assoc .., t.receiver, _,
      List.append_assoc .., (), _, List.append_assoc .., t.amount, rest, rfl, rfl, rfl⟩

theorem readCoinTransfer_accepts {callee : Callee} (typed : callee.typeArgs? = some 1) :
    (readCoinTransfer callee).Accepts (·.coin.Bounded) CoinTransfer.encode := by
  have classified : callee ≠ .unknown := by
    rintro rfl
    cases typed
  intro bs c rest
  simp only [readCoinTransfer, Read.bind_eq_ok_iff, readTypeArgCount_accepts _ _ _ _,
    readCoin_accepts _ _ _ _, readTransfer_accepts classified _ _ _, Read.pure_apply,
    Prod.mk.injEq, Except.ok.injEq, typed, Option.getD_some, true_and]
  constructor
  · intro read
    obtain ⟨_, _, rfl, coin, _, ⟨bounded, rfl⟩, transfer, _, rfl, rfl, rfl⟩ := read
    exact ⟨bounded, by simp [CoinTransfer.encode]⟩
  · intro spelled
    obtain ⟨bounded, rfl⟩ := spelled
    refine ⟨(), _, ?_, c.coin, _, ⟨bounded, rfl⟩, c.transfer, rest, rfl, rfl, rfl⟩
    simp [CoinTransfer.encode]

theorem read_accepts (callee : Callee) :
    (Action.read callee).Accepts (fun action => action.callee = callee ∧ action.Bounded)
      Action.encode := by
  cases callee with
  | unknown =>
    intro bs action rest
    simp only [Action.read, Read.pure_apply, Prod.mk.injEq, Except.ok.injEq]
    constructor
    · intro read
      obtain ⟨rfl, rfl⟩ := read
      exact ⟨⟨rfl, by simp [Action.Bounded, coin?]⟩, rfl⟩
    · intro spelled
      obtain ⟨⟨known, -⟩, rfl⟩ := spelled
      cases action with
      | unknown => exact ⟨rfl, rfl⟩
      | _ => cases known
  | accountTransfer =>
    intro bs action rest
    simp only [Action.read, Read.bind_eq_ok_iff, readTypeArgCount_accepts _ _ _ _,
      @readTransfer_accepts .accountTransfer (by decide) _ _ _, Read.pure_apply,
      Prod.mk.injEq, Except.ok.injEq, true_and]
    constructor
    · intro read
      obtain ⟨_, _, rfl, t, _, rfl, rfl, rfl⟩ := read
      exact ⟨⟨rfl, by simp [Action.Bounded, coin?]⟩, (List.append_assoc ..).symm⟩
    · intro spelled
      obtain ⟨⟨known, -⟩, rfl⟩ := spelled
      cases action with
      | accountTransfer t => exact ⟨(), _, List.append_assoc .., t, rest, rfl, rfl, rfl⟩
      | _ => cases known
  | coinTransfer =>
    apply (readCoinTransfer_accepts (by rfl)).map
    · intro c bounded
      exact ⟨⟨rfl, by simpa [Action.Bounded, coin?] using bounded⟩, rfl⟩
    · rintro action ⟨known, bounded⟩
      cases action with
      | coinTransfer c => exact ⟨c, bounded c.coin rfl, rfl⟩
      | _ => cases known
  | accountTransferCoins =>
    apply (readCoinTransfer_accepts (by rfl)).map
    · intro c bounded
      exact ⟨⟨rfl, by simpa [Action.Bounded, coin?] using bounded⟩, rfl⟩
    · rintro action ⟨known, bounded⟩
      cases action with
      | accountTransferCoins c => exact ⟨c, bounded c.coin rfl, rfl⟩
      | _ => cases known

end Action

end ClearSign
