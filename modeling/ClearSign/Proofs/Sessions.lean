import ClearSign.Proofs.LentReads

namespace ClearSign

theorem Shape.reader_follows (context : String) (shape : Shape) :
    (shape.reader context).Follows (shape.read context) := by
  have byte := Reader.byte_follows context
  have number (width : Nat) := Reader.number_follows width context
  have bool := Reader.bool_follows context
  cases shape with
  | u8 => exact byte.map _
  | u16 => exact ((number 2).map _).map _
  | u32 => exact ((number 4).map _).map _
  | u64 => exact ((number 8).map _).map _
  | u128 => exact ((number 16).map _).map _
  | i8 => exact byte.map _
  | i16 => exact ((number 2).map _).map _
  | i32 => exact ((number 4).map _).map _
  | i64 => exact ((number 8).map _).map _
  | i128 => exact ((number 16).map _).map _
  | bool => exact bool.map _
  | optionTag => exact bool.map _
  | address => exact (Reader.address_follows context).map _
  | varint => exact (Reader.varint_follows context).map _
  | bytes length => exact (Reader.bytes_follows length context).map _
  | prefixed => exact (Reader.prefixed_follows context).map _

namespace TypeTag

theorem Kind.reader_follows : Kind.reader.Follows Kind.read := by
  refine ((Reader.varint_follows "type tag").bind fun tag => ?_).atomically
  cases ofTag? tag with
  | some kind => exact .pure kind
  | none => exact .fail _

theorem Value.innerReader_follows (kind : Kind) :
    (Value.innerReader kind).Follows (Value.readInner kind) := by
  cases kind with
  | bool => exact (Reader.bool_follows _).map _
  | u8 => exact (Reader.byte_follows _).map _
  | u64 => exact ((Reader.number_follows 8 _).map _).map _
  | u128 => exact ((Reader.number_follows 16 _).map _).map _
  | address => exact (Reader.address_follows _).map _
  | signer => exact (Reader.address_follows _).map _
  | vector => exact .fail _
  | struct => exact .fail _

theorem Value.reader_follows (kind : Kind) : (Value.reader kind).Follows (Value.read kind) := by
  have narrow {width : Nat} (known : kind.width? = some width) : width < UInt64.size := by
    cases kind <;> cases known <;> decide
  unfold Value.reader Value.read
  cases known : kind.width? with
  | none => exact .fail _
  | some width =>
    refine (Reader.bind_bytes_follows fun bs length_bs => ?_).atomically
    have inside : (Cursor.start bs).Inside := ⟨Nat.zero_le _, length_bs ▸ narrow known⟩
    have agree := congrArg Prod.fst ((innerReader_follows kind).agree _ inside)
    change (innerReader kind (Cursor.start bs)).1 = (readInner kind bs).1 at agree
    dsimp only
    rw [agree]
    cases (readInner kind bs).1 with
    | ok value => exact .pure value
    | error e => exact .fail e

theorem reader_follows : TypeTag.reader.Follows TypeTag.read :=
  (Kind.reader_follows.bind Value.reader_follows).atomically

end TypeTag

theorem StructTag.reader_follows (callee : Callee) :
    (StructTag.reader callee).Follows (StructTag.read callee) :=
  (Reader.address_follows _).bind fun _ => (Reader.prefixed_follows _).bind fun _ =>
    (Reader.prefixed_follows _).bind fun _ => (Reader.varint_follows _).bind fun _ =>
      .ite (.pure _) (.fail _)

theorem FunctionId.reader_follows : FunctionId.reader.Follows FunctionId.read :=
  (Reader.address_follows _).bind fun _ => (Reader.prefixed_follows _).bind fun _ =>
    (Reader.prefixed_follows _).bind fun _ => .pure _

namespace Action

theorem coinReader_follows (callee : Callee) : (coinReader callee).Follows (readCoin callee) :=
  TypeTag.Kind.reader_follows.bind fun _ => .ite (StructTag.reader_follows callee) (.fail _)

theorem transferReader_follows (callee : Callee) :
    (transferReader callee).Follows (readTransfer callee) :=
  (Reader.expected_follows _ _ _).bind fun _ => (Reader.expected_follows _ _ _).bind fun _ =>
    (Reader.address_follows _).bind fun _ => (Reader.expected_follows _ _ _).bind fun _ =>
      ((Reader.number_follows 8 _).map _).bind fun _ => .pure _

theorem coinTransferReader_follows (callee : Callee) :
    (coinTransferReader callee).Follows (readCoinTransfer callee) :=
  (Reader.expected_follows _ _ _).bind fun _ => (coinReader_follows callee).bind fun _ =>
    (transferReader_follows callee).bind fun _ => .pure _

theorem reader_follows (callee : Callee) : (Action.reader callee).Follows (Action.read callee) := by
  cases callee with
  | unknown => exact .pure _
  | accountTransfer =>
    exact (Reader.expected_follows _ _ _).bind fun _ => (transferReader_follows _).map _
  | coinTransfer => exact (coinTransferReader_follows _).map _
  | accountTransferCoins => exact (coinTransferReader_follows _).map _

end Action

theorem EntryCall.reader_follows (exact : Bool) :
    (EntryCall.reader exact).Follows (EntryCall.read exact) :=
  FunctionId.reader_follows.bind fun _ => (Action.reader_follows _).bind fun _ => .pure _

namespace Operation

/-- To read a text is to fill a buffer of zeros and to drop it. -/
theorem read_text (capacity : Nat) (context : String) :
    read (.text capacity context) =
      ((Filling.text context).onto (List.replicate capacity 0) >>= fun out =>
        pure (.text out.1)) := by
  rw [Read.onto_text_eq_text, List.length_replicate]
  funext bs
  change Read.andThen (Read.text capacity context) (fun text => pure (Reading.text text)) bs =
    Read.andThen (Read.andThen (Read.text capacity context) _) _ bs
  unfold Read.andThen
  cases Read.text capacity context bs with
  | mk result rest => cases result <;> rfl

theorem reader_follows (operation : Operation) :
    operation.reader.Follows operation.read := by
  cases operation with
  | field shape context => exact (shape.reader_follows context).map _
  | length context => exact (Reader.length_follows context).map _
  | fill buffer context =>
    exact ((Lending.whole_follows context).onto buffer (Read.whole_local buffer context)).bind
      fun _ => .pure _
  | prefixedInto buffer context =>
    exact ((Lending.prefixed_follows context).onto buffer
      (Read.prefixedInto_local buffer context)).bind fun _ => .pure _
  | text capacity context =>
    have known : ((Filling.text context).onto (List.replicate capacity 0)).Local := by
      rw [Read.onto_text_eq_text]
      exact (Read.text_local _ context).map _
    rw [read_text]
    exact ((Lending.text_follows context).onto _ known).bind fun _ => .pure _
  | kind => exact TypeTag.Kind.reader_follows.map _
  | value kind => exact (TypeTag.Value.reader_follows kind).map _
  | tag => exact TypeTag.reader_follows.map _
  | struct callee => exact (StructTag.reader_follows callee).map _
  | call exact => exact (EntryCall.reader_follows exact).map _

end Operation

/-- The cursors that come to be over a buffer. Keeping a cursor for later and taking it up again
makes no other one, so that runs may be interleaved in any way. -/
inductive Cursor.Over (data : Bytes) : Cursor → Prop
  | start : Over data (Cursor.start data)
  | startAt (pos : Nat) (context : String) (c : Cursor)
      (started : Cursor.startAt data pos context = .ok c) : Over data c
  | rewind (c : Cursor) (placed : Over data c) : Over data c.rewind
  | run (c : Cursor) (operation : Operation) (placed : Over data c) :
      Over data (operation.reader c).2

theorem Cursor.Over.sound {data : Bytes} {c : Cursor} (counted : data.length < UInt64.size)
    (placed : c.Over data) : c.data = data ∧ c.pos ≤ data.length := by
  induction placed with
  | start => exact ⟨rfl, Nat.zero_le _⟩
  | startAt pos context c started =>
    unfold Cursor.startAt at started
    split at started
    · next inside =>
      cases started
      exact ⟨rfl, inside⟩
    · cases started
  | rewind c placed ih => exact ⟨ih.1, Nat.zero_le _⟩
  | run c operation placed ih =>
    obtain ⟨rfl, reached⟩ := ih
    rw [operation.reader_follows.agree c ⟨reached, counted⟩]
    exact ⟨rfl, Nat.sub_le _ _⟩

namespace Session

/-- All cursors of the session, the kept ones too, come to be over the buffer. -/
def Over (data : Bytes) (s : Session) : Prop :=
  ∀ c ∈ s.cursor :: s.saved, c.Over data

theorem Over.step {data : Bytes} {s : Session} (counted : data.length < UInt64.size)
    (placed : s.Over data) (step : Step) : (s.step step).2.Over data := by
  obtain ⟨current, kept⟩ := List.forall_mem_cons.mp placed
  have place (c : Cursor) (known : c.Over data) : Session.Over data { s with cursor := c } :=
    List.forall_mem_cons.mpr ⟨known, kept⟩
  cases step with
  | run operation => exact place _ (.run s.cursor operation current)
  | startAt pos context =>
    unfold Session.step
    dsimp only
    split
    · next c started =>
      rw [(current.sound counted).1] at started
      exact place c (.startAt pos context c started)
    · exact placed
  | rewind => exact place _ (.rewind s.cursor current)
  | save => exact List.forall_mem_cons.mpr ⟨current, placed⟩
  | restore =>
    unfold Session.step
    dsimp only
    split
    · next c saved found =>
      rw [found] at kept
      exact kept
    · exact placed
  | remaining => exact placed
  | info => exact placed

theorem Over.run {data : Bytes} {s : Session} (counted : data.length < UInt64.size)
    (placed : s.Over data) (steps : List Step) : ∀ entry ∈ s.run steps, entry.2.Over data := by
  induction steps generalizing s with
  | nil =>
    intro entry member
    cases member
  | cons step steps ih =>
    intro entry member
    obtain rfl | later := List.mem_cons.mp member
    · exact placed.step counted step
    · exact ih (placed.step counted step) entry later

end Session

end ClearSign
