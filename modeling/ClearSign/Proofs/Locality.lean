import ClearSign.Proofs.Canonical.Cursor
import ClearSign.Session

namespace ClearSign

/-- The answer of a read that needed more bytes than there were. -/
def RanOut (result : Except DecodeError α) : Prop :=
  ∃ context, result = .error (.unexpectedEnd context)

theorem ranOut_error_iff {e : DecodeError} :
    RanOut (.error e : Except DecodeError α) ↔ ∃ context, e = .unexpectedEnd context := by
  simp [RanOut]

namespace Read

structure Local (r : Read α) : Prop where
  suffix : ∀ bs, (r bs).2 <:+ bs
  stable : ∀ bs, ¬ RanOut (r bs).1 → ∀ more, r (bs ++ more) = ((r bs).1, (r bs).2 ++ more)

namespace Local

theorem pure (a : α) : (Pure.pure a : Read α).Local :=
  ⟨fun bs => List.suffix_refl bs, fun _ _ _ => rfl⟩

theorem fail (e : DecodeError) : (Read.fail e : Read α).Local :=
  ⟨fun bs => List.suffix_refl bs, fun _ _ _ => rfl⟩

theorem bind {r : Read α} {next : α → Read β} (first : r.Local) (second : ∀ a, (next a).Local) :
    (r >>= next).Local := by
  constructor
  · intro bs
    have passed := first.suffix bs
    rw [bind_apply]
    cases read : r bs with
    | mk result rest =>
      rw [read] at passed
      cases result with
      | ok a => exact ((second a).suffix rest).trans passed
      | error e => exact passed
  · intro bs enough more
    have same := first.stable bs
    rw [bind_apply] at enough ⊢
    rw [bind_apply]
    cases read : r bs with
    | mk result rest =>
      rw [read] at same enough
      cases result with
      | ok a =>
        rw [same (by simp [RanOut]) more]
        exact (second a).stable rest enough more
      | error e =>
        rw [ranOut_error_iff] at enough
        rw [same (mt ranOut_error_iff.mp enough) more]

theorem map {r : Read α} (inner : r.Local) (f : α → β) : (f <$> r).Local :=
  inner.bind fun a => pure (f a)

theorem ite {r s : Read α} {p : Prop} [Decidable p] (yes : r.Local) (no : s.Local) :
    (if p then r else s).Local := by
  split
  · exact yes
  · exact no

theorem atomically {r : Read α} (inner : r.Local) : (Read.atomically r).Local := by
  constructor
  · intro bs
    have passed := inner.suffix bs
    unfold Read.atomically
    cases read : r bs with
    | mk result rest =>
      rw [read] at passed
      cases result with
      | ok a => exact passed
      | error e => exact List.suffix_refl bs
  · intro bs enough more
    have same := inner.stable bs
    unfold Read.atomically at enough ⊢
    cases read : r bs with
    | mk result rest =>
      rw [read] at same enough
      cases result with
      | ok a => rw [same enough more]
      | error e => rw [same enough more]

theorem ranOut_of_cut {r : Read α} (known : r.Local) {part more rest : Bytes} {a : α}
    (read : r (part ++ more) = (.ok a, rest)) (short : rest.length < more.length) :
    RanOut (r part).1 := by
  apply Classical.byContradiction
  intro enough
  have same := known.stable part enough more
  rw [read] at same
  have unread := congrArg (fun answer => answer.2.length) same
  simp only [List.length_append] at unread
  omega

end Local

theorem byte_local (context : String) : (byte context).Local := by
  constructor
  · intro bs
    cases bs with
    | nil => exact List.suffix_refl []
    | cons b bs => exact List.suffix_cons b bs
  · intro bs enough more
    cases bs with
    | nil => exact absurd ⟨context, rfl⟩ enough
    | cons b bs => rfl

theorem block_local (n : Nat) (context : String) : (block n context).Local := by
  constructor
  · intro bs
    unfold block
    split
    · exact List.drop_suffix n bs
    · exact List.suffix_refl bs
  · intro bs enough more
    by_cases long : n ≤ bs.length
    · have longer : n ≤ (bs ++ more).length := by
        rw [List.length_append]
        omega
      simp only [block, dif_pos long, dif_pos longer, List.take_append_of_le_length long,
        List.drop_append_of_le_length long]
    · refine absurd ⟨context, ?_⟩ enough
      simp only [block, dif_neg long]

theorem bytes_local (n : Nat) (context : String) : (bytes n context).Local :=
  (block_local n context).map _

theorem number_local (width : Nat) (context : String) : (number width context).Local :=
  (bytes_local width context).map _

theorem bool_local (context : String) : (bool context).Local :=
  ((byte_local context).bind fun _ => .ite (.pure _) (.ite (.pure _) (.fail _))).atomically

theorem address_local (context : String) : (address context).Local :=
  (block_local 32 context).map _

theorem readDigits_local (context : String) (room max : Nat) (first : Bool) :
    (Varint.readDigits context room max first).Local := by
  induction room generalizing max first with
  | zero => exact .fail _
  | succ room ih =>
    exact (byte_local context).bind fun _ =>
      .ite (.fail _) (.ite ((ih _ false).map _) (.ite (.fail _) (.pure _)))

theorem varint_local (context : String) : (varint context).Local :=
  ((readDigits_local context _ _ true).map _).atomically

theorem length_local (field : String) : (length field).Local :=
  ((varint_local field).bind fun _ => .ite (.pure _) (.fail _)).atomically

theorem prefixed_local (field : String) : (prefixed field).Local :=
  ((length_local field).bind fun n => bytes_local n field).atomically

theorem text_local (capacity : Nat) (field : String) : (text capacity field).Local := by
  refine ((prefixed_local field).bind fun bs => ?_).atomically
  cases Utf8.toAscii capacity bs with
  | ok ascii => exact .pure _
  | error fault =>
    cases fault with
    | malformed offset => exact .fail _
    | capacityExceeded capacity => exact .fail _

theorem whole_local (buffer : Bytes) (context : String) :
    ((Filling.whole context).onto buffer).Local := by
  rw [Filling.onto_whole]
  exact (bytes_local _ context).bind fun _ => .pure _

theorem prefixedInto_local (buffer : Bytes) (field : String) :
    (prefixedInto buffer field).Local := by
  rw [prefixedInto, Filling.onto_prefixed]
  exact ((length_local field).bind fun n =>
    .ite ((bytes_local n field).bind fun _ => .pure _) (.fail _)).atomically

theorem expected_local (context : String) (expected : UInt32) (fault : UInt32 → DecodeError) :
    (do let found ← varint context
        if found = expected then return () else Read.fail (fault found) : Read Unit).Local :=
  (varint_local context).bind fun _ => .ite (.pure _) (.fail _)

end Read

/-- What holds of the reads that fields are made of, and of whatever is made of such a read, holds
of the reads of all shapes. -/
theorem Shape.read_of_parts {P : ∀ {α : Type}, Read α → Prop} {context : String}
    (map : ∀ {α β : Type} {r : Read α} (f : α → β), P r → P (f <$> r))
    (byte : P (Read.byte context)) (block : ∀ n, P (Read.block n context))
    (bool : P (Read.bool context)) (varint : P (Read.varint context))
    (prefixed : P (Read.prefixed context)) (shape : Shape) : P (shape.read context) := by
  have bytes (n : Nat) : P (Read.bytes n context) := map _ (block n)
  have number (width : Nat) : P (Read.number width context) := map _ (bytes width)
  cases shape with
  | u8 => exact map _ byte
  | u16 => exact map _ (map _ (number 2))
  | u32 => exact map _ (map _ (number 4))
  | u64 => exact map _ (map _ (number 8))
  | u128 => exact map _ (map _ (number 16))
  | i8 => exact map _ byte
  | i16 => exact map _ (map _ (number 2))
  | i32 => exact map _ (map _ (number 4))
  | i64 => exact map _ (map _ (number 8))
  | i128 => exact map _ (map _ (number 16))
  | bool => exact map _ bool
  | optionTag => exact map _ bool
  | address => exact map _ (map _ (block 32))
  | varint => exact map _ varint
  | bytes length => exact map _ (bytes length)
  | prefixed => exact map _ prefixed

theorem Shape.read_local (context : String) (shape : Shape) : (shape.read context).Local :=
  shape.read_of_parts (fun f inner => inner.map f) (Read.byte_local context)
    (Read.block_local · context) (Read.bool_local context) (Read.varint_local context)
    (Read.prefixed_local context)

namespace TypeTag

theorem Kind.read_local : Kind.read.Local := by
  refine ((Read.varint_local "type tag").bind fun tag => ?_).atomically
  cases ofTag? tag with
  | some kind => exact .pure _
  | none => exact .fail _

theorem Value.read_local (kind : Kind) : (Value.read kind).Local := by
  unfold Value.read
  cases kind.width? with
  | none => exact .fail _
  | some width =>
    refine ((Read.bytes_local width "type tag value").bind fun bs => ?_).atomically
    cases (Value.readInner kind bs).1 with
    | ok value => exact .pure _
    | error e => exact .fail _

theorem read_local : TypeTag.read.Local :=
  (Kind.read_local.bind Value.read_local).atomically

end TypeTag

theorem StructTag.read_local (callee : Callee) : (StructTag.read callee).Local :=
  (Read.address_local _).bind fun _ => (Read.prefixed_local _).bind fun _ =>
    (Read.prefixed_local _).bind fun _ => (Read.varint_local _).bind fun _ =>
      .ite (.pure _) (.fail _)

theorem FunctionId.read_local : FunctionId.read.Local :=
  (Read.address_local _).bind fun _ => (Read.prefixed_local _).bind fun _ =>
    (Read.prefixed_local _).bind fun _ => .pure _

namespace Action

theorem readCoin_local (callee : Callee) : (readCoin callee).Local :=
  TypeTag.Kind.read_local.bind fun _ => .ite (StructTag.read_local callee) (.fail _)

theorem readTransfer_local (callee : Callee) : (readTransfer callee).Local :=
  (Read.expected_local _ _ _).bind fun _ => (Read.expected_local _ _ _).bind fun _ =>
    (Read.address_local _).bind fun _ => (Read.expected_local _ _ _).bind fun _ =>
      ((Read.number_local 8 _).map _).bind fun _ => .pure _

theorem readCoinTransfer_local (callee : Callee) : (readCoinTransfer callee).Local :=
  (Read.expected_local _ _ _).bind fun _ => (readCoin_local callee).bind fun _ =>
    (readTransfer_local callee).bind fun _ => .pure _

theorem read_local (callee : Callee) : (Action.read callee).Local := by
  cases callee with
  | unknown => exact .pure _
  | accountTransfer => exact (Read.expected_local _ _ _).bind fun _ => (readTransfer_local _).map _
  | coinTransfer => exact (readCoinTransfer_local _).map _
  | accountTransferCoins => exact (readCoinTransfer_local _).map _

end Action

theorem EntryCall.read_local (exact : Bool) : (EntryCall.read exact).Local :=
  FunctionId.read_local.bind fun _ => (Action.read_local _).bind fun _ => .pure _

namespace Operation

theorem read_local (operation : Operation) : operation.read.Local := by
  cases operation with
  | field shape context => exact (shape.read_local context).map _
  | length context => exact (Read.length_local context).map _
  | fill buffer context =>
    exact (Read.whole_local buffer context).bind fun _ => .pure _
  | prefixedInto buffer context =>
    exact (Read.prefixedInto_local buffer context).bind fun _ => .pure _
  | text capacity context => exact (Read.text_local capacity context).map _
  | kind => exact TypeTag.Kind.read_local.map _
  | value kind => exact (TypeTag.Value.read_local kind).map _
  | tag => exact TypeTag.read_local.map _
  | struct callee => exact (StructTag.read_local callee).map _
  | call exact => exact (EntryCall.read_local exact).map _

/-- What an operation answers at a position of a buffer, and where it ends. -/
def runAt (operation : Operation) (data : Bytes) (pos : Nat) :
    Except DecodeError Reading × Nat :=
  match (Cursor.mk data pos).run operation.read with
  | (answer, c) => (answer, c.pos)

theorem runAt_eq (operation : Operation) (data : Bytes) (pos : Nat) :
    operation.runAt data pos = ((operation.read (data.drop pos)).1,
      data.length - (operation.read (data.drop pos)).2.length) := rfl

end Operation

/-- An operation that does not run out of bytes answers the same and ends at the same place when the
buffer goes on. Cut anywhere inside of what it takes, the buffer makes it run out. And at a position
it answers as at the start of the bytes from there. -/
theorem reads_are_local (operation : Operation) (data : Bytes) (pos : Nat)
    (inside : pos ≤ data.length) :
    (¬ RanOut (operation.runAt data pos).1 →
      ∀ more, operation.runAt (data ++ more) pos = operation.runAt data pos) ∧
    (∀ reading stop, operation.runAt data pos = (.ok reading, stop) →
      ∀ cut, pos ≤ cut → cut < stop → RanOut (operation.runAt (data.take cut) pos).1) ∧
    operation.runAt data pos = ((operation.runAt (data.drop pos) 0).1,
      pos + (operation.runAt (data.drop pos) 0).2) := by
  have known := operation.read_local
  obtain ⟨before, after, rfl, rfl⟩ := Bytes.exists_split inside
  have passed := (known.suffix after).length_le
  simp only [Operation.runAt_eq, List.drop_left, List.append_assoc, List.drop_zero,
    List.length_append]
  refine ⟨?_, ?_, ?_⟩
  · intro enough more
    rw [known.stable after enough more, List.length_append]
    exact Prod.ext rfl (by simp only; omega)
  · intro reading stop answer cut here short
    obtain ⟨read, rfl⟩ := Prod.mk.inj answer
    obtain ⟨width, rfl⟩ := Nat.exists_eq_add_of_le here
    obtain ⟨part, more, rfl, rfl⟩ := Bytes.exists_split (by omega : width ≤ after.length)
    rw [List.take_length_add_append, List.take_left, List.drop_left]
    simp only [List.length_append] at passed short
    have used : (operation.read (part ++ more)).2.length < more.length := by omega
    exact known.ranOut_of_cut (Prod.ext read rfl) used
  · exact Prod.ext rfl (by simp only; omega)

def sampleStructTag (typeArgs : UInt8) : Bytes :=
  0xff :: (Address.framework.bytes ++ [1, 0x61, 1, 0x62, typeArgs])

theorem reads_are_local_sampleStructTag :
    (∀ more, (Operation.struct .coinTransfer).runAt (sampleStructTag 5 ++ more) 1 =
        (.error (.coinTypeArgCountMismatch .coinTransfer 5), 38)) ∧
      RanOut ((Operation.struct .coinTransfer).runAt ((sampleStructTag 0).take 37) 1).1 ∧
      (Operation.struct .coinTransfer).runAt (sampleStructTag 0) 1 =
        (((Operation.struct .coinTransfer).runAt ((sampleStructTag 0).drop 1) 0).1, 38) := by
  have refused : (Operation.struct .coinTransfer).runAt (sampleStructTag 5) 1 =
      (.error (.coinTypeArgCountMismatch .coinTransfer 5), 38) := by decide +kernel
  have read : (Operation.struct .coinTransfer).runAt (sampleStructTag 0) 1 =
      (.ok (.struct ⟨.framework, [0x61], [0x62]⟩), 38) := by decide +kernel
  have generic := reads_are_local (.struct .coinTransfer) (sampleStructTag 5) 1 (by decide)
  have plain := reads_are_local (.struct .coinTransfer) (sampleStructTag 0) 1 (by decide)
  refine ⟨?_, ?_, ?_⟩
  · intro more
    rw [generic.1 (by simp [refused, RanOut]) more, refused]
  · exact plain.2.1 _ _ read 37 (by decide) (by decide)
  · rw [plain.2.2]
    decide +kernel

end ClearSign
