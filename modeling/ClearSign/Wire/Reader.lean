import ClearSign.Wire.Cursor
import ClearSign.Wire.Field

/-!
Readers. A reader looks at the bytes of a cursor from its position on and moves the position, which
is a number of 64 bits. Reads of single values put the position back where they fail.
-/

namespace ClearSign

def Reader (α : Type) : Type := Cursor → Except DecodeError α × Cursor

namespace Reader

def succeed (a : α) : Reader α := fun c => (.ok a, c)

def fail (e : DecodeError) : Reader α := fun c => (.error e, c)

def andThen (m : Reader α) (next : α → Reader β) : Reader β := fun c =>
  match m c with
  | (.ok a, c) => next a c
  | (.error e, c) => (.error e, c)

instance : Monad Reader where
  pure := succeed
  bind := andThen

theorem bind_apply (m : Reader α) (next : α → Reader β) (c : Cursor) :
    (m >>= next) c =
      match m c with
      | (.ok a, c) => next a c
      | (.error e, c) => (.error e, c) := rfl

def atomically (m : Reader α) : Reader α := fun c =>
  let start := c.pos
  match m c with
  | (.ok a, c) => (.ok a, c)
  | (.error e, c) => (.error e, { c with pos := start })

/-- The sum of two numbers of 64 bits, if it is one of them. -/
def checkedAdd? (a b : Nat) : Option Nat :=
  if a + b < UInt64.size then some (a + b) else none

/-- The sum of two numbers of 64 bits, from which a 65th bit is lost. -/
def wrappingAdd (a b : Nat) : Nat :=
  (a + b) % UInt64.size

def byte (context : String) : Reader UInt8 := fun c =>
  match c.data[c.pos]? with
  | some b => (.ok b, { c with pos := wrappingAdd c.pos 1 })
  | none => (.error (.unexpectedEnd context), c)

def endOf? (c : Cursor) (n : Nat) : Option Nat :=
  (checkedAdd? c.pos n).filter (· ≤ c.data.length)

theorem length_of_endOf? {c : Cursor} {n stop : Nat} (found : endOf? c n = some stop) :
    (c.data.extract c.pos stop).length = n := by
  obtain ⟨sum, inside⟩ := Option.filter_eq_some_iff.mp found
  unfold checkedAdd? at sum
  split at sum
  · cases sum
    rw [decide_eq_true_eq] at inside
    simp [List.extract_eq_take_drop]
    omega
  · cases sum

def block (n : Nat) (context : String) : Reader { bs : Bytes // bs.length = n } := fun c =>
  match found : endOf? c n with
  | some stop => (.ok ⟨c.data.extract c.pos stop, length_of_endOf? found⟩, { c with pos := stop })
  | none => (.error (.unexpectedEnd context), c)

def bytes (n : Nat) (context : String) : Reader Bytes := do
  return (← block n context).val

theorem bytes_of_endOf?_some {c : Cursor} {n stop : Nat} (context : String)
    (found : endOf? c n = some stop) :
    bytes n context c = (.ok (c.data.extract c.pos stop), { c with pos := stop }) := by
  unfold bytes
  rw [bind_apply]
  unfold block
  split
  · next a c read =>
    split at read
    · next stop' found' =>
      cases found.symm.trans found'
      cases read
      rfl
    · cases read
  · next e c read =>
    split at read
    · cases read
    · next missing => cases found.symm.trans missing

theorem bytes_of_endOf?_none {c : Cursor} {n : Nat} (context : String)
    (missing : endOf? c n = none) : bytes n context c = (.error (.unexpectedEnd context), c) := by
  unfold bytes
  rw [bind_apply]
  unfold block
  split
  · next a c read =>
    split at read
    · next stop found => cases missing.symm.trans found
    · cases read
  · next e c read =>
    split at read
    · cases read
    · cases read
      rfl

theorem bytes_start {n : Nat} (narrow : n < UInt64.size) (context : String) (bs : Bytes) :
    bytes n context (.start bs) =
      if n ≤ bs.length then (.ok (bs.take n), ⟨bs, n⟩)
      else (.error (.unexpectedEnd context), .start bs) := by
  have sum : checkedAdd? 0 n = some n := by
    rw [checkedAdd?, Nat.zero_add, if_pos narrow]
  have place : endOf? (.start bs) n = (some n).filter (· ≤ bs.length) := congrArg _ sum
  by_cases enough : n ≤ bs.length
  · have found : endOf? (.start bs) n = some n := by simp [place, enough]
    rw [if_pos enough]
    exact bytes_of_endOf?_some context found
  · have missing : endOf? (.start bs) n = none := by
      simpa [place] using Nat.lt_of_not_le enough
    rw [if_neg enough]
    exact bytes_of_endOf?_none context missing

def number (width : Nat) (context : String) : Reader Nat := do
  return LittleEndian.ofBytes (← bytes width context)

def u16 (context : String) : Reader UInt16 := do
  return UInt16.ofNat (← number 2 context)

def u32 (context : String) : Reader UInt32 := do
  return UInt32.ofNat (← number 4 context)

def u64 (context : String) : Reader UInt64 := do
  return UInt64.ofNat (← number 8 context)

def u128 (context : String) : Reader (BitVec 128) := do
  return BitVec.ofNat 128 (← number 16 context)

def bool (context : String) : Reader Bool := atomically do
  let b ← byte context
  if b = 0 then return false
  else if b = 1 then return true
  else fail (.invalidBool b)

def address (context : String) : Reader Address := do
  let ⟨bs, length_bs⟩ ← block 32 context
  return ⟨bs, length_bs⟩

/-- Reads at most `room` digits, the first of them at place `i`, and adds them to `value`. -/
def accumulate (context : String) : (room i : Nat) → (value : UInt64) → Reader UInt32
  | 0, _, _ => fail (.varintTooLong context)
  | room + 1, i, value => do
    let b ← byte context
    let digit := (b &&& 0x7F).toUInt64
    let shift := 7 * i
    let value := value ||| digit <<< UInt64.ofNat shift
    if 0xFFFFFFFF < value then fail (.varintOverflow context)
    else if b &&& 0x80 = 0 then
      if 0 < shift ∧ digit = 0 then fail (.nonCanonicalVarint context)
      else return value.toUInt32
    else accumulate context room (i + 1) value

def varint (context : String) : Reader UInt32 :=
  atomically (accumulate context Limits.varintBytes 0 0)

def length (field : String) : Reader Nat := atomically do
  let n := (← varint field).toNat
  if Limits.sequenceLength < n then fail (.lengthExceedsLimit field n Limits.sequenceLength)
  else return n

def prefixed (field : String) : Reader Bytes := atomically do
  bytes (← length field) field

end Reader

/-- What a reader comes to that copies into a lent buffer. -/
structure Lent (α : Type) where
  result : Except DecodeError α
  cursor : Cursor
  buffer : Bytes

def Lending (α : Type) : Type := (buffer : Bytes) → (c : Cursor) → Lent α

namespace Lending

def succeed (a : α) : Lending α := fun buffer c => ⟨.ok a, c, buffer⟩

def fail (e : DecodeError) : Lending α := fun buffer c => ⟨.error e, c, buffer⟩

def andThen (m : Lending α) (next : α → Lending β) : Lending β := fun buffer c =>
  match m buffer c with
  | ⟨.ok a, c, buffer⟩ => next a buffer c
  | ⟨.error e, c, buffer⟩ => ⟨.error e, c, buffer⟩

instance : Monad Lending where
  pure := succeed
  bind := andThen

def ofReader (m : Reader α) : Lending α := fun buffer c =>
  match m c with
  | (result, c) => ⟨result, c, buffer⟩

instance : MonadLift Reader Lending where
  monadLift := ofReader

def capacity : Lending Nat := fun buffer c => ⟨.ok buffer.length, c, buffer⟩

def copy (written : Bytes) : Lending Unit := fun buffer c => ⟨.ok (), c, buffer.overwrite written⟩

def atomically (m : Lending α) : Lending α := fun buffer c =>
  let start := c.pos
  match m buffer c with
  | ⟨.ok a, c, buffer⟩ => ⟨.ok a, c, buffer⟩
  | ⟨.error e, c, buffer⟩ => ⟨.error e, { c with pos := start }, buffer⟩

def whole (context : String) : Lending Unit := do
  copy (← Reader.bytes (← capacity) context)

def prefixed (field : String) : Lending Nat := atomically do
  let n ← Reader.length field
  if (← capacity) < n then fail (.capacityExceeded field (← capacity))
  else
    copy (← Reader.bytes n field)
    return n

/-- A byte string reduced to an ASCII text in the buffer. Where the reduction fails, or what it left
in the buffer is no text, the position is put back to where the byte string starts. -/
def text (field : String) : Lending Bytes := fun buffer c =>
  let start := c.pos
  match Reader.prefixed field c with
  | (.error e, c) => ⟨.error e, c, buffer⟩
  | (.ok bs, c) =>
    match Utf8.fill buffer bs with
    | (.error fault, buffer) => ⟨.error (fault.ofField field), { c with pos := start }, buffer⟩
    | (.ok reduced, buffer) =>
      let text := buffer.take reduced.length
      match Utf8.invalid? text with
      | none => ⟨.ok text, c, buffer⟩
      | some offset => ⟨.error (.invalidUtf8 field offset), { c with pos := start }, buffer⟩

def onto (m : Lending α) (buffer : Bytes) : Reader (α × Bytes) := fun c =>
  match m buffer c with
  | ⟨.ok a, c, buffer⟩ => (.ok (a, buffer), c)
  | ⟨.error e, c, _⟩ => (.error e, c)

end Lending

def Shape.reader (context : String) : Shape → Reader Field
  | u8 => Field.u8 <$> Reader.byte context
  | u16 => Field.u16 <$> Reader.u16 context
  | u32 => Field.u32 <$> Reader.u32 context
  | u64 => Field.u64 <$> Reader.u64 context
  | u128 => Field.u128 <$> Reader.u128 context
  | i8 => (Field.i8 ·.toInt8) <$> Reader.byte context
  | i16 => (Field.i16 ·.toInt16) <$> Reader.u16 context
  | i32 => (Field.i32 ·.toInt32) <$> Reader.u32 context
  | i64 => (Field.i64 ·.toInt64) <$> Reader.u64 context
  | i128 => Field.i128 <$> Reader.u128 context
  | bool => Field.bool <$> Reader.bool context
  | optionTag => Field.optionTag <$> Reader.bool context
  | address => Field.address <$> Reader.address context
  | varint => Field.varint <$> Reader.varint context
  | bytes length => Field.bytes <$> Reader.bytes length context
  | prefixed => Field.prefixed <$> Reader.prefixed context

end ClearSign
