import ClearSign.Error
import ClearSign.Limits
import ClearSign.Wire.LittleEndian

/-!
Reads. A read takes the unread bytes from the front and answers with a value or an error, together
with the bytes that are unread afterwards. A read that fails may have consumed bytes; the reads of
single values are made so that they do not.
-/

namespace ClearSign

def Read (α : Type) : Type := Bytes → Except DecodeError α × Bytes

namespace Read

def succeed (a : α) : Read α := fun bs => (.ok a, bs)

def fail (e : DecodeError) : Read α := fun bs => (.error e, bs)

def andThen (r : Read α) (next : α → Read β) : Read β := fun bs =>
  match r bs with
  | (.ok a, rest) => next a rest
  | (.error e, rest) => (.error e, rest)

instance : Monad Read where
  pure := succeed
  bind := andThen

@[simp] theorem pure_apply (a : α) (bs : Bytes) : (pure a : Read α) bs = (.ok a, bs) := rfl

@[simp] theorem fail_apply (e : DecodeError) (bs : Bytes) :
    (fail e : Read α) bs = (.error e, bs) := rfl

theorem bind_apply (r : Read α) (next : α → Read β) (bs : Bytes) :
    (r >>= next) bs =
      match r bs with
      | (.ok a, rest) => next a rest
      | (.error e, rest) => (.error e, rest) := rfl

def atomically (r : Read α) : Read α := fun bs =>
  match r bs with
  | (.ok a, rest) => (.ok a, rest)
  | (.error e, _) => (.error e, bs)

theorem atomically_of_ok {r : Read α} {a : α} {bs rest : Bytes} (read : r bs = (.ok a, rest)) :
    atomically r bs = (.ok a, rest) := by
  simp [atomically, read]

theorem atomically_of_error {r : Read α} {e : DecodeError} {bs rest : Bytes}
    (read : r bs = (.error e, rest)) : atomically r bs = (.error e, bs) := by
  simp [atomically, read]

def byte (context : String) : Read UInt8
  | [] => (.error (.unexpectedEnd context), [])
  | b :: rest => (.ok b, rest)

/-- The next `n` bytes, or none of them. -/
def block (n : Nat) (context : String) : Read { bs : Bytes // bs.length = n } := fun bs =>
  if enough : n ≤ bs.length then (.ok ⟨bs.take n, by simp [enough]⟩, bs.drop n)
  else (.error (.unexpectedEnd context), bs)

def bytes (n : Nat) (context : String) : Read Bytes := do
  return (← block n context).val

theorem bytes_append (context : String) (bs rest : Bytes) :
    bytes bs.length context (bs ++ rest) = (.ok bs, rest) := by
  simp [bytes, bind_apply, block]

theorem bytes_short {n : Nat} {bs : Bytes} (short : bs.length < n) (context : String) :
    bytes n context bs = (.error (.unexpectedEnd context), bs) := by
  simp [bytes, bind_apply, block, Nat.not_le.mpr short]

def number (width : Nat) (context : String) : Read Nat := do
  return LittleEndian.ofBytes (← bytes width context)

def u16 (context : String) : Read UInt16 := do
  return UInt16.ofNat (← number 2 context)

def u32 (context : String) : Read UInt32 := do
  return UInt32.ofNat (← number 4 context)

def u64 (context : String) : Read UInt64 := do
  return UInt64.ofNat (← number 8 context)

def u128 (context : String) : Read (BitVec 128) := do
  return BitVec.ofNat 128 (← number 16 context)

/-- False is written 0 and true 1; no other byte is read. -/
def bool (context : String) : Read Bool := atomically do
  let b ← byte context
  if b = 0 then return false
  else if b = 1 then return true
  else fail (.invalidBool b)

def address (context : String) : Read Address := do
  let ⟨bs, length_bs⟩ ← block 32 context
  return ⟨bs, length_bs⟩

end Read

end ClearSign
