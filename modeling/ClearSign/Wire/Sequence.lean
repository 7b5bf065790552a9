import ClearSign.Wire.Filling
import ClearSign.Wire.Varint

namespace ClearSign

def Bytes.withLength (bs : Bytes) : Bytes :=
  Varint.encode (UInt32.ofNat bs.length) ++ bs

namespace Read

def length (field : String) : Read Nat := atomically do
  let n := (← varint field).toNat
  if n ≤ Limits.sequenceLength then return n
  else fail (.lengthExceedsLimit field n Limits.sequenceLength)

def prefixed (field : String) : Read Bytes := atomically do
  bytes (← length field) field

end Read

/-- A byte string copied to the front of the buffer; the answer is how many bytes it has. Whether it
fits is asked before the bytes are looked for. -/
def Filling.prefixed (field : String) : Filling Nat := atomically do
  let n ← Read.length field
  if n ≤ (← capacity) then
    copy (← Read.bytes n field)
    return n
  else fail (.capacityExceeded field (← capacity))

theorem Filling.onto_prefixed (field : String) (buffer : Bytes) :
    (prefixed field).onto buffer = (Read.atomically do
      let n ← Read.length field
      if n ≤ buffer.length then
        let bs ← Read.bytes n field
        return (n, buffer.overwrite bs)
      else Read.fail (.capacityExceeded field buffer.length)) := by
  simp only [prefixed, onto_atomically, onto_read_bind, onto_capacity_bind]
  congr
  funext n
  split
  · rw [onto_read_bind]
    rfl
  · rfl

namespace Read

def prefixedInto (buffer : Bytes) (field : String) : Read (Nat × Bytes) :=
  (Filling.prefixed field).onto buffer

/-- A byte string reduced to an ASCII text of at most `capacity` characters. -/
def text (capacity : Nat) (field : String) : Read Bytes := atomically do
  match Utf8.toAscii capacity (← prefixed field) with
  | .ok ascii => return ascii.text
  | .error (.malformed offset) => fail (.invalidUtf8 field offset)
  | .error (.capacityExceeded capacity) => fail (.capacityExceeded field capacity)

end Read

def Utf8.Fault.ofField (field : String) : Utf8.Fault → DecodeError
  | malformed offset => .invalidUtf8 field offset
  | capacityExceeded capacity => .capacityExceeded field capacity

namespace Filling

def reduce (field : String) (text : Bytes) : Filling Utf8.Reduced := fun buffer bs =>
  match Utf8.fill buffer text with
  | (.ok reduced, buffer) => ⟨.ok reduced, bs, buffer⟩
  | (.error fault, buffer) => ⟨.error (fault.ofField field), bs, buffer⟩

/-- The text that a reduction left in the buffer, where it is looked at once more before it is taken
for one. -/
def checkedText (field : String) (text : Bytes) : Filling Bytes := do
  let reduced ← reduce field text
  let text := (← contents).take reduced.length
  match Utf8.invalid? text with
  | none => return text
  | some offset => fail (.invalidUtf8 field offset)

def text (field : String) : Filling Bytes := atomically do
  checkedText field (← Read.prefixed field)

theorem onto_reduce_bind (field : String) (text : Bytes) (next : Utf8.Reduced → Filling β)
    (buffer : Bytes) :
    (reduce field text >>= next).onto buffer =
      match Utf8.fill buffer text with
      | (.ok reduced, buffer) => (next reduced).onto buffer
      | (.error fault, _) => Read.fail (fault.ofField field) := by
  funext bs
  change onto (andThen (reduce field text) next) buffer bs = _
  unfold onto andThen reduce
  cases Utf8.fill buffer text with
  | mk result buffer => cases result <;> rfl

end Filling

end ClearSign
