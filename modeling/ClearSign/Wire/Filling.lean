import ClearSign.Wire.Read

namespace ClearSign

structure Filled (α : Type) where
  result : Except DecodeError α
  unread : Bytes
  buffer : Bytes

def Filling (α : Type) : Type := (buffer unread : Bytes) → Filled α

namespace Filling

def succeed (a : α) : Filling α := fun buffer bs => ⟨.ok a, bs, buffer⟩

def fail (e : DecodeError) : Filling α := fun buffer bs => ⟨.error e, bs, buffer⟩

def andThen (f : Filling α) (next : α → Filling β) : Filling β := fun buffer bs =>
  match f buffer bs with
  | ⟨.ok a, rest, buffer⟩ => next a buffer rest
  | ⟨.error e, rest, buffer⟩ => ⟨.error e, rest, buffer⟩

instance : Monad Filling where
  pure := succeed
  bind := andThen

def ofRead (r : Read α) : Filling α := fun buffer bs =>
  match r bs with
  | (result, rest) => ⟨result, rest, buffer⟩

instance : MonadLift Read Filling where
  monadLift := ofRead

def capacity : Filling Nat := fun buffer bs => ⟨.ok buffer.length, bs, buffer⟩

def contents : Filling Bytes := fun buffer bs => ⟨.ok buffer, bs, buffer⟩

def copy (written : Bytes) : Filling Unit := fun buffer bs => ⟨.ok (), bs, buffer.overwrite written⟩

/-- Leaves everything unread on failure, but the buffer as it is by then. -/
def atomically (f : Filling α) : Filling α := fun buffer bs =>
  match f buffer bs with
  | ⟨.ok a, rest, buffer⟩ => ⟨.ok a, rest, buffer⟩
  | ⟨.error e, _, buffer⟩ => ⟨.error e, bs, buffer⟩

/-- A read into this buffer, which answers with what the buffer became. -/
def onto (f : Filling α) (buffer : Bytes) : Read (α × Bytes) := fun bs =>
  match f buffer bs with
  | ⟨.ok a, rest, buffer⟩ => (.ok (a, buffer), rest)
  | ⟨.error e, rest, _⟩ => (.error e, rest)

@[simp] theorem onto_pure (a : α) (buffer : Bytes) :
    (pure a : Filling α).onto buffer = pure (a, buffer) := rfl

@[simp] theorem onto_fail (e : DecodeError) (buffer : Bytes) :
    (fail e : Filling α).onto buffer = Read.fail e := rfl

@[simp] theorem onto_read_bind (r : Read α) (next : α → Filling β) (buffer : Bytes) :
    ((liftM r : Filling α) >>= next).onto buffer = r >>= fun a => (next a).onto buffer := by
  funext bs
  change onto (andThen (ofRead r) next) buffer bs = _
  rw [Read.bind_apply]
  cases read : r bs with
  | mk result rest => cases result <;> simp [onto, andThen, ofRead, read]

@[simp] theorem onto_capacity_bind (next : Nat → Filling β) (buffer : Bytes) :
    (capacity >>= next).onto buffer = (next buffer.length).onto buffer := rfl

@[simp] theorem onto_contents_bind (next : Bytes → Filling β) (buffer : Bytes) :
    (contents >>= next).onto buffer = (next buffer).onto buffer := rfl

@[simp] theorem onto_copy_bind (written : Bytes) (next : Unit → Filling β) (buffer : Bytes) :
    (copy written >>= next).onto buffer = (next ()).onto (buffer.overwrite written) := rfl

@[simp] theorem onto_copy (written buffer : Bytes) :
    (copy written).onto buffer = pure ((), buffer.overwrite written) := rfl

@[simp] theorem onto_atomically (f : Filling α) (buffer : Bytes) :
    (atomically f).onto buffer = Read.atomically (f.onto buffer) := by
  funext bs
  unfold Read.atomically onto atomically
  cases f buffer bs with
  | mk result rest left => cases result <;> rfl

def whole (context : String) : Filling Unit := do
  copy (← Read.bytes (← capacity) context)

theorem onto_whole (context : String) (buffer : Bytes) :
    (whole context).onto buffer =
      (Read.bytes buffer.length context >>= fun bs => pure ((), buffer.overwrite bs)) := by
  simp [whole]

end Filling

end ClearSign
