import ClearSign.Wire.Sequence

namespace ClearSign

structure Cursor where
  data : Bytes
  pos : Nat
  deriving DecidableEq, Repr

namespace Cursor

def start (data : Bytes) : Cursor := ⟨data, 0⟩

def startAt (data : Bytes) (pos : Nat) (context : String) : Except DecodeError Cursor :=
  if pos ≤ data.length then .ok ⟨data, pos⟩ else .error (.unexpectedEnd context)

def remaining (c : Cursor) : Bytes := c.data.drop c.pos

def isEmpty (c : Cursor) : Bool := decide (c.data.length ≤ c.pos)

def rewind (c : Cursor) : Cursor := start c.data

/-- Runs a read on the unread bytes; the position moves to where the bytes it left unread start. A
reader that counts the position on its own comes to the same place. -/
def run (c : Cursor) (r : Read α) : Except DecodeError α × Cursor :=
  match r c.remaining with
  | (result, rest) => (result, ⟨c.data, c.data.length - rest.length⟩)

/-- Runs a read whose failure ends the matter, so that no position is kept for it. -/
def read (c : Cursor) (r : Read α) : Except DecodeError (α × Cursor) :=
  match c.run r with
  | (.ok a, next) => .ok (a, next)
  | (.error e, _) => .error e

end Cursor

end ClearSign
