import ClearSign.Call.Reader

/-!
Sessions: a buffer is explored by steps that read from it, set the position or keep it for later.
A step that fails does not end the session.
-/

namespace ClearSign

/-- An operation that reads at the cursor. The buffers that `fill` and `prefixedInto` copy into
are given with their bytes. -/
inductive Operation
  | field (shape : Shape) (context : String)
  | length (context : String)
  | fill (buffer : Bytes) (context : String)
  | prefixedInto (buffer : Bytes) (context : String)
  | text (capacity : Nat) (context : String)
  | kind
  | value (kind : TypeTag.Kind)
  | tag
  | struct (callee : Callee)
  | call (exact : Bool)
  deriving DecidableEq, Repr

inductive Reading
  | field (field : Field)
  | length (length : Nat)
  | filled (buffer : Bytes)
  | copied (count : Nat) (buffer : Bytes)
  | text (text : Bytes)
  | kind (kind : TypeTag.Kind)
  | value (value : TypeTag.Value)
  | struct (tag : StructTag)
  | call (call : EntryCall)
  deriving DecidableEq

namespace Operation

def read : Operation → Read Reading
  | .field shape context => Reading.field <$> shape.read context
  | .length context => Reading.length <$> Read.length context
  | .fill buffer context => do
    let (_, buffer) ← (Filling.whole context).onto buffer
    return .filled buffer
  | .prefixedInto buffer context => do
    let (count, buffer) ← Read.prefixedInto buffer context
    return .copied count buffer
  | .text capacity context => Reading.text <$> Read.text capacity context
  | .kind => Reading.kind <$> TypeTag.Kind.read
  | .value k => Reading.value <$> TypeTag.Value.read k
  | .tag => Reading.value <$> TypeTag.read
  | .struct callee => Reading.struct <$> StructTag.read callee
  | .call exact => Reading.call <$> EntryCall.read exact

def reader : Operation → Reader Reading
  | .field shape context => Reading.field <$> shape.reader context
  | .length context => Reading.length <$> Reader.length context
  | .fill buffer context => do
    let (_, buffer) ← (Lending.whole context).onto buffer
    return .filled buffer
  | .prefixedInto buffer context => do
    let (count, buffer) ← (Lending.prefixed context).onto buffer
    return .copied count buffer
  | .text capacity context => do
    let (bs, _) ← (Lending.text context).onto (List.replicate capacity 0)
    return .text bs
  | .kind => Reading.kind <$> TypeTag.Kind.reader
  | .value k => Reading.value <$> TypeTag.Value.reader k
  | .tag => Reading.value <$> TypeTag.reader
  | .struct callee => Reading.struct <$> StructTag.reader callee
  | .call exact => Reading.call <$> EntryCall.reader exact

/-- The buffer after the operation was run at a cursor, whether it failed or not. -/
def bufferAfter? (c : Cursor) : Operation → Option Bytes
  | fill buffer context => some (Lending.whole context buffer c).buffer
  | prefixedInto buffer context => some (Lending.prefixed context buffer c).buffer
  | _ => none

end Operation

inductive Step
  | run (operation : Operation)
  | startAt (pos : Nat) (context : String)
  | rewind
  | save
  | restore
  | remaining
  | info
  deriving DecidableEq, Repr

inductive Answer
  | done
  | read (reading : Reading)
  | remaining (bytes : Bytes)
  | info (length : Nat) (isEmpty : Bool) (data : Bytes)
  deriving DecidableEq

structure Session where
  cursor : Cursor
  saved : List Cursor

namespace Session

def start (data : Bytes) : Session := ⟨Cursor.start data, []⟩

/-- Restoring without a saved cursor leaves the cursor as it is. -/
def step (s : Session) : Step → Except DecodeError Answer × Session
  | .run operation =>
    let (result, cursor) := operation.reader s.cursor
    (result.map .read, { s with cursor })
  | .startAt pos context =>
    match Cursor.startAt s.cursor.data pos context with
    | .ok cursor => (.ok .done, { s with cursor })
    | .error e => (.error e, s)
  | .rewind => (.ok .done, { s with cursor := s.cursor.rewind })
  | .save => (.ok .done, { s with saved := s.cursor :: s.saved })
  | .restore =>
    match s.saved with
    | cursor :: saved => (.ok .done, ⟨cursor, saved⟩)
    | [] => (.ok .done, s)
  | .remaining => (.ok (.remaining s.cursor.remaining), s)
  | .info => (.ok (.info s.cursor.data.length s.cursor.isEmpty s.cursor.data), s)

def run (s : Session) : List Step → List (Except DecodeError Answer × Session)
  | [] => []
  | step :: steps =>
    let (answer, next) := s.step step
    (answer, next) :: next.run steps

end Session

end ClearSign
