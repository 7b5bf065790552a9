import ClearSign.Proofs.Locality

namespace ClearSign

namespace Read

/-- A read that leaves everything unread if it fails. -/
def Atomic (r : Read α) : Prop :=
  ∀ bs e rest, r bs = (.error e, rest) → rest = bs

namespace Atomic

theorem map {r : Read α} (inner : r.Atomic) (f : α → β) : (f <$> r).Atomic :=
  fun bs e rest failed => inner bs e rest (map_eq_error_iff.mp failed)

theorem atomically (r : Read α) : (Read.atomically r).Atomic :=
  fun _ _ _ failed => (atomically_eq_error_iff.mp failed).1

theorem fail (e : DecodeError) : (Read.fail e : Read α).Atomic := by
  intro bs e' rest failed
  cases failed
  rfl

end Atomic

theorem byte_atomic (context : String) : (byte context).Atomic := by
  intro bs e rest failed
  cases bs <;> cases failed
  rfl

theorem block_atomic (n : Nat) (context : String) : (block n context).Atomic := by
  intro bs e rest failed
  unfold block at failed
  split at failed <;> cases failed
  rfl

theorem prefixedInto_atomic (buffer : Bytes) (field : String) :
    (prefixedInto buffer field).Atomic := by
  rw [prefixedInto, Filling.onto_prefixed]
  exact .atomically _

end Read

theorem Shape.read_atomic (context : String) (shape : Shape) : (shape.read context).Atomic :=
  shape.read_of_parts (fun f inner => inner.map f) (Read.byte_atomic context)
    (Read.block_atomic · context) (.atomically _) (.atomically _) (.atomically _)

theorem TypeTag.Value.read_atomic (kind : Kind) : (Value.read kind).Atomic := by
  unfold Value.read
  cases kind.width? with
  | none => exact .fail _
  | some width => exact .atomically _

namespace Filling

/-- A read that leaves a lent buffer as it was if it fails. -/
def Clean (f : Filling α) : Prop :=
  ∀ buffer bs e, (f buffer bs).result = .error e → (f buffer bs).buffer = buffer

namespace Clean

theorem fail (e : DecodeError) : (Filling.fail e : Filling α).Clean :=
  fun _ _ _ _ => rfl

theorem copy (written : Bytes) : (Filling.copy written).Clean := by
  intro buffer bs e failed
  cases failed

/-- Nothing is copied by a read that has no use for the buffer. -/
theorem read_bind (r : Read α) {next : α → Filling β} (second : ∀ a, (next a).Clean) :
    ((liftM r : Filling α) >>= next).Clean := by
  intro buffer bs e failed
  change (andThen (ofRead r) next buffer bs).buffer = buffer
  change (andThen (ofRead r) next buffer bs).result = _ at failed
  unfold andThen ofRead at failed ⊢
  cases read : r bs with
  | mk result rest =>
    rw [read] at failed
    cases result with
    | ok a => exact second a buffer rest e failed
    | error e' => rfl

theorem atomically {f : Filling α} (inner : f.Clean) : (Filling.atomically f).Clean := by
  intro buffer bs e failed
  have left := inner buffer bs
  unfold Filling.atomically at failed ⊢
  cases run : f buffer bs with
  | mk result rest after =>
    rw [run] at failed left
    cases result with
    | ok a => cases failed
    | error e' => exact left e' rfl

end Clean

end Filling

namespace Operation

/-- Whether the operation reads several values, each of which stays read if a later one fails. -/
def isCompound : Operation → Bool
  | struct _ => true
  | call _ => true
  | _ => false

theorem read_atomic {operation : Operation} (single : operation.isCompound = false) :
    operation.read.Atomic := by
  cases operation with
  | field shape context => exact (shape.read_atomic context).map _
  | length context => exact (Read.Atomic.atomically _).map _
  | fill buffer context =>
    have known : ((Filling.whole context).onto buffer).Atomic := by
      rw [Filling.onto_whole]
      exact ((Read.block_atomic buffer.length context).map _).map _
    exact known.map _
  | prefixedInto buffer context => exact (Read.prefixedInto_atomic buffer context).map _
  | text capacity context => exact (Read.Atomic.atomically _).map _
  | kind => exact (Read.Atomic.atomically _).map _
  | value kind => exact (TypeTag.Value.read_atomic kind).map _
  | tag => exact (Read.Atomic.atomically _).map _
  | struct callee => cases single
  | call exact => cases single

end Operation

namespace Cursor

theorem length_remaining (c : Cursor) : c.remaining.length = c.data.length - c.pos :=
  List.length_drop

theorem run_of_error {c : Cursor} (inside : c.pos ≤ c.data.length) {r : Read α} (atomic : r.Atomic)
    {e : DecodeError} (failed : (c.run r).1 = .error e) : (c.run r).2 = c := by
  unfold Cursor.run at failed ⊢
  cases read : r c.remaining with
  | mk result rest =>
    rw [read] at failed
    cases failed
    have unread := atomic _ _ _ read
    simp only [unread, length_remaining, Nat.sub_sub_self inside]

theorem run_eq_error_iff {c stop : Cursor} (inside : c.pos ≤ c.data.length) {r : Read α}
    (atomic : r.Atomic) {e : DecodeError} :
    c.run r = (.error e, stop) ↔ stop = c ∧ r c.remaining = (.error e, c.remaining) := by
  constructor
  · intro failed
    have restored := run_of_error inside atomic (congrArg Prod.fst failed)
    rw [failed] at restored
    have answer : (r c.remaining).1 = .error e := congrArg Prod.fst failed
    exact ⟨restored, Prod.ext answer (atomic _ _ _ (Prod.ext answer rfl))⟩
  · rintro ⟨rfl, failed⟩
    have answer : (stop.run r).1 = .error e := congrArg Prod.fst failed
    exact Prod.ext answer (run_of_error inside atomic answer)

end Cursor

end ClearSign
