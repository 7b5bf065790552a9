import ClearSign.Proofs.Readers

namespace ClearSign

/-- What a read into a lent buffer comes to, with the cursor where its unread bytes start. -/
def Filled.leaving (filled : Filled α) (c : Cursor) : Lent α :=
  ⟨filled.result, ⟨c.data, c.data.length - filled.unread.length⟩, filled.buffer⟩

theorem Cursor.Inside.leaving {c : Cursor} (inside : c.Inside) {f : Filled α} :
    (f.leaving c).cursor.Inside :=
  ⟨Nat.sub_le _ _, inside.counted⟩

theorem remaining_leaving {f : Filled α} {c : Cursor} (passed : f.unread <:+ c.remaining) :
    (f.leaving c).cursor.remaining = f.unread :=
  (List.suffix_iff_eq_drop.mp (passed.trans (List.drop_suffix c.pos c.data))).symm

namespace Lending

structure Follows (m : Lending α) (f : Filling α) : Prop where
  suffix : ∀ buffer bs, (f buffer bs).unread <:+ bs
  agree : ∀ buffer c, c.Inside → m buffer c = (f buffer c.remaining).leaving c

namespace Follows

theorem keeps {c : Cursor} (inside : c.Inside) (result : Except DecodeError α) (buffer : Bytes) :
    (⟨result, c, buffer⟩ : Lent α) = Filled.leaving ⟨result, c.remaining, buffer⟩ c := by
  rw [Filled.leaving, Cursor.run_remaining inside.reached]

theorem pure (a : α) : (Pure.pure a : Lending α).Follows (Pure.pure a) where
  suffix _ bs := List.suffix_refl bs
  agree buffer _ inside := keeps inside (.ok a) buffer

theorem fail (e : DecodeError) : (Lending.fail e : Lending α).Follows (Filling.fail e) where
  suffix _ bs := List.suffix_refl bs
  agree buffer _ inside := keeps inside (.error e) buffer

theorem copy (written : Bytes) : (Lending.copy written).Follows (Filling.copy written) where
  suffix _ bs := List.suffix_refl bs
  agree buffer _ inside := keeps inside (.ok ()) (buffer.overwrite written)

theorem capacity : Lending.capacity.Follows Filling.capacity where
  suffix _ bs := List.suffix_refl bs
  agree buffer _ inside := keeps inside (.ok buffer.length) buffer

theorem ofReader {m : Reader α} {r : Read α} (inner : m.Follows r) :
    (liftM m : Lending α).Follows (liftM r) where
  suffix _ bs := inner.known.suffix bs
  agree buffer c inside := by
    change Lending.ofReader m buffer c = (Filling.ofRead r buffer c.remaining).leaving c
    unfold Lending.ofReader
    rw [inner.agree c inside]
    rfl

theorem bind {m : Lending α} {f : Filling α} {next : α → Lending β} {next' : α → Filling β}
    (first : m.Follows f) (second : ∀ a, (next a).Follows (next' a)) :
    (m >>= next).Follows (f >>= next') where
  suffix buffer bs := by
    have passed := first.suffix buffer bs
    change (Filling.andThen f next' buffer bs).unread <:+ bs
    unfold Filling.andThen
    cases run : f buffer bs with
    | mk result rest after =>
      rw [run] at passed
      cases result with
      | ok a => exact ((second a).suffix after rest).trans passed
      | error e => exact passed
  agree buffer c inside := by
    have left := remaining_leaving (first.suffix buffer c.remaining)
    have stays := @Cursor.Inside.leaving _ c inside (f buffer c.remaining)
    change Lending.andThen m next buffer c =
      (Filling.andThen f next' buffer c.remaining).leaving c
    unfold Lending.andThen Filling.andThen
    rw [first.agree buffer c inside]
    cases run : f buffer c.remaining with
    | mk result rest after =>
      rw [run] at left stays
      unfold Filled.leaving at left stays ⊢
      cases result with
      | ok a =>
        dsimp only at left stays ⊢
        rw [(second a).agree after _ stays, left]
        rfl
      | error e => rfl

theorem ite_not {m n : Lending α} {f g : Filling α} {p q : Prop} [Decidable p] [Decidable q]
    (other : p ↔ ¬ q) (yes : n.Follows f) (no : m.Follows g) :
    (if p then m else n).Follows (if q then f else g) := by
  by_cases holds : q
  · rw [if_pos holds, if_neg (mt other.mp (not_not_intro holds))]
    exact yes
  · rw [if_neg holds, if_pos (other.mpr holds)]
    exact no

theorem atomically {m : Lending α} {f : Filling α} (inner : m.Follows f) :
    (Lending.atomically m).Follows (Filling.atomically f) where
  suffix buffer bs := by
    have passed := inner.suffix buffer bs
    unfold Filling.atomically
    cases run : f buffer bs with
    | mk result rest after =>
      rw [run] at passed
      cases result with
      | ok a => exact passed
      | error e => exact List.suffix_refl bs
  agree buffer c inside := by
    unfold Lending.atomically Filling.atomically
    rw [inner.agree buffer c inside]
    cases f buffer c.remaining with
    | mk result rest after =>
      cases result with
      | ok a => rfl
      | error e => exact keeps inside (.error e) after

theorem onto {m : Lending α} {f : Filling α} (inner : m.Follows f) (buffer : Bytes)
    (known : (f.onto buffer).Local) : (m.onto buffer).Follows (f.onto buffer) where
  known := known
  agree c inside := by
    unfold Lending.onto Filling.onto Cursor.run
    rw [inner.agree buffer c inside]
    dsimp only
    cases f buffer c.remaining with
    | mk result rest after => cases result <;> rfl

end Follows

theorem whole_follows (context : String) : (whole context).Follows (Filling.whole context) :=
  .bind .capacity fun n => .bind (.ofReader (Reader.bytes_follows n context)) fun bs => .copy bs

theorem prefixed_follows (field : String) : (prefixed field).Follows (Filling.prefixed field) := by
  refine .atomically (.bind (.ofReader (Reader.length_follows field)) fun n =>
    .bind .capacity fun room => .ite_not Nat.not_le.symm ?_ ?_)
  · exact .bind (.ofReader (Reader.bytes_follows n field)) fun bs =>
      .bind (.copy bs) fun _ => .pure n
  · exact .bind .capacity fun _ => .fail _

theorem checkedText_apply (field : String) (bs buffer unread : Bytes) :
    Filling.checkedText field bs buffer unread =
      match Utf8.fill buffer bs with
      | (.error fault, buffer) => ⟨.error (fault.ofField field), unread, buffer⟩
      | (.ok reduced, buffer) =>
        match Utf8.invalid? (buffer.take reduced.length) with
        | none => ⟨.ok (buffer.take reduced.length), unread, buffer⟩
        | some offset => ⟨.error (.invalidUtf8 field offset), unread, buffer⟩ := by
  change Filling.andThen (Filling.reduce field bs) _ buffer unread = _
  unfold Filling.andThen Filling.reduce
  cases Utf8.fill buffer bs with
  | mk result buffer =>
    cases result with
    | error fault => rfl
    | ok reduced =>
      change (match Utf8.invalid? (buffer.take reduced.length) with
        | none => _
        | some offset => _ : Filling Bytes) buffer unread = _
      dsimp only
      cases Utf8.invalid? (buffer.take reduced.length) <;> rfl

theorem text_apply (field : String) (buffer bs : Bytes) :
    Filling.text field buffer bs =
      match Read.prefixed field bs with
      | (.error e, _) => ⟨.error e, bs, buffer⟩
      | (.ok view, rest) =>
        match Utf8.fill buffer view with
        | (.error fault, buffer) => ⟨.error (fault.ofField field), bs, buffer⟩
        | (.ok reduced, buffer) =>
          match Utf8.invalid? (buffer.take reduced.length) with
          | none => ⟨.ok (buffer.take reduced.length), rest, buffer⟩
          | some offset => ⟨.error (.invalidUtf8 field offset), bs, buffer⟩ := by
  change Filling.atomically (Filling.andThen (Filling.ofRead (Read.prefixed field))
    (Filling.checkedText field)) buffer bs = _
  unfold Filling.atomically Filling.andThen Filling.ofRead
  cases Read.prefixed field bs with
  | mk result rest =>
    cases result with
    | error e => rfl
    | ok view =>
      dsimp only
      rw [checkedText_apply]
      cases Utf8.fill buffer view with
      | mk result buffer =>
        cases result with
        | error fault => rfl
        | ok reduced =>
          dsimp only
          cases Utf8.invalid? (buffer.take reduced.length) <;> rfl

theorem text_suffix (field : String) (buffer bs : Bytes) :
    (Filling.text field buffer bs).unread <:+ bs := by
  have passed := (Read.prefixed_local field).suffix bs
  rw [text_apply]
  cases read : Read.prefixed field bs with
  | mk result rest =>
    rw [read] at passed
    cases result with
    | error e => exact List.suffix_refl bs
    | ok view =>
      dsimp only
      cases Utf8.fill buffer view with
      | mk result buffer =>
        cases result with
        | error fault => exact List.suffix_refl bs
        | ok reduced =>
          dsimp only
          cases Utf8.invalid? (buffer.take reduced.length) with
          | none => exact passed
          | some offset => exact List.suffix_refl bs

/-- To put the position back in two places makes up for leaving everything unread. -/
theorem text_follows (field : String) : (text field).Follows (Filling.text field) where
  suffix := text_suffix field
  agree buffer c inside := by
    have atomic : (Read.prefixed field).Atomic := .atomically _
    rw [text_apply]
    unfold text
    rw [(Reader.prefixed_follows field).agree c inside]
    unfold Cursor.run
    cases read : Read.prefixed field c.remaining with
    | mk result rest =>
      cases result with
      | error e =>
        obtain rfl := atomic _ _ _ read
        rfl
      | ok view =>
        dsimp only
        cases Utf8.fill buffer view with
        | mk result buffer =>
          cases result with
          | error fault => exact Follows.keeps inside (.error (fault.ofField field)) buffer
          | ok reduced =>
            dsimp only
            cases Utf8.invalid? (buffer.take reduced.length) with
            | none => rfl
            | some offset => exact Follows.keeps inside (.error (.invalidUtf8 field offset)) buffer

end Lending

end ClearSign
