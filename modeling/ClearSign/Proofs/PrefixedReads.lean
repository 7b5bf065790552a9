import ClearSign.Proofs.Atomicity
import ClearSign.Proofs.Reduction

namespace ClearSign

namespace Utf8

theorem invalidFrom?_encode (cs : List Char) (offset : Nat) :
    invalidFrom? offset (cs.flatMap String.utf8EncodeChar) = none := by
  induction cs generalizing offset with
  | nil =>
    rw [invalidFrom?]
    rfl
  | cons c cs ih =>
    have found : scalar? ((c :: cs).flatMap String.utf8EncodeChar) =
        some (c, cs.flatMap String.utf8EncodeChar) :=
      scalar?_eq_some_iff.mpr List.flatMap_cons
    rw [invalidFrom?]
    split
    · rfl
    · split
      · next missing =>
        rw [found] at missing
        cases missing
      · next d rest other =>
        rw [found] at other
        cases other
        exact ih _

theorem map_shown_eq_encode (cs : List Char) :
    cs.map shown =
      (cs.map fun c => if c.toNat < 0x80 then c else '?').flatMap String.utf8EncodeChar := by
  induction cs with
  | nil => rfl
  | cons c cs ih =>
    rw [List.map_cons, List.map_cons, List.flatMap_cons, ← ih]
    by_cases ascii : c.toNat < 0x80
    · have narrow : ¬ 1 < c.utf8Size := mt (one_lt_utf8Size_iff c).mp (Nat.not_le_of_lt ascii)
      rw [if_pos ascii, encodeChar_of_narrow narrow]
      rfl
    · rw [if_neg ascii, shown_eq, if_neg ascii]
      rfl

theorem invalid?_of_fill {buffer bs out : Bytes} {reduced : Reduced}
    (filled : fill buffer bs = (.ok reduced, out)) : invalid? (out.take reduced.length) = none := by
  obtain ⟨a, answer, rfl, rfl⟩ := fill_eq_ok_iff.mp filled
  obtain ⟨cs, -, -, rfl⟩ := toAscii_eq_ok_iff.mp answer
  rw [Bytes.take_overwrite, map_shown_eq_encode]
  exact invalidFrom?_encode _ 0

end Utf8

/-- The bytes start with the length of a byte string. -/
def Bytes.Announces (bs : Bytes) (n : Nat) : Prop :=
  n ≤ Limits.sequenceLength ∧ Varint.encode (UInt32.ofNat n) <+: bs

namespace Read

variable {field : String} {buffer bs rest : Bytes}

theorem announces_iff {n : Nat} :
    bs.Announces n ↔ ∃ mid, length field bs = (.ok n, mid) := by
  constructor
  · rintro ⟨known, mid, rfl⟩
    exact ⟨mid, (length_accepts field).read known mid⟩
  · rintro ⟨mid, read⟩
    obtain ⟨known, rfl⟩ := (length_accepts field _ n mid).mp read
    exact ⟨known, List.prefix_append _ _⟩

theorem announces_unique {n m : Nat} (announced : bs.Announces n) (announced' : bs.Announces m) :
    n = m := by
  obtain ⟨mid, read⟩ := (@announces_iff "" bs n).mp announced
  obtain ⟨mid', read'⟩ := (@announces_iff "" bs m).mp announced'
  rw [read] at read'
  cases read'
  rfl

theorem announces_of_prefixed {view : Bytes} (read : prefixed field bs = (.ok view, rest)) :
    bs.Announces view.length := by
  obtain ⟨known, rfl⟩ := (prefixed_accepts field bs view rest).mp read
  refine ⟨known, ?_⟩
  rw [Bytes.withLength, List.append_assoc]
  exact List.prefix_append _ _

theorem prefixedInto_of_full {n : Nat} (announced : bs.Announces n) (full : buffer.length < n) :
    prefixedInto buffer field bs = (.error (.capacityExceeded field buffer.length), bs) := by
  obtain ⟨mid, read⟩ := announces_iff.mp announced
  rw [prefixedInto, Filling.onto_prefixed]
  refine atomically_of_error (?_ : _ = (Except.error _, mid))
  rw [bind_apply, read]
  simp only [if_neg (Nat.not_le_of_lt full), fail_apply]

theorem prefixedInto_of_room (room : ∀ n, bs.Announces n → n ≤ buffer.length) :
    prefixedInto buffer field bs =
      ((fun view => (view.length, buffer.overwrite view)) <$> prefixed field) bs := by
  rw [prefixedInto, Filling.onto_prefixed, prefixed, map_atomically]
  apply atomically_congr
  change _ = ((length field >>= fun n => bytes n field) >>= fun view =>
    pure (view.length, buffer.overwrite view)) bs
  simp only [bind_apply]
  cases announced : length field bs with
  | mk result mid =>
    cases result with
    | error e => rfl
    | ok n =>
      have fits : n ≤ buffer.length := room n (announces_iff.mpr ⟨mid, announced⟩)
      simp only [if_pos fits, bind_apply]
      cases taken : bytes n field mid with
      | mk result rest =>
        cases result with
        | error e => rfl
        | ok view =>
          obtain ⟨rfl, -⟩ := (bytes_accepts n field mid view rest).mp taken
          rfl

theorem full_or_room (capacity : Nat) (bs : Bytes) :
    (∃ n, bs.Announces n ∧ capacity < n) ∨ ∀ n, bs.Announces n → n ≤ capacity := by
  by_cases full : ∃ n, bs.Announces n ∧ capacity < n
  · exact .inl full
  · exact .inr fun n announced => Nat.le_of_not_lt fun larger => full ⟨n, announced, larger⟩

theorem prefixedInto_eq_ok_iff {n : Nat} {out : Bytes} :
    prefixedInto buffer field bs = (.ok (n, out), rest) ↔
      ∃ view, prefixed field bs = (.ok view, rest) ∧ view.length ≤ buffer.length ∧
        n = view.length ∧ out = view ++ buffer.drop view.length := by
  obtain ⟨m, announced, full⟩ | room := full_or_room buffer.length bs
  · rw [prefixedInto_of_full announced full]
    constructor
    · intro read
      cases read
    · rintro ⟨view, read, room, -⟩
      have same : m = view.length := announces_unique announced (announces_of_prefixed read)
      omega
  · rw [prefixedInto_of_room room]
    constructor
    · intro read
      obtain ⟨view, mid, read, done⟩ := bind_eq_ok_iff.mp read
      cases done
      exact ⟨view, read, room _ (announces_of_prefixed read), rfl, rfl⟩
    · rintro ⟨view, read, -, rfl, rfl⟩
      exact bind_eq_ok_iff.mpr ⟨view, rest, read, rfl⟩

theorem prefixedInto_eq_error_iff {e : DecodeError} :
    prefixedInto buffer field bs = (.error e, bs) ↔
      (∃ n, bs.Announces n ∧ buffer.length < n ∧ e = .capacityExceeded field buffer.length) ∨
        ((∀ n, bs.Announces n → n ≤ buffer.length) ∧ prefixed field bs = (.error e, bs)) := by
  obtain ⟨n, announced, full⟩ | room := full_or_room buffer.length bs
  · rw [prefixedInto_of_full announced full]
    constructor
    · intro failed
      cases failed
      exact .inl ⟨n, announced, full, rfl⟩
    · rintro (⟨-, -, -, rfl⟩ | ⟨room, -⟩)
      · rfl
      · exact absurd (room n announced) (Nat.not_le_of_lt full)
  · rw [prefixedInto_of_room room, map_eq_error_iff]
    constructor
    · exact fun failed => .inr ⟨room, failed⟩
    · rintro (⟨n, announced, larger, -⟩ | ⟨-, failed⟩)
      · exact absurd (room n announced) (Nat.not_le_of_lt larger)
      · exact failed

theorem onto_checkedText (view : Bytes) :
    (Filling.checkedText field view).onto buffer =
      match Utf8.fill buffer view with
      | (.ok reduced, out) => pure (out.take reduced.length, out)
      | (.error fault, _) => fail (fault.ofField field) := by
  rw [Filling.checkedText, Filling.onto_reduce_bind]
  cases filled : Utf8.fill buffer view with
  | mk result out =>
    cases result with
    | error fault => rfl
    | ok reduced => simp [Utf8.invalid?_of_fill filled]

theorem onto_text :
    (Filling.text field).onto buffer = (atomically do
      match Utf8.fill buffer (← prefixed field) with
      | (.ok reduced, out) => return (out.take reduced.length, out)
      | (.error fault, _) => fail (fault.ofField field)) := by
  rw [Filling.text, Filling.onto_atomically, Filling.onto_read_bind]
  simp only [onto_checkedText]

theorem onto_text_eq_ok_iff {text out : Bytes} :
    (Filling.text field).onto buffer bs = (.ok (text, out), rest) ↔
      ∃ view reduced, prefixed field bs = (.ok view, rest) ∧
        Utf8.fill buffer view = (.ok reduced, out) ∧ text = out.take reduced.length := by
  rw [onto_text, atomically_eq_ok_iff, bind_eq_ok_iff]
  constructor
  · rintro ⟨view, mid, read, done⟩
    cases filled : Utf8.fill buffer view with
    | mk result after =>
      rw [filled] at done
      cases result with
      | error fault => cases done
      | ok reduced =>
        cases done
        exact ⟨view, reduced, read, filled, rfl⟩
  · rintro ⟨view, reduced, read, filled, rfl⟩
    refine ⟨view, rest, read, ?_⟩
    rw [filled]
    rfl

theorem onto_text_eq_error_iff {e : DecodeError} :
    (Filling.text field).onto buffer bs = (.error e, rest) ↔ rest = bs ∧
      (prefixed field bs = (.error e, bs) ∨ ∃ view mid fault, prefixed field bs = (.ok view, mid) ∧
        (Utf8.fill buffer view).1 = .error fault ∧ e = fault.ofField field) := by
  rw [onto_text, atomically_eq_error_iff]
  refine and_congr_right fun _ => ⟨?_, ?_⟩
  · rintro ⟨left, failed⟩
    obtain failed | ⟨view, mid, read, failed⟩ := bind_eq_error_iff.mp failed
    · obtain ⟨rfl, -⟩ := atomically_eq_error_iff.mp failed
      exact .inl failed
    · refine .inr ⟨view, mid, ?_⟩
      cases filled : Utf8.fill buffer view with
      | mk result after =>
        rw [filled] at failed
        cases result with
        | ok reduced => cases failed
        | error fault =>
          cases failed
          exact ⟨fault, read, rfl, rfl⟩
  · rintro (failed | ⟨view, mid, fault, read, filled, rfl⟩)
    · exact ⟨bs, bind_eq_error_iff.mpr (.inl failed)⟩
    · refine ⟨mid, bind_eq_error_iff.mpr (.inr ⟨view, mid, read, ?_⟩)⟩
      cases result : Utf8.fill buffer view with
      | mk answer after =>
        rw [result] at filled
        cases filled
        rfl

theorem onto_text_eq_text :
    (Filling.text field).onto buffer =
      (do let text ← text buffer.length field
          return (text, buffer.overwrite text)) := by
  change _ = (fun text => (text, buffer.overwrite text)) <$> text buffer.length field
  rw [onto_text, text, map_atomically]
  refine congrArg atomically (funext fun bs => ?_)
  change _ = ((prefixed field >>= _) >>= fun text => pure (text, buffer.overwrite text)) bs
  simp only [bind_apply]
  cases prefixed field bs with
  | mk result mid =>
    cases result with
    | error e => rfl
    | ok view =>
      dsimp only
      cases reduced : Utf8.toAscii buffer.length view with
      | ok a =>
        rw [(Utf8.fill_of_ok reduced).2]
        simp only [Bytes.take_overwrite]
        rfl
      | error fault =>
        have failed := Utf8.fill_of_error reduced
        cases filled : Utf8.fill buffer view with
        | mk result out =>
          rw [filled] at failed
          cases failed
          cases fault <;> rfl

theorem onto_text_atomic (buffer : Bytes) (field : String) :
    ((Filling.text field).onto buffer).Atomic := by
  rw [onto_text]
  exact .atomically _

end Read

/-- Copied into a buffer, a byte string is what it is when read as it is, if there is room; behind
it the buffer stays as it was. If there is none, that is reported as soon as the length is known,
and all other failures are the same. Reduced to text it takes the same bytes too. That they cannot
be read is reported first, then what the reduction reports; and the reduced text is found to be
text. -/
theorem prefixed_reads_agree (c : Cursor) (inside : c.pos ≤ c.data.length) (field : String)
    (buffer : Bytes) :
    (∀ n out stop, c.run (Read.prefixedInto buffer field) = (.ok (n, out), stop) ↔
      ∃ view, c.run (Read.prefixed field) = (.ok view, stop) ∧ view.length ≤ buffer.length ∧
        n = view.length ∧ out = view ++ buffer.drop view.length) ∧
    (∀ e stop, c.run (Read.prefixedInto buffer field) = (.error e, stop) ↔ stop = c ∧
      ((∃ n, c.remaining.Announces n ∧ buffer.length < n ∧
          e = .capacityExceeded field buffer.length) ∨
        ((∀ n, c.remaining.Announces n → n ≤ buffer.length) ∧
          c.run (Read.prefixed field) = (.error e, c)))) ∧
    (∀ text out stop, c.run ((Filling.text field).onto buffer) = (.ok (text, out), stop) ↔
      ∃ view reduced, c.run (Read.prefixed field) = (.ok view, stop) ∧
        Utf8.fill buffer view = (.ok reduced, out) ∧ text = out.take reduced.length) ∧
    (∀ e stop, c.run ((Filling.text field).onto buffer) = (.error e, stop) ↔ stop = c ∧
      (c.run (Read.prefixed field) = (.error e, c) ∨
        ∃ view next, c.run (Read.prefixed field) = (.ok view, next) ∧
          ((∃ offset, (Utf8.fill buffer view).1 = .error (.malformed offset) ∧
              e = .invalidUtf8 field offset) ∨
            ((Utf8.fill buffer view).1 = .error (.capacityExceeded buffer.length) ∧
              e = .capacityExceeded field buffer.length)))) ∧
    (∀ view reduced out, Utf8.fill buffer view = (.ok reduced, out) →
      Utf8.invalid? (out.take reduced.length) = none) ∧
    (Filling.text field).onto buffer =
      (do let text ← Read.text buffer.length field
          return (text, buffer.overwrite text)) := by
  have prefixed_atomic : (Read.prefixed field).Atomic := .atomically _
  refine ⟨?_, ?_, ?_, ?_, fun _ _ _ => Utf8.invalid?_of_fill, Read.onto_text_eq_text⟩
  · intro n out stop
    simp only [Cursor.run_eq_ok_iff, Read.prefixedInto_eq_ok_iff]
    constructor
    · rintro ⟨rest, ⟨view, read, copied⟩, moved⟩
      exact ⟨view, ⟨rest, read, moved⟩, copied⟩
    · rintro ⟨view, ⟨rest, read, moved⟩, copied⟩
      exact ⟨rest, ⟨view, read, copied⟩, moved⟩
  · intro e stop
    rw [Cursor.run_eq_error_iff inside (Read.prefixedInto_atomic buffer field),
      Cursor.run_eq_error_iff inside prefixed_atomic, Read.prefixedInto_eq_error_iff, eq_self,
      true_and]
  · intro text out stop
    simp only [Cursor.run_eq_ok_iff, Read.onto_text_eq_ok_iff]
    constructor
    · rintro ⟨rest, ⟨view, reduced, read, filled⟩, moved⟩
      exact ⟨view, reduced, ⟨rest, read, moved⟩, filled⟩
    · rintro ⟨view, reduced, ⟨rest, read, moved⟩, filled⟩
      exact ⟨rest, ⟨view, reduced, read, filled⟩, moved⟩
  · intro e stop
    rw [Cursor.run_eq_error_iff inside (Read.onto_text_atomic buffer field),
      Cursor.run_eq_error_iff inside prefixed_atomic, Read.onto_text_eq_error_iff, eq_self,
      true_and, eq_self, true_and]
    refine and_congr_right fun _ => or_congr_right ⟨?_, ?_⟩
    · rintro ⟨view, mid, fault, read, failed, rfl⟩
      refine ⟨view, _, Cursor.run_eq_ok_iff.mpr ⟨mid, read, rfl⟩, ?_⟩
      cases fault with
      | malformed offset => exact .inl ⟨offset, failed, rfl⟩
      | capacityExceeded capacity =>
        obtain rfl := Utf8.capacity_of_toAscii (Utf8.fill_eq_error_iff.mp failed)
        exact .inr ⟨failed, rfl⟩
    · rintro ⟨view, next, read, reported⟩
      obtain ⟨mid, read, -⟩ := Cursor.run_eq_ok_iff.mp read
      obtain ⟨offset, failed, rfl⟩ | ⟨failed, rfl⟩ := reported
      · exact ⟨view, mid, _, read, failed, rfl⟩
      · exact ⟨view, mid, _, read, failed, rfl⟩

/-- Two bytes in a buffer of three; a byte string that is cut short and too long for a buffer of
two, which is reported first when it is copied, but not when it is reduced; and a fault in a text.
-/
theorem prefixed_reads_agree_short :
    (Cursor.start [2, 0x61, 0x62, 0x63]).run (Read.prefixedInto [0xEE, 0xEE, 0xEE] "name") =
        (.ok (2, [0x61, 0x62, 0xEE]), ⟨[2, 0x61, 0x62, 0x63], 3⟩) ∧
      (Cursor.start [3, 0x61]).run (Read.prefixedInto [0xEE, 0xEE] "name") =
        (.error (.capacityExceeded "name" 2), Cursor.start [3, 0x61]) ∧
      (Cursor.start [3, 0x61]).run ((Filling.text "name").onto [0xEE, 0xEE]) =
        (.error (.unexpectedEnd "name"), Cursor.start [3, 0x61]) ∧
      (Cursor.start [2, 0x61, 0xFF]).run ((Filling.text "name").onto [0xEE, 0xEE]) =
        (.error (.invalidUtf8 "name" 1), Cursor.start [2, 0x61, 0xFF]) := by
  have copied := prefixed_reads_agree (Cursor.start [2, 0x61, 0x62, 0x63]) (by decide) "name"
    [0xEE, 0xEE, 0xEE]
  have short := prefixed_reads_agree (Cursor.start [3, 0x61]) (by decide) "name" [0xEE, 0xEE]
  have faulty := prefixed_reads_agree (Cursor.start [2, 0x61, 0xFF]) (by decide) "name" [0xEE, 0xEE]
  have announced : (Cursor.start [3, 0x61]).remaining.Announces 3 := ⟨by decide, by decide⟩
  refine ⟨(copied.1 _ _ _).mpr ⟨[0x61, 0x62], ?_, by decide, rfl, rfl⟩,
    (short.2.1 _ _).mpr ⟨rfl, .inl ⟨3, announced, by decide, rfl⟩⟩,
    (short.2.2.2.1 _ _).mpr ⟨rfl, .inl ?_⟩,
    (faulty.2.2.2.1 _ _).mpr ⟨rfl, .inr ⟨[0x61, 0xFF], _, rfl, .inl ⟨1, ?_, rfl⟩⟩⟩⟩
  · decide +kernel
  · decide +kernel
  · decide +kernel

end ClearSign
