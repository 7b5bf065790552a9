import ClearSign.Proofs.Canonical.Wire
import ClearSign.Wire.Cursor

namespace ClearSign

@[simp] theorem Except.ok_bind (a : α) (next : α → Except ε β) : (.ok a >>= next) = next a := rfl

@[simp] theorem Except.error_bind (e : ε) (next : α → Except ε β) :
    (.error e >>= next) = .error e := rfl

theorem Except.bind_eq_ok_iff {result : Except ε α} {next : α → Except ε β} {b : β} :
    result >>= next = .ok b ↔ ∃ a, result = .ok a ∧ next a = .ok b := by
  cases result <;> simp

theorem Except.map_eq_ok_iff {result : Except ε α} {f : α → β} {b : β} :
    result.map f = .ok b ↔ ∃ a, result = .ok a ∧ f a = b := by
  cases result <;> simp [Except.map]

theorem Except.bind_eq_error_iff {result : Except ε α} {next : α → Except ε β} {e : ε} :
    result >>= next = .error e ↔
      result = .error e ∨ ∃ a, result = .ok a ∧ next a = .error e := by
  cases result <;> simp

theorem Except.map_eq_error_iff {result : Except ε α} {f : α → β} {e : ε} :
    result.map f = .error e ↔ result = .error e := by
  cases result <;> simp [Except.map]

namespace Cursor

theorem read_eq_error_iff {r : Read α} {c : Cursor} {e : DecodeError} :
    c.read r = .error e ↔ ∃ rest, r c.remaining = (.error e, rest) := by
  unfold Cursor.read Cursor.run
  cases r c.remaining with
  | mk result rest => cases result <;> simp

theorem read_eq_ok_iff_remaining {r : Read α} {c stop : Cursor} {a : α} :
    c.read r = .ok (a, stop) ↔
      ∃ rest, r c.remaining = (.ok a, rest) ∧ stop = ⟨c.data, c.data.length - rest.length⟩ := by
  unfold Cursor.read Cursor.run
  cases r c.remaining with
  | mk result rest => cases result <;> simp [eq_comm]

theorem run_eq_ok_iff_read {r : Read α} {c stop : Cursor} {a : α} :
    c.run r = (.ok a, stop) ↔ c.read r = .ok (a, stop) := by
  unfold Cursor.read
  cases c.run r with
  | mk result next => cases result <;> simp

theorem run_eq_ok_iff {r : Read α} {c stop : Cursor} {a : α} :
    c.run r = (.ok a, stop) ↔
      ∃ rest, r c.remaining = (.ok a, rest) ∧ stop = ⟨c.data, c.data.length - rest.length⟩ :=
  run_eq_ok_iff_read.trans read_eq_ok_iff_remaining

def between (before after : Bytes) : Cursor := ⟨before ++ after, before.length⟩

theorem exists_between {c : Cursor} (inside : c.pos ≤ c.data.length) :
    ∃ before after, c = between before after := by
  obtain ⟨data, pos⟩ := c
  obtain ⟨before, after, rfl, rfl⟩ := Bytes.exists_split inside
  exact ⟨before, after, rfl⟩

@[simp] theorem data_between (before after : Bytes) :
    (between before after).data = before ++ after := rfl

@[simp] theorem pos_between (before after : Bytes) : (between before after).pos = before.length :=
  rfl

theorem remaining_between (before after : Bytes) : (between before after).remaining = after := by
  simp [remaining, between]

theorem startAt_append (before after : Bytes) (context : String) :
    startAt (before ++ after) before.length context = .ok (between before after) := by
  simp [startAt, between]

theorem run_between (before after : Bytes) (r : Read α) :
    (between before after).run r =
      ((r after).1, ⟨before ++ after, (before ++ after).length - (r after).2.length⟩) := by
  simp [run, remaining, between]

theorem read_append {r : Read α} {bs rest : Bytes} {a : α} (read : r (bs ++ rest) = (.ok a, rest))
    (before : Bytes) :
    (between before (bs ++ rest)).read r = .ok (a, between (before ++ bs) rest) := by
  have moved : (⟨before ++ (bs ++ rest), (before ++ (bs ++ rest)).length - rest.length⟩ : Cursor) =
      between (before ++ bs) rest := by
    simp [between]
    omega
  simp only [Cursor.read, run_between, read, moved]

theorem read_of_answers {r : Read α} {bs : Bytes} {outcome : Except DecodeError α}
    (answers : r.Answers bs outcome) (before rest : Bytes) :
    (between before (bs ++ rest)).read r =
      outcome.map fun a => (a, between (before ++ bs) rest) := by
  cases outcome with
  | ok a => exact read_append (answers rest) before
  | error e =>
    have answer := answers rest
    cases read : r (bs ++ rest) with
    | mk result left =>
      rw [read] at answer
      cases answer
      simp [Cursor.read, run_between, read, Except.map]

theorem read_between {r : Read α} {valid : α → Prop} {encode : α → Bytes}
    (accepts : r.Accepts valid encode) {a : α} (known : valid a) (before rest : Bytes) :
    (between before (encode a ++ rest)).read r = .ok (a, between (before ++ encode a) rest) :=
  read_append (accepts.read known rest) before

theorem read_eq_ok_iff {r : Read α} {valid : α → Prop} {encode : α → Bytes}
    (accepts : r.Accepts valid encode) {before after : Bytes} {a : α} {c : Cursor} :
    (between before after).read r = .ok (a, c) ↔
      valid a ∧ ∃ rest, after = encode a ++ rest ∧ c = between (before ++ encode a) rest := by
  constructor
  · intro read
    cases answer : r after with
    | mk result rest =>
      cases result with
      | error e => simp [Cursor.read, run_between, answer] at read
      | ok b =>
        obtain ⟨known, rfl⟩ := (accepts after b rest).mp answer
        have same := read.symm.trans (read_between accepts known before rest)
        cases same
        exact ⟨known, rest, rfl, rfl⟩
  · intro spelled
    obtain ⟨known, rest, rfl, rfl⟩ := spelled
    exact read_between accepts known before rest

theorem run_eq_ok_iff_spelled {r : Read α} {valid : α → Prop} {encode : α → Bytes}
    (accepts : r.Accepts valid encode) {c stop : Cursor} (inside : c.pos ≤ c.data.length) {a : α} :
    c.run r = (.ok a, stop) ↔ valid a ∧ encode a <+: c.remaining ∧
      stop = ⟨c.data, c.pos + (encode a).length⟩ := by
  obtain ⟨before, after, rfl⟩ := exists_between inside
  rw [run_eq_ok_iff_read, read_eq_ok_iff accepts, remaining_between]
  refine and_congr_right fun _ => ⟨?_, ?_⟩
  · rintro ⟨rest, rfl, rfl⟩
    exact ⟨List.prefix_append _ _, by simp [between]⟩
  · rintro ⟨⟨rest, rfl⟩, rfl⟩
    exact ⟨rest, rfl, by simp [between]⟩

/-- Whether a read fails or what it reads does not depend on the bytes before the cursor. -/
theorem read_cases {r : Read α} {valid : α → Prop} {encode : α → Bytes}
    (accepts : r.Accepts valid encode) (after : Bytes) :
    (∃ e, ∀ before, (between before after).read r = .error e) ∨
      ∃ a rest, after = encode a ++ rest ∧
        ∀ before, (between before after).read r = .ok (a, between (before ++ encode a) rest) := by
  cases answer : r after with
  | mk result rest =>
    cases result with
    | error e =>
      refine .inl ⟨e, ?_⟩
      intro before
      simp only [Cursor.read, run_between, answer]
    | ok a =>
      obtain ⟨known, rfl⟩ := (accepts after a rest).mp answer
      refine .inr ⟨a, rest, rfl, ?_⟩
      intro before
      exact read_between accepts known before rest

theorem read_bind {r : Read α} {valid : α → Prop} {encode : α → Bytes}
    (accepts : r.Accepts valid encode) (next : α → Read β) (before after : Bytes) :
    (between before after).read (r >>= next) =
      (between before after).read r >>= fun (a, c) => c.read (next a) := by
  cases answer : r after with
  | mk result rest =>
    cases result with
    | error e => simp [Cursor.read, run_between, Read.bind_apply, answer]
    | ok a =>
      obtain ⟨known, rfl⟩ := (accepts after a rest).mp answer
      have moved := read_between accepts known before rest
      rw [moved, Except.ok_bind]
      simp only [Cursor.read, run_between, Read.bind_apply, answer]
      cases next a rest with
      | mk result left =>
        cases result <;> simp [List.append_assoc]

theorem read_pure (a : α) (before after : Bytes) :
    (between before after).read (pure a) = .ok (a, between before after) := by
  have stays : (before ++ after).length - after.length = before.length := by simp
  rw [Cursor.read, run_between, Read.pure_apply, stays]
  rfl

end Cursor

end ClearSign
