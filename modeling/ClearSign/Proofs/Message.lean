import ClearSign.Proofs.CharLen

namespace ClearSign.Message

/-- Neither one of the two refused noncharacters nor a control character other than tab, line feed,
carriage return and NUL. -/
def Presentable (c : Char) : Prop :=
  c.toNat ≠ 0xFFFE ∧ c.toNat ≠ 0xFFFF ∧
    (c.toNat < 0x20 ∨ c.toNat = 0x7F → c ∈ ['\t', '\n', '\r', '\x00'])

/-- The encoding of characters that are all presentable. -/
def PlainText (message : Bytes) : Prop :=
  ∃ cs : List Char, (∀ c ∈ cs, Presentable c) ∧ message = cs.flatMap String.utf8EncodeChar

/-- No text behind a NUL. -/
def Uninterrupted (message : Bytes) : Prop :=
  ∃ text count, 0 ∉ text ∧ message = text ++ List.replicate count 0

theorem mem_controls_iff (c : Char) :
    c ∈ ['\t', '\n', '\r', '\x00'] ↔ c.toNat = 9 ∨ c.toNat = 10 ∨ c.toNat = 13 ∨ c.toNat = 0 := by
  simp only [List.mem_cons, List.not_mem_nil, or_false, ← Char.toNat_inj]
  rfl

theorem isPrintable_iff (b : UInt8) :
    isPrintable b = true ↔
      (b.toNat < 0x20 ∨ b.toNat = 0x7F →
        b.toNat = 9 ∨ b.toNat = 10 ∨ b.toNat = 13 ∨ b.toNat = 0) := by
  simp only [isPrintable, isControl, Bool.or_eq_true, Bool.not_eq_true', Bool.or_eq_false_iff,
    decide_eq_false_iff_not, beq_eq_false_iff_ne, beq_iff_eq]
  omega

theorem isPrintable_of_mem_iff (c : Char) :
    (∀ b ∈ String.utf8EncodeChar c, isPrintable b = true) ↔
      (c.toNat < 0x20 ∨ c.toNat = 0x7F → c ∈ ['\t', '\n', '\r', '\x00']) := by
  rw [mem_controls_iff]
  by_cases ascii : c.toNat < 0x80
  · have value : (UInt8.ofNat c.toNat).toNat = c.toNat := by
      rw [UInt8.toNat_ofNat']
      omega
    rw [Utf8.encodeChar_eq, if_pos ascii, List.forall_mem_singleton, isPrintable_iff, value]
  · constructor
    · intro _ control
      omega
    · intro _ b member
      have high := Utf8.high_of_mem_encode (by omega) member
      rw [isPrintable_iff]
      omega

theorem presentable_iff (c : Char) :
    Presentable c ↔ Utf8.isNoncharacter c = false ∧
      ∀ b ∈ String.utf8EncodeChar c, isPrintable b = true := by
  rw [isPrintable_of_mem_iff, Presentable, Utf8.isNoncharacter, Bool.or_eq_false_iff,
    beq_eq_false_iff_ne, beq_eq_false_iff_ne, and_assoc]

theorem isPlain_iff {message : Bytes} : isPlain message = true ↔ PlainText message := by
  simp only [isPlain, Bool.and_eq_true, Utf8.isOk_scan_iff, List.all_eq_true]
  constructor
  · intro plain
    obtain ⟨⟨cs, shown, rfl⟩, printable⟩ := plain
    refine ⟨cs, ?_, rfl⟩
    intro c member
    refine (presentable_iff c).mpr ⟨shown c member, ?_⟩
    intro b inside
    exact printable b (List.mem_flatMap.mpr ⟨c, member, inside⟩)
  · intro text
    obtain ⟨cs, presentable, rfl⟩ := text
    refine ⟨⟨cs, ?_, rfl⟩, ?_⟩
    · intro c member
      exact ((presentable_iff c).mp (presentable c member)).1
    · intro b inside
      obtain ⟨c, member, inside⟩ := List.mem_flatMap.mp inside
      exact ((presentable_iff c).mp (presentable c member)).2 b inside

theorem isInterrupted_eq_false_iff {message : Bytes} :
    isInterrupted message = false ↔ Uninterrupted message := by
  unfold isInterrupted
  constructor
  · intro quiet
    refine ⟨message.takeWhile (· != 0), (message.dropWhile (· != 0)).length, ?_, ?_⟩
    · intro member
      have := List.mem_takeWhile_imp member
      simp at this
    · have zeros : message.dropWhile (· != 0) =
          List.replicate (message.dropWhile (· != 0)).length 0 := by
        rw [List.eq_replicate_iff]
        refine ⟨rfl, ?_⟩
        intro b member
        simpa using List.any_eq_false.mp quiet b member
      rw [← zeros, List.takeWhile_append_dropWhile]
  · intro text
    obtain ⟨text, count, clean, rfl⟩ := text
    have before : ∀ b ∈ text, (b != 0) = true := by
      intro b member
      simp only [bne_iff_ne]
      rintro rfl
      exact clean member
    rw [List.dropWhile_append_of_pos before]
    cases count with
    | zero => rfl
    | succ count => simp [List.replicate_succ]

end ClearSign.Message
