import ClearSign.Proofs.Utf8

namespace ClearSign

theorem forall_byte {p : UInt8 → Prop} (all : ∀ n < 256, p (UInt8.ofNat n)) (b : UInt8) : p b := by
  have holds := all b.toNat b.toNat_lt
  rwa [UInt8.ofNat_toNat] at holds

namespace Utf8

/-- A mask of the high bits keeps what is left when the low ones are cut off. -/
theorem toNat_and_high {k : Nat} (few : k < 8) :
    ∀ b : UInt8, (b &&& UInt8.ofNat (256 - 2 ^ k)).toNat = b.toNat / 2 ^ k * 2 ^ k := by
  have masks : ∀ k < 8, ∀ n < 256,
      (UInt8.ofNat n &&& UInt8.ofNat (256 - 2 ^ k)).toNat =
        (UInt8.ofNat n).toNat / 2 ^ k * 2 ^ k := by
    decide +kernel
  exact forall_byte (masks k few)

theorem utf8Size_eq (c : Char) :
    c.utf8Size =
      if c.toNat < 0x80 then 1 else if c.toNat < 0x800 then 2
      else if c.toNat < 0x10000 then 3 else 4 := by
  rw [← String.length_utf8EncodeChar, encodeChar_eq]
  repeat' split
  all_goals rfl

/-- The length of a character by its value, if it is one that may be shown. -/
def lengthOf? (n : Nat) : Option Nat :=
  if n.isValidChar ∧ n ≠ 0xFFFE ∧ n ≠ 0xFFFF then
    some (if n < 0x80 then 1 else if n < 0x800 then 2 else if n < 0x10000 then 3 else 4)
  else none

theorem map_next?_eq (bs : Bytes) :
    (next? bs).map (·.1.utf8Size) = (value? bs).bind (lengthOf? ·.1) := by
  unfold next? scalar?
  cases value? bs with
  | none => rfl
  | some found =>
    obtain ⟨n, rest⟩ := found
    by_cases valid : n.isValidChar
    · have value : (Char.ofNat n).toNat = n := by
        rw [Char.toNat_ofNat, if_pos valid]
      by_cases character : n ≠ 0xFFFE ∧ n ≠ 0xFFFF
      · have shown : isNoncharacter (Char.ofNat n) = false := by
          simpa [isNoncharacter, value] using character
        simp [valid, shown, lengthOf?, character, utf8Size_eq, value]
      · have refused : isNoncharacter (Char.ofNat n) = true := by
          simp only [isNoncharacter, value, Bool.or_eq_true, beq_iff_eq]
          omega
        simp [valid, refused, lengthOf?, character]
    · simp [valid, lengthOf?]

theorem lengthOf?_two {n : Nat} (least : 0x80 ≤ n) (most : n < 0x800) : lengthOf? n = some 2 := by
  have valid : n.isValidChar := Or.inl (by omega)
  rw [lengthOf?, if_pos ⟨valid, by omega, by omega⟩, if_neg (by omega), if_pos most]

theorem lengthOf?_three {n : Nat} (least : 0x800 ≤ n) (most : n < 0x10000) :
    lengthOf? n =
      if (0xD800 ≤ n ∧ n < 0xE000) ∨ 0xFFFE ≤ n then none else some 3 := by
  unfold lengthOf? Nat.isValidChar
  rw [if_neg (by omega : ¬ n < 0x80), if_neg (by omega : ¬ n < 0x800), if_pos most]
  by_cases refused : (0xD800 ≤ n ∧ n < 0xE000) ∨ 0xFFFE ≤ n
  · rw [if_pos refused, if_neg (by omega)]
  · rw [if_neg refused, if_pos (by omega)]

theorem lengthOf?_four {n : Nat} (least : 0x10000 ≤ n) :
    lengthOf? n = if n < 0x110000 then some 4 else none := by
  unfold lengthOf? Nat.isValidChar
  rw [if_neg (by omega : ¬ n < 0x80), if_neg (by omega : ¬ n < 0x800),
    if_neg (by omega : ¬ n < 0x10000)]
  by_cases inside : n < 0x110000
  · rw [if_pos inside, if_pos (by omega)]
  · rw [if_neg inside, if_neg (by omega)]

theorem bind_value?_two {lead : UInt8} {tail : Bytes} (low : 0xC0 ≤ lead.toNat)
    (high : lead.toNat < 0xE0) :
    (value? (lead :: tail)).bind (lengthOf? ·.1) =
      match tail with
      | b1 :: _ => if b1.toNat / 64 = 2 ∧ 0xC2 ≤ lead.toNat then some 2 else none
      | [] => none := by
  rw [value?, if_neg (by omega), if_neg (by omega), if_pos high]
  cases tail with
  | nil => rfl
  | cons b1 tail =>
    by_cases follows : b1.toNat / 64 = 2
    · simp only [continuation?, if_pos follows, Option.filter_some]
      by_cases shortest : 0xC2 ≤ lead.toNat
      · rw [if_pos (by simp; omega), if_pos ⟨follows, shortest⟩, Option.bind_some,
          lengthOf?_two (by omega) (by omega)]
      · rw [if_neg (by simp; omega), if_neg (by omega)]
        rfl
    · simp [continuation?, follows]

theorem bind_value?_three {lead : UInt8} {tail : Bytes} (low : 0xE0 ≤ lead.toNat)
    (high : lead.toNat < 0xF0) :
    (value? (lead :: tail)).bind (lengthOf? ·.1) =
      match tail with
      | b1 :: b2 :: _ =>
        if b1.toNat / 64 = 2 ∧ b2.toNat / 64 = 2 ∧ ¬ (lead.toNat = 0xE0 ∧ b1.toNat < 0xA0) ∧
          ¬ (lead.toNat = 0xED ∧ 0xA0 ≤ b1.toNat) ∧
          ¬ (lead.toNat = 0xEF ∧ b1.toNat = 0xBF ∧ 0xBE ≤ b2.toNat) then some 3 else none
      | _ => none := by
  rw [value?, if_neg (by omega), if_neg (by omega), if_neg (by omega), if_pos high]
  cases tail with
  | nil => rfl
  | cons b1 tail =>
    by_cases follows : b1.toNat / 64 = 2
    · cases tail with
      | nil => simp [continuation?, follows]
      | cons b2 tail =>
        by_cases follows' : b2.toNat / 64 = 2
        · simp only [continuation?, if_pos follows, if_pos follows', Option.filter_some]
          by_cases overlong : lead.toNat = 0xE0 ∧ b1.toNat < 0xA0
          · rw [if_neg (by simp; omega), if_neg (by omega)]
            rfl
          · rw [if_pos (by simp; omega), Option.bind_some, lengthOf?_three (by omega) (by omega)]
            split
            · rw [if_neg (by omega)]
            · rw [if_pos (by omega)]
        · simp [continuation?, follows, follows']
    · cases tail <;> simp [continuation?, follows]

theorem bind_value?_four {lead : UInt8} {tail : Bytes} (low : 0xF0 ≤ lead.toNat)
    (high : lead.toNat < 0xF8) :
    (value? (lead :: tail)).bind (lengthOf? ·.1) =
      match tail with
      | b1 :: b2 :: b3 :: _ =>
        if b1.toNat / 64 = 2 ∧ b2.toNat / 64 = 2 ∧ b3.toNat / 64 = 2 ∧
          ¬ (lead.toNat = 0xF0 ∧ b1.toNat < 0x90) ∧
          ¬ (lead.toNat = 0xF4 ∧ 0x8F < b1.toNat) ∧ lead.toNat ≤ 0xF4 then some 4 else none
      | _ => none := by
  rw [value?, if_neg (by omega), if_neg (by omega), if_neg (by omega), if_neg (by omega),
    if_pos high]
  rcases tail with _ | ⟨b1, _ | ⟨b2, _ | ⟨b3, tail⟩⟩⟩
  · rfl
  · by_cases follows : b1.toNat / 64 = 2 <;> simp [continuation?, follows]
  · by_cases follows : b1.toNat / 64 = 2 <;> by_cases follows' : b2.toNat / 64 = 2 <;>
      simp [continuation?, follows, follows']
  · by_cases follows : b1.toNat / 64 = 2 ∧ b2.toNat / 64 = 2 ∧ b3.toNat / 64 = 2
    · obtain ⟨first, second, third⟩ := follows
      simp only [continuation?, if_pos first, if_pos second, if_pos third, Option.filter_some]
      by_cases overlong : lead.toNat = 0xF0 ∧ b1.toNat < 0x90
      · rw [if_neg (by simp; omega), if_neg (by omega)]
        rfl
      · rw [if_pos (by simp; omega), Option.bind_some, lengthOf?_four (by omega)]
        split
        · rw [if_pos (by omega)]
        · rw [if_neg (by omega)]
    · have stopped : continuation? 3 (lead.toNat % 8) (b1 :: b2 :: b3 :: tail) = none := by
        grind [continuation?]
      rw [stopped]
      exact (if_neg (by omega)).symm

theorem bind_value?_lead {lead : UInt8} {tail : Bytes}
    (foreign : (0x80 ≤ lead.toNat ∧ lead.toNat < 0xC0) ∨ 0xF8 ≤ lead.toNat) :
    (value? (lead :: tail)).bind (lengthOf? ·.1) = none := by
  rw [value?]
  grind

theorem bind_value?_one {lead : UInt8} {tail : Bytes} (ascii : lead.toNat < 0x80) :
    (value? (lead :: tail)).bind (lengthOf? ·.1) = some 1 := by
  have valid : lead.toNat.isValidChar := Or.inl (by omega)
  rw [value?, if_pos ascii, Option.bind_some, lengthOf?, if_pos ⟨valid, by omega, by omega⟩,
    if_pos ascii]

theorem charLen_eq_bind {input : Bytes} {i : Nat} (inside : i < input.length) :
    charLen input i inside =
      match (value? (input.drop i)).bind (lengthOf? ·.1) with
      | some width => .ok width
      | none => .error (.malformed i) := by
  have behind (k : Nat) : input[i + (k + 1)]? = (input.drop (i + 1))[k]? := by
    rw [List.getElem?_drop, Nat.add_assoc, Nat.add_comm 1]
  have C0 : ∀ b : UInt8, (b &&& 0xC0).toNat = b.toNat / 64 * 64 := @toNat_and_high 6 (by decide)
  have E0 : ∀ b : UInt8, (b &&& 0xE0).toNat = b.toNat / 32 * 32 := @toNat_and_high 5 (by decide)
  have F0 : ∀ b : UInt8, (b &&& 0xF0).toNat = b.toNat / 16 * 16 := @toNat_and_high 4 (by decide)
  have F8 : ∀ b : UInt8, (b &&& 0xF8).toNat = b.toNat / 8 * 8 := @toNat_and_high 3 (by decide)
  have FE : ∀ b : UInt8, (b &&& 0xFE).toNat = b.toNat / 2 * 2 := @toNat_and_high 1 (by decide)
  have test (b v : UInt8) : (b == v) = decide (b.toNat = v.toNat) := by
    rw [Bool.eq_iff_iff, beq_iff_eq, decide_eq_true_eq, UInt8.toNat_inj]
  rw [List.drop_eq_getElem_cons inside]
  unfold charLen
  rw [behind 0, behind 1, behind 2]
  generalize input[i] = lead
  generalize input.drop (i + 1) = tail
  simp only [isContinuation, test, C0, E0, F0, F8, FE, UInt8.lt_iff_toNat_lt,
    UInt8.reduceToNat, Bool.or_eq_true, Bool.and_eq_true, Bool.not_eq_true', decide_eq_true_eq,
    decide_eq_false_iff_not]
  by_cases one : lead.toNat < 0x80
  · rw [bind_value?_one one, if_pos one]
  rw [if_neg one]
  by_cases two : 0xC0 ≤ lead.toNat ∧ lead.toNat < 0xE0
  · rw [bind_value?_two two.1 two.2, if_pos (by omega)]
    cases tail with
    | nil => rfl
    | cons b1 tail =>
      dsimp only [List.getElem?_cons_zero]
      split
      · rw [if_neg (by omega)]
      · rw [if_pos (by omega)]
  rw [if_neg (by omega)]
  by_cases three : 0xE0 ≤ lead.toNat ∧ lead.toNat < 0xF0
  · rw [bind_value?_three three.1 three.2, if_pos (by omega)]
    rcases tail with _ | ⟨b1, _ | ⟨b2, tail⟩⟩
    · rfl
    · rfl
    · dsimp only [List.getElem?_cons_zero, List.getElem?_cons_succ]
      split
      · rw [if_neg (by omega)]
      · split
        · rw [if_neg (by omega)]
        · rw [if_pos (by omega)]
  rw [if_neg (by omega)]
  by_cases four : 0xF0 ≤ lead.toNat ∧ lead.toNat < 0xF8
  · rw [bind_value?_four four.1 four.2, if_pos (by omega)]
    rcases tail with _ | ⟨b1, _ | ⟨b2, _ | ⟨b3, tail⟩⟩⟩
    · rfl
    · rfl
    · rfl
    · dsimp only [List.getElem?_cons_zero, List.getElem?_cons_succ]
      split
      · rw [if_neg (by omega)]
      · split
        · rw [if_neg (by omega)]
        · rw [if_pos (by omega)]
  rw [if_neg (by omega), bind_value?_lead (by omega)]

theorem charLen_eq {input : Bytes} {i : Nat} (inside : i < input.length) :
    charLen input i inside =
      match next? (input.drop i) with
      | some (c, _) => .ok c.utf8Size
      | none => .error (.malformed i) := by
  rw [charLen_eq_bind, ← map_next?_eq]
  cases next? (input.drop i) <;> rfl

theorem drop_of_next? {input rest : Bytes} {i : Nat} {c : Char}
    (found : next? (input.drop i) = some (c, rest)) : input.drop (i + c.utf8Size) = rest := by
  obtain ⟨-, split⟩ := next?_eq_some_iff.mp found
  rw [← List.drop_drop, split, ← String.length_utf8EncodeChar, List.drop_left]

theorem next?_of_charLen {input : Bytes} {i width : Nat} {inside : i < input.length}
    (found : charLen input i inside = .ok width) :
    ∃ c, next? (input.drop i) = some (c, input.drop (i + width)) ∧ width = c.utf8Size := by
  rw [charLen_eq] at found
  cases answer : next? (input.drop i) with
  | none =>
    rw [answer] at found
    cases found
  | some answer' =>
    obtain ⟨c, rest⟩ := answer'
    rw [answer] at found
    cases found
    refine ⟨c, ?_, rfl⟩
    rw [drop_of_next? answer]

theorem lt_of_next? {input rest : Bytes} {i : Nat} {c : Char}
    (found : next? (input.drop i) = some (c, rest)) : i < input.length := by
  apply Nat.lt_of_not_le
  intro behind
  rw [List.drop_of_length_le behind] at found
  cases found

theorem scanFrom_of_next? {input rest : Bytes} {i : Nat} {c : Char}
    (found : next? (input.drop i) = some (c, rest)) (multibyte : Bool) :
    scanFrom input i multibyte =
      scanFrom input (i + c.utf8Size) (multibyte || decide (1 < c.utf8Size)) := by
  have inside := lt_of_next? found
  have width := charLen_eq inside
  rw [found] at width
  rw [scanFrom, dif_pos inside]
  split
  · next failed => cases width.symm.trans failed
  · next passed =>
    cases width.symm.trans passed
    rfl

theorem scanFrom_of_stuck {input : Bytes} {i : Nat} (stuck : next? (input.drop i) = none)
    (multibyte : Bool) :
    scanFrom input i multibyte =
      if i < input.length then .error (.malformed i) else .ok multibyte := by
  rw [scanFrom]
  split
  · next inside =>
    have width := charLen_eq inside
    rw [stuck] at width
    split
    · next failed =>
      cases width.symm.trans failed
      rfl
    · next passed => cases width.symm.trans passed
  · rfl

theorem scanFrom_encode {cs : List Char} (shown : ∀ c ∈ cs, isNoncharacter c = false)
    (front rest : Bytes) (multibyte : Bool) :
    scanFrom (front ++ (cs.flatMap String.utf8EncodeChar ++ rest)) front.length multibyte =
      scanFrom (front ++ (cs.flatMap String.utf8EncodeChar ++ rest))
        (front.length + (cs.flatMap String.utf8EncodeChar).length)
        (multibyte || cs.any fun c => decide (1 < c.utf8Size)) := by
  induction cs generalizing front multibyte with
  | nil => simp
  | cons c cs ih =>
    obtain ⟨first, others⟩ := List.forall_mem_cons.mp shown
    have split : front ++ ((c :: cs).flatMap String.utf8EncodeChar ++ rest) =
        front ++ String.utf8EncodeChar c ++ (cs.flatMap String.utf8EncodeChar ++ rest) := by
      simp
    have found : next? ((front ++ String.utf8EncodeChar c ++
        (cs.flatMap String.utf8EncodeChar ++ rest)).drop front.length) =
        some (c, cs.flatMap String.utf8EncodeChar ++ rest) := by
      rw [List.append_assoc, List.drop_left]
      exact next?_eq_some_iff.mpr ⟨first, rfl⟩
    have behind : front.length + c.utf8Size = (front ++ String.utf8EncodeChar c).length := by
      simp
    have width : front.length + ((c :: cs).flatMap String.utf8EncodeChar).length =
        (front ++ String.utf8EncodeChar c).length +
          (cs.flatMap String.utf8EncodeChar).length := by
      simp
      omega
    rw [split, width, scanFrom_of_next? found, behind, ih others, List.any_cons, Bool.or_assoc]

theorem scan_encode {cs : List Char} (shown : ∀ c ∈ cs, isNoncharacter c = false) {rest : Bytes}
    (stuck : next? rest = none) :
    scan (cs.flatMap String.utf8EncodeChar ++ rest) =
      if rest = [] then .ok (cs.any fun c => decide (1 < c.utf8Size))
      else .error (.malformed (cs.flatMap String.utf8EncodeChar).length) := by
  have passed := scanFrom_encode shown [] rest false
  rw [List.nil_append, List.length_nil, Nat.zero_add, Bool.false_or] at passed
  rw [scan, passed, scanFrom_of_stuck (by rwa [List.drop_left]), List.length_append]
  cases rest with
  | nil => simp
  | cons b rest => simp

theorem exists_characters (bs : Bytes) :
    ∃ (cs : List Char) (rest : Bytes), (∀ c ∈ cs, isNoncharacter c = false) ∧
      bs = cs.flatMap String.utf8EncodeChar ++ rest ∧ next? rest = none := by
  induction size : bs.length using Nat.strongRecOn generalizing bs with
  | ind n ih =>
    cases found : next? bs with
    | none => exact ⟨[], bs, by simp, rfl, found⟩
    | some answer =>
      obtain ⟨c, tail⟩ := answer
      have shorter := length_lt_of_next? found
      obtain ⟨cs, rest, shown, rfl, stuck⟩ := ih _ (size ▸ shorter) tail rfl
      obtain ⟨first, rfl⟩ := next?_eq_some_iff.mp found
      refine ⟨c :: cs, rest, List.forall_mem_cons.mpr ⟨first, shown⟩, ?_, stuck⟩
      rw [List.flatMap_cons, List.append_assoc]

theorem isOk_scan_iff {bs : Bytes} :
    (scan bs).isOk = true ↔ ∃ cs : List Char, (∀ c ∈ cs, isNoncharacter c = false) ∧
      bs = cs.flatMap String.utf8EncodeChar := by
  have ended : next? [] = none := rfl
  constructor
  · intro scanned
    obtain ⟨cs, rest, shown, rfl, stuck⟩ := exists_characters bs
    rw [scan_encode shown stuck] at scanned
    split at scanned
    · next empty => exact ⟨cs, shown, by rw [empty, List.append_nil]⟩
    · cases scanned
  · rintro ⟨cs, shown, rfl⟩
    have scanned := scan_encode shown ended
    rw [List.append_nil, if_pos rfl] at scanned
    rw [scanned]
    rfl

end Utf8

end ClearSign
