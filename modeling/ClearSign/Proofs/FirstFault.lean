import ClearSign.Proofs.CharLen

namespace ClearSign.Utf8

/-- The bytes are the encoding of these characters, none of which is a refused noncharacter. -/
structure Spells (bs : Bytes) (cs : List Char) : Prop where
  shown : ∀ c ∈ cs, c.toNat ≠ 0xFFFE ∧ c.toNat ≠ 0xFFFF
  encoded : bs = cs.flatMap String.utf8EncodeChar

theorem isNoncharacter_eq_false_iff {c : Char} :
    isNoncharacter c = false ↔ c.toNat ≠ 0xFFFE ∧ c.toNat ≠ 0xFFFF := by
  simp [isNoncharacter]

theorem one_lt_utf8Size_iff (c : Char) : 1 < c.utf8Size ↔ 0x80 ≤ c.toNat := by
  have positive := c.utf8Size_pos
  have one : c.utf8Size = 1 ↔ c.toNat ≤ 0x7F := by
    rw [Char.utf8Size_eq_one_iff, UInt32.le_iff_toNat_le]
    rfl
  omega

theorem Spells.nil : Spells [] [] :=
  ⟨by simp, rfl⟩

theorem Spells.cons {c : Char} {bs : Bytes} {cs : List Char} (character : isNoncharacter c = false)
    (tail : Spells bs cs) : Spells (String.utf8EncodeChar c ++ bs) (c :: cs) := by
  obtain ⟨shown, rfl⟩ := tail
  exact ⟨List.forall_mem_cons.mpr ⟨isNoncharacter_eq_false_iff.mp character, shown⟩,
    List.flatMap_cons.symm⟩

theorem Spells.next? {c : Char} {bs : Bytes} {cs : List Char} (spelled : Spells bs (c :: cs))
    (more : Bytes) :
    ∃ tail, Spells tail cs ∧ Utf8.next? (bs ++ more) = some (c, tail ++ more) := by
  obtain ⟨shown, rfl⟩ := spelled
  obtain ⟨first, others⟩ := List.forall_mem_cons.mp shown
  refine ⟨_, ⟨others, rfl⟩, next?_eq_some_iff.mpr ⟨?_, ?_⟩⟩
  · exact isNoncharacter_eq_false_iff.mpr first
  · rw [List.flatMap_cons, List.append_assoc]

theorem Spells.isPrefix {front stuck more rest : Bytes} {cs ds : List Char}
    (spelled : Spells front ds) (upTo : Spells stuck cs) (fault : Utf8.next? rest = none)
    (same : front ++ more = stuck ++ rest) : ds <+: cs := by
  induction ds generalizing front stuck cs with
  | nil => exact List.nil_prefix
  | cons d ds ih =>
    obtain ⟨tail, others, found⟩ := spelled.next? more
    cases cs with
    | nil =>
      obtain ⟨-, rfl⟩ := upTo
      rw [same, List.flatMap_nil, List.nil_append, fault] at found
      cases found
    | cons c cs =>
      obtain ⟨tail', others', found'⟩ := upTo.next? rest
      rw [same, found'] at found
      obtain ⟨rfl, rests⟩ := Prod.mk.inj (Option.some.inj found)
      exact List.cons_prefix_cons.mpr ⟨rfl, ih others others' rests.symm⟩

theorem Spells.unique {bs : Bytes} {cs ds : List Char} (spelled : Spells bs cs)
    (spelled' : Spells bs ds) : cs = ds := by
  have ended : Utf8.next? [] = none := rfl
  have same : bs ++ [] = bs ++ [] := rfl
  have forward : cs <+: ds := spelled.isPrefix spelled' ended same
  have backward : ds <+: cs := spelled'.isPrefix spelled ended same
  exact forward.eq_of_length_le backward.length_le

theorem Spells.length_le {front stuck more rest : Bytes} {cs ds : List Char}
    (spelled : Spells front ds) (upTo : Spells stuck cs) (fault : Utf8.next? rest = none)
    (same : front ++ more = stuck ++ rest) : front.length ≤ stuck.length := by
  obtain ⟨es, rfl⟩ := spelled.isPrefix upTo fault same
  rw [spelled.encoded, upTo.encoded, List.flatMap_append, List.length_append]
  exact Nat.le_add_right _ _

theorem any_wide_eq (cs : List Char) :
    (cs.any fun c => decide (1 < c.utf8Size)) = decide (∃ c ∈ cs, 0x80 ≤ c.toNat) := by
  rw [Bool.eq_iff_iff, List.any_eq_true, decide_eq_true_eq]
  simp only [decide_eq_true_eq, one_lt_utf8Size_iff]

theorem exists_stuck (bs : Bytes) :
    ∃ front cs rest, Spells front cs ∧ bs = front ++ rest ∧ next? rest = none := by
  obtain ⟨cs, rest, shown, rfl, stuck⟩ := exists_characters bs
  exact ⟨_, cs, rest, ⟨fun c member => isNoncharacter_eq_false_iff.mp (shown c member), rfl⟩, rfl,
    stuck⟩

theorem Spells.scan_append {front rest : Bytes} {cs : List Char} (spelled : Spells front cs)
    (stuck : Utf8.next? rest = none) :
    Utf8.scan (front ++ rest) =
      if rest = [] then .ok (decide (∃ c ∈ cs, 0x80 ≤ c.toNat))
      else .error (.malformed front.length) := by
  obtain ⟨shown, rfl⟩ := spelled
  rw [← any_wide_eq]
  exact scan_encode (fun c member => isNoncharacter_eq_false_iff.mpr (shown c member)) stuck

theorem Spells.scan {bs : Bytes} {cs : List Char} (spelled : Spells bs cs) :
    Utf8.scan bs = .ok (decide (∃ c ∈ cs, 0x80 ≤ c.toNat)) := by
  have scanned := @Spells.scan_append bs [] cs spelled rfl
  rwa [List.append_nil, if_pos rfl] at scanned

theorem spells_of_scan {bs : Bytes} {multibyte : Bool} (scanned : scan bs = .ok multibyte) :
    ∃ cs, Spells bs cs := by
  obtain ⟨front, cs, rest, spelled, rfl, stuck⟩ := exists_stuck bs
  rw [spelled.scan_append stuck] at scanned
  split at scanned
  · next ended =>
    rw [ended, List.append_nil]
    exact ⟨cs, spelled⟩
  · cases scanned

theorem stuck_of_scan {bs : Bytes} {fault : Fault} (failed : scan bs = .error fault) :
    ∃ front cs rest, Spells front cs ∧ bs = front ++ rest ∧ next? rest = none ∧
      fault = .malformed front.length := by
  obtain ⟨front, cs, rest, spelled, rfl, stuck⟩ := exists_stuck bs
  rw [spelled.scan_append stuck] at failed
  split at failed
  · cases failed
  · cases failed
    exact ⟨front, cs, rest, spelled, rfl, stuck, rfl⟩

/-- The place that the scan has come to after so many steps, and whether a character before it is
not ASCII. -/
inductive Visits (input : Bytes) : (steps i : Nat) → (multibyte : Bool) → Prop
  | start : Visits input 0 0 false
  | next (steps i width : Nat) (multibyte : Bool) (visited : Visits input steps i multibyte)
      (inside : i < input.length) (found : charLen input i inside = .ok width) :
      Visits input (steps + 1) (i + width) (multibyte || decide (1 < width))

theorem Visits.sound {input : Bytes} {steps i : Nat} {multibyte : Bool}
    (visited : Visits input steps i multibyte) :
    steps ≤ i ∧ i ≤ input.length ∧ scan input = scanFrom input i multibyte := by
  induction visited with
  | start => exact ⟨Nat.le_refl 0, Nat.zero_le _, rfl⟩
  | next steps i width multibyte visited inside found ih =>
    obtain ⟨few, -, answer⟩ := ih
    have positive := charLen_pos found
    obtain ⟨c, character, rfl⟩ := next?_of_charLen found
    obtain ⟨-, split⟩ := next?_eq_some_iff.mp character
    have width := congrArg List.length split
    rw [List.length_append, String.length_utf8EncodeChar, List.length_drop] at width
    refine ⟨by omega, by omega, ?_⟩
    rw [answer, scanFrom_of_next? character]

/-- Scanning finds no fault just in bytes that spell characters which may be shown, and it finds out
whether one of them is not ASCII. A fault is located where the longest front of the bytes ends that
spells such characters. On its way the scan stays inside of the bytes, and it makes no more steps
than there are bytes. -/
theorem scan_locates_fault (bs : Bytes) :
    ((∃ multibyte, scan bs = .ok multibyte) ↔ ∃ cs, Spells bs cs) ∧
    (∀ cs, Spells bs cs → scan bs = .ok (decide (∃ c ∈ cs, 0x80 ≤ c.toNat)) ∧
      ∀ ds, Spells bs ds → ds = cs) ∧
    (∀ fault, scan bs = .error fault → ∃ offset, fault = .malformed offset ∧
      IsGreatest {n | ∃ front cs, front <+: bs ∧ Spells front cs ∧ front.length = n} offset) ∧
    ∀ steps i multibyte, Visits bs steps i multibyte →
      steps ≤ i ∧ i ≤ bs.length ∧ scan bs = scanFrom bs i multibyte := by
  refine ⟨⟨?_, ?_⟩, ?_, ?_, ?_⟩
  · intro ⟨multibyte, scanned⟩
    exact spells_of_scan scanned
  · intro ⟨cs, spelled⟩
    exact ⟨_, spelled.scan⟩
  · intro cs spelled
    exact ⟨spelled.scan, fun ds other => other.unique spelled⟩
  · intro fault failed
    obtain ⟨front, cs, rest, upTo, rfl, missing, rfl⟩ := stuck_of_scan failed
    refine ⟨front.length, rfl, ⟨front, cs, List.prefix_append _ _, upTo, rfl⟩, ?_⟩
    rintro n ⟨other, ds, ⟨more, split⟩, spelled, rfl⟩
    exact spelled.length_le upTo missing split
  · intro steps i multibyte visited
    exact visited.sound

/-- A letter with an accent, alone and before what would be a surrogate. -/
theorem scan_locates_fault_surrogate :
    scan [0xC3, 0xA9] = .ok true ∧
      scan [0xC3, 0xA9, 0xED, 0xA0, 0x80] = .error (.malformed 2) ∧
      IsGreatest {n | ∃ front cs, front <+: [0xC3, 0xA9, 0xED, 0xA0, 0x80] ∧ Spells front cs ∧
        front.length = n} 2 ∧
      scan [0xC3, 0xA9] = scanFrom [0xC3, 0xA9] 2 true := by
  have letter : Spells [0xC3, 0xA9] ['é'] := ⟨by simp, by decide⟩
  have accented := scan_locates_fault [0xC3, 0xA9]
  have refused : scan [0xC3, 0xA9, 0xED, 0xA0, 0x80] = .error (.malformed 2) := by decide +kernel
  obtain ⟨offset, located, greatest⟩ :=
    (scan_locates_fault [0xC3, 0xA9, 0xED, 0xA0, 0x80]).2.2.1 _ refused
  cases located
  have passed : Visits [0xC3, 0xA9] 1 2 true :=
    .next 0 0 2 false .start (by decide) (by decide +kernel)
  exact ⟨(accented.2.1 _ letter).1.trans (by simp), refused, greatest,
    (accented.2.2.2 _ _ _ passed).2.2⟩

end ClearSign.Utf8
