import ClearSign.Proofs.FirstFault

namespace ClearSign.Utf8

/-- The characters at the front of the bytes, up to where no further one is found. -/
structure Leading (bs : Bytes) (cs : List Char) : Prop where
  spelled : ∃ front, front <+: bs ∧ Spells front cs
  longest : ∀ front ds, front <+: bs → Spells front ds → ds <+: cs

theorem Leading.unique {bs : Bytes} {cs ds : List Char} (leading : Leading bs cs)
    (leading' : Leading bs ds) : ds = cs := by
  obtain ⟨front, inside, spelled⟩ := leading.spelled
  obtain ⟨front', inside', spelled'⟩ := leading'.spelled
  have forward : ds <+: cs := leading.longest front' ds inside' spelled'
  have backward : cs <+: ds := leading'.longest front cs inside spelled
  exact forward.eq_of_length_le backward.length_le

theorem Spells.leading {front rest : Bytes} {cs : List Char} (spelled : Spells front cs)
    (fault : Utf8.next? rest = none) : Leading (front ++ rest) cs := by
  refine ⟨⟨front, List.prefix_append _ _, spelled⟩, ?_⟩
  rintro other ds ⟨more, split⟩ known
  exact known.isPrefix spelled fault split

theorem shown_eq (c : Char) :
    shown c = if c.toNat < 0x80 then UInt8.ofNat c.toNat else '?'.toUInt8 := by
  have wide := one_lt_utf8Size_iff c
  have positive := c.utf8Size_pos
  unfold shown
  by_cases ascii : c.toNat < 0x80
  · rw [if_pos ascii, if_pos (by omega)]
    rfl
  · rw [if_neg ascii, if_neg (by omega)]
    rfl

theorem shown_lt (c : Char) : (shown c).toNat < 0x80 := by
  rw [shown_eq]
  split
  · next ascii =>
    rw [UInt8.toNat_ofNat']
    omega
  · decide

theorem encodeChar_of_narrow {c : Char} (narrow : ¬ 1 < c.utf8Size) :
    String.utf8EncodeChar c = [shown c] := by
  have ascii : c.toNat < 0x80 := Nat.lt_of_not_le (mt (one_lt_utf8Size_iff c).mpr narrow)
  rw [encodeChar_eq, shown_eq, if_pos ascii, if_pos ascii]

theorem map_shown_eq_encode_iff {cs : List Char} :
    cs.map shown = cs.flatMap String.utf8EncodeChar ↔
      (cs.any fun c => decide (1 < c.utf8Size)) = false := by
  rw [List.any_eq_false]
  constructor
  · intro same c member wide
    have outside : 0x80 ≤ c.toNat := (one_lt_utf8Size_iff c).mp (of_decide_eq_true wide)
    have present : String.utf8EncodeChar c ≠ [] := by
      rw [← List.length_pos_iff, String.length_utf8EncodeChar]
      exact c.utf8Size_pos
    obtain ⟨b, inside⟩ := List.exists_mem_of_ne_nil _ present
    have high : 0x80 ≤ b.toNat := high_of_mem_encode outside inside
    have among : b ∈ cs.map shown := same ▸ List.mem_flatMap.mpr ⟨c, member, inside⟩
    obtain ⟨d, -, rfl⟩ := List.mem_map.mp among
    exact Nat.not_le_of_lt (shown_lt d) high
  · intro narrow
    induction cs with
    | nil => rfl
    | cons c cs ih =>
      obtain ⟨first, others⟩ := List.forall_mem_cons.mp narrow
      rw [List.map_cons, List.flatMap_cons, encodeChar_of_narrow (by simpa using first), ih others]
      rfl

theorem reduceFrom_of_next? {bs rest : Bytes} {c : Char} (found : next? bs = some (c, rest))
    (capacity written offset : Nat) :
    reduceFrom capacity written offset bs =
      if written < capacity then
        (reduceFrom capacity (written + 1) (offset + c.utf8Size) rest).map fun tail =>
          ⟨shown c :: tail.text, decide (1 < c.utf8Size) || tail.multibyte⟩
      else .error (.capacityExceeded capacity) := by
  have present : bs.isEmpty = false := by
    cases bs with
    | nil => cases found
    | cons b bs => rfl
  rw [reduceFrom, if_neg (by simp [present])]
  split
  · next missing => simp [found] at missing
  · next d tail other =>
    rw [found] at other
    cases other
    cases reduceFrom capacity (written + 1) (offset + c.utf8Size) rest <;> rfl

theorem reduceFrom_of_stuck {rest : Bytes} (fault : next? rest = none)
    (capacity written offset : Nat) :
    reduceFrom capacity written offset rest =
      if rest = [] then .ok ⟨[], false⟩ else .error (.malformed offset) := by
  rw [reduceFrom]
  cases rest with
  | nil => rfl
  | cons b rest =>
    rw [if_neg (by simp), if_neg (by simp)]
    split
    · rfl
    · next found => simp [fault] at found

theorem Spells.reduceFrom {front rest : Bytes} {cs : List Char} (spelled : Spells front cs)
    (fault : Utf8.next? rest = none) {capacity written : Nat} (inside : written ≤ capacity)
    (offset : Nat) :
    Utf8.reduceFrom capacity written offset (front ++ rest) =
      if capacity < written + cs.length then .error (.capacityExceeded capacity)
      else if rest = [] then .ok ⟨cs.map Utf8.shown, cs.any fun c => decide (1 < c.utf8Size)⟩
      else .error (.malformed (offset + front.length)) := by
  induction cs generalizing front written offset with
  | nil =>
    obtain ⟨-, rfl⟩ := spelled
    have room : ¬ capacity < written + ([] : List Char).length := Nat.not_lt_of_le inside
    rw [List.flatMap_nil, List.nil_append, reduceFrom_of_stuck fault, if_neg room]
    rfl
  | cons c cs ih =>
    obtain ⟨tail, others, found⟩ := spelled.next? rest
    have width : front.length = c.utf8Size + tail.length := by
      rw [spelled.encoded, others.encoded, List.flatMap_cons, List.length_append,
        String.length_utf8EncodeChar]
    have places : written + (c :: cs).length = written + 1 + cs.length := by
      rw [List.length_cons]
      omega
    have behind : offset + front.length = offset + c.utf8Size + tail.length := by omega
    rw [reduceFrom_of_next? found, places, behind]
    split
    · next room =>
      rw [ih others (Nat.succ_le_of_lt room)]
      split
      · rfl
      · split <;> rfl
    · next full => rw [if_pos (by omega)]

theorem Spells.toAscii {front rest : Bytes} {cs : List Char} (spelled : Spells front cs)
    (fault : Utf8.next? rest = none) (capacity : Nat) :
    Utf8.toAscii capacity (front ++ rest) =
      if capacity < cs.length then .error (.capacityExceeded capacity)
      else if rest = [] then .ok ⟨cs.map Utf8.shown, cs.any fun c => decide (1 < c.utf8Size)⟩
      else .error (.malformed front.length) := by
  have reduced := spelled.reduceFrom fault (Nat.zero_le capacity) 0
  rwa [Nat.zero_add, Nat.zero_add] at reduced

theorem Spells.toAscii_of_room {bs : Bytes} {cs : List Char} (spelled : Spells bs cs)
    {capacity : Nat} (room : cs.length ≤ capacity) :
    Utf8.toAscii capacity bs =
      .ok ⟨cs.map Utf8.shown, cs.any fun c => decide (1 < c.utf8Size)⟩ := by
  have reduced := @Spells.toAscii bs [] cs spelled rfl capacity
  rwa [List.append_nil, if_neg (Nat.not_lt_of_le room), if_pos rfl] at reduced

theorem toAscii_eq_ok_iff {capacity : Nat} {bs : Bytes} {a : Ascii} :
    toAscii capacity bs = .ok a ↔ ∃ cs, Spells bs cs ∧ cs.length ≤ capacity ∧
      a = ⟨cs.map shown, cs.any fun c => decide (1 < c.utf8Size)⟩ := by
  constructor
  · intro reduced
    obtain ⟨front, cs, rest, spelled, rfl, fault⟩ := exists_stuck bs
    rw [spelled.toAscii fault] at reduced
    split at reduced
    · cases reduced
    · next room =>
      split at reduced
      · next ended =>
        cases reduced
        exact ⟨cs, by simpa [ended] using spelled, Nat.le_of_not_lt room, rfl⟩
      · cases reduced
  · rintro ⟨cs, spelled, room, rfl⟩
    exact spelled.toAscii_of_room room

theorem capacity_of_toAscii {capacity capacity' : Nat} {bs : Bytes}
    (failed : toAscii capacity bs = .error (.capacityExceeded capacity')) :
    capacity' = capacity := by
  obtain ⟨front, cs, rest, spelled, rfl, fault⟩ := exists_stuck bs
  rw [spelled.toAscii fault] at failed
  split at failed
  · cases failed
    rfl
  · split at failed <;> cases failed

theorem shown_of_next? {input rest : Bytes} {i : Nat} {c : Char}
    (found : next? (input.drop i) = some (c, rest)) (inside : i < input.length) :
    (if decide (c.utf8Size ≠ 1) then placeholder else input[i]) = shown c := by
  by_cases wide : 1 < c.utf8Size
  · have other : c.utf8Size ≠ 1 := by omega
    simp [shown, other]
  · have positive := c.utf8Size_pos
    have one : c.utf8Size = 1 := by omega
    obtain ⟨-, split⟩ := next?_eq_some_iff.mp found
    rw [encodeChar_of_narrow wide, List.drop_eq_getElem_cons inside] at split
    have same : input[i] = shown c := (List.cons.inj split).1
    simp [one, same]

theorem fillFrom_of_next? {input rest : Bytes} {i : Nat} {c : Char}
    (found : next? (input.drop i) = some (c, rest)) (written : Nat) (multibyte : Bool)
    (buffer : Bytes) :
    fillFrom input i written multibyte buffer =
      if written < buffer.length then
        fillFrom input (i + c.utf8Size) (written + 1) (multibyte || decide (1 < c.utf8Size))
          (buffer.set written (shown c))
      else (.error (.capacityExceeded buffer.length), buffer) := by
  have inside := lt_of_next? found
  have width := charLen_eq inside
  have positive := c.utf8Size_pos
  have wide : decide (c.utf8Size ≠ 1) = decide (1 < c.utf8Size) := by
    apply decide_eq_decide.mpr
    omega
  rw [found] at width
  rw [fillFrom, dif_pos inside]
  split
  · next failed => cases width.symm.trans failed
  · next passed =>
    cases width.symm.trans passed
    dsimp only
    rw [shown_of_next? found inside, wide]

theorem fillFrom_of_stuck {input : Bytes} {i : Nat} (stuck : next? (input.drop i) = none)
    (written : Nat) (multibyte : Bool) (buffer : Bytes) :
    fillFrom input i written multibyte buffer =
      (if input.drop i = [] then .ok ⟨written, multibyte⟩ else .error (.malformed i), buffer) := by
  have ended : input.drop i = [] ↔ ¬ i < input.length := by
    rw [List.drop_eq_nil_iff]
    omega
  rw [fillFrom]
  split
  · next inside =>
    have width := charLen_eq inside
    rw [stuck] at width
    rw [if_neg (mt ended.mp (not_not_intro inside))]
    split
    · next failed =>
      cases width.symm.trans failed
      rfl
    · next passed => cases width.symm.trans passed
  · next behind => rw [if_pos (ended.mpr behind)]

theorem fillFrom_of_ok {input : Bytes} {i written : Nat} {multibyte : Bool} {done room : Bytes}
    {a : Ascii} (place : written = done.length)
    (reduced : reduceFrom (done ++ room).length written i (input.drop i) = .ok a) :
    a.text.length ≤ room.length ∧ fillFrom input i written multibyte (done ++ room) =
      (.ok ⟨written + a.text.length, multibyte || a.multibyte⟩, done ++ room.overwrite a.text) := by
  generalize size : input.length - i = n
  induction n using Nat.strongRecOn generalizing i written multibyte done room a with
  | ind n ih =>
    subst place
    cases found : next? (input.drop i) with
    | none =>
      rw [reduceFrom_of_stuck found] at reduced
      rw [fillFrom_of_stuck found]
      split at reduced
      · next ended =>
        cases reduced
        simp [ended, Bytes.overwrite]
      · cases reduced
    | some answer =>
      obtain ⟨c, rest⟩ := answer
      have inside := lt_of_next? found
      have positive := c.utf8Size_pos
      rw [reduceFrom_of_next? found] at reduced
      split at reduced
      · next space =>
        cases room with
        | nil => simp at space
        | cons x room =>
          rw [← drop_of_next? found] at reduced
          cases tail : reduceFrom (done ++ x :: room).length (done.length + 1) (i + c.utf8Size)
              (input.drop (i + c.utf8Size)) with
          | error fault =>
            rw [tail] at reduced
            cases reduced
          | ok b =>
            rw [tail] at reduced
            cases reduced
            have shorter : input.length - (i + c.utf8Size) < n := by omega
            obtain ⟨fits, filled⟩ := @ih _ shorter (i + c.utf8Size) (done.length + 1)
              (multibyte || decide (1 < c.utf8Size)) (done ++ [shown c]) room b (by simp)
              (by simpa using tail) rfl
            refine ⟨by simpa using fits, ?_⟩
            rw [fillFrom_of_next? found, if_pos space, Bytes.set_append_cons,
              List.append_cons done, filled]
            simp [Bytes.overwrite, Bool.or_assoc, Nat.add_assoc, Nat.add_comm 1]
      · cases reduced

theorem fillFrom_of_error {input : Bytes} {i written : Nat} {multibyte : Bool} {buffer : Bytes}
    {fault : Fault} (failed : reduceFrom buffer.length written i (input.drop i) = .error fault) :
    (fillFrom input i written multibyte buffer).1 = .error fault := by
  generalize size : input.length - i = n
  induction n using Nat.strongRecOn generalizing i written multibyte buffer with
  | ind n ih =>
    cases found : next? (input.drop i) with
    | none =>
      rw [reduceFrom_of_stuck found] at failed
      rw [fillFrom_of_stuck found]
      split at failed
      · cases failed
      · next more => simpa [more] using failed
    | some answer =>
      obtain ⟨c, rest⟩ := answer
      have inside := lt_of_next? found
      have positive := c.utf8Size_pos
      rw [reduceFrom_of_next? found] at failed
      rw [fillFrom_of_next? found]
      split at failed
      · next space =>
        have shorter : input.length - (i + c.utf8Size) < n := by omega
        rw [if_pos space]
        refine ih _ shorter ?_ rfl
        rw [List.length_set, drop_of_next? found]
        cases tail : reduceFrom buffer.length (written + 1) (i + c.utf8Size) rest with
        | ok b =>
          rw [tail] at failed
          cases failed
        | error fault' =>
          rw [tail] at failed
          cases failed
          rfl
      · next full =>
        rw [if_neg full]
        cases failed
        rfl

theorem fill_of_ok {buffer bs : Bytes} {a : Ascii} (reduced : toAscii buffer.length bs = .ok a) :
    a.text.length ≤ buffer.length ∧
      fill buffer bs = (.ok ⟨a.text.length, a.multibyte⟩, buffer.overwrite a.text) := by
  have filled := @fillFrom_of_ok bs 0 0 false [] buffer a rfl reduced
  rwa [Nat.zero_add, Bool.false_or, List.nil_append] at filled

theorem fill_of_error {buffer bs : Bytes} {fault : Fault}
    (failed : toAscii buffer.length bs = .error fault) : (fill buffer bs).1 = .error fault :=
  @fillFrom_of_error bs 0 0 false buffer fault failed

theorem fill_eq_ok_iff {buffer bs out : Bytes} {reduced : Reduced} :
    fill buffer bs = (.ok reduced, out) ↔ ∃ a, toAscii buffer.length bs = .ok a ∧
      reduced = ⟨a.text.length, a.multibyte⟩ ∧ out = buffer.overwrite a.text := by
  constructor
  · intro filled
    cases answer : toAscii buffer.length bs with
    | ok a =>
      rw [(fill_of_ok answer).2] at filled
      cases filled
      exact ⟨a, rfl, rfl, rfl⟩
    | error fault =>
      have failed := fill_of_error answer
      rw [filled] at failed
      cases failed
  · rintro ⟨a, answer, rfl, rfl⟩
    exact (fill_of_ok answer).2

theorem fill_eq_error_iff {buffer bs : Bytes} {fault : Fault} :
    (fill buffer bs).1 = .error fault ↔ toAscii buffer.length bs = .error fault := by
  constructor
  · intro failed
    cases answer : toAscii buffer.length bs with
    | ok a =>
      rw [(fill_of_ok answer).2] at failed
      cases failed
    | error fault' =>
      rw [fill_of_error answer] at failed
      cases failed
      rfl
  · exact fill_of_error

/-- Reduced into a buffer, a text that the scan accepts takes as many places as it has characters,
each its own byte if that is ASCII and else the placeholder, and is the text itself just if the scan
found all of it to be ASCII; behind it the buffer stays as it was. Of a text that the scan refuses
the same fault is reported, and of either that there is no room, if the characters before the fault
are more than the places. -/
theorem reduction_agrees_with_scan (buffer bs : Bytes) :
    ∃ cs, Leading bs cs ∧ (∀ ds, Leading bs ds → ds = cs) ∧
      (buffer.length < cs.length →
        (fill buffer bs).1 = .error (.capacityExceeded buffer.length)) ∧
      (cs.length ≤ buffer.length → ∀ fault, scan bs = .error fault →
        (fill buffer bs).1 = .error fault ∧ ∃ offset, fault = .malformed offset) ∧
      (cs.length ≤ buffer.length → ∀ multibyte, scan bs = .ok multibyte →
        Spells bs cs ∧ (fill buffer bs).1 = .ok ⟨cs.length, multibyte⟩ ∧
        (fill buffer bs).2.take cs.length =
          (cs.map fun c => if c.toNat < 0x80 then UInt8.ofNat c.toNat else '?'.toUInt8) ∧
        (∀ b ∈ (fill buffer bs).2.take cs.length, b.toNat < 0x80) ∧
        (fill buffer bs).2.drop cs.length = buffer.drop cs.length ∧
        (fill buffer bs).2.length = buffer.length ∧
        (multibyte = false ↔ (fill buffer bs).2.take cs.length = bs)) := by
  cases scanned : scan bs with
  | error fault =>
    obtain ⟨front, cs, rest, spelled, rfl, missing, rfl⟩ := stuck_of_scan scanned
    have faulty : rest ≠ [] := by
      rintro rfl
      rw [List.append_nil, spelled.scan] at scanned
      cases scanned
    have reduced := spelled.toAscii missing buffer.length
    rw [if_neg faulty] at reduced
    refine ⟨cs, spelled.leading missing, fun ds => (spelled.leading missing).unique, ?_, ?_, ?_⟩
    · intro full
      rw [if_pos full] at reduced
      exact fill_of_error reduced
    · rintro room fault ⟨⟩
      rw [if_neg (Nat.not_lt_of_le room)] at reduced
      exact ⟨fill_of_error reduced, _, rfl⟩
    · rintro room multibyte ⟨⟩
  | ok multibyte =>
    obtain ⟨cs, spelled⟩ := spells_of_scan scanned
    have leading : Leading bs cs := by
      have found := @Spells.leading bs [] cs spelled rfl
      rwa [List.append_nil] at found
    refine ⟨cs, leading, fun ds => leading.unique, ?_, ?_, ?_⟩
    · intro full
      have reduced := @Spells.toAscii bs [] cs spelled rfl buffer.length
      rw [List.append_nil, if_pos full] at reduced
      exact fill_of_error reduced
    · rintro room fault ⟨⟩
    · rintro room wide ⟨⟩
      rw [spelled.scan, ← any_wide_eq] at scanned
      cases scanned
      obtain ⟨fits, filled⟩ := fill_of_ok (spelled.toAscii_of_room room)
      have places : (cs.map shown).length = cs.length := List.length_map _
      have text : (buffer.overwrite (cs.map shown)).take cs.length = cs.map shown := by
        rw [← places, Bytes.take_overwrite]
      rw [filled, places, text]
      refine ⟨spelled, rfl, ?_, ?_, ?_, ?_, ?_⟩
      · exact List.map_congr_left fun c _ => shown_eq c
      · intro b member
        obtain ⟨c, -, rfl⟩ := List.mem_map.mp member
        exact shown_lt c
      · rw [← places, Bytes.drop_overwrite]
      · exact Bytes.length_overwrite fits
      · rw [spelled.encoded]
        exact map_shown_eq_encode_iff.symm

/-- A letter with an accent in two of three places, and a fault behind one place with one character
before it and with two. -/
theorem reduction_agrees_with_scan_fault :
    (fill [0xEE, 0xEE, 0xEE] [0x61, 0xC3, 0xA9]).1 = .ok ⟨2, true⟩ ∧
      (fill [0xEE, 0xEE, 0xEE] [0x61, 0xC3, 0xA9]).2.take 2 = [0x61, 0x3F] ∧
      (fill [0xEE] [0x61, 0xFF]).1 = .error (.malformed 1) ∧
      (fill [0xEE] [0x61, 0x62, 0xFF]).1 = .error (.capacityExceeded 1) := by
  have accented : Spells [0x61, 0xC3, 0xA9] ['a', 'é'] := ⟨by simp, by decide⟩
  have one : Spells [0x61] ['a'] := ⟨by simp, by decide⟩
  have two : Spells [0x61, 0x62] ['a', 'b'] := ⟨by simp, by decide⟩
  have stuck : next? [0xFF] = none := by decide +kernel
  obtain ⟨cs, -, unique, -, -, shows⟩ :=
    reduction_agrees_with_scan [0xEE, 0xEE, 0xEE] [0x61, 0xC3, 0xA9]
  obtain ⟨ds, -, unique', -, faulty, -⟩ := reduction_agrees_with_scan [0xEE] [0x61, 0xFF]
  obtain ⟨es, -, unique'', full, -, -⟩ := reduction_agrees_with_scan [0xEE] [0x61, 0x62, 0xFF]
  cases unique _ (@Spells.leading _ [] _ accented rfl)
  cases unique' _ (one.leading stuck)
  cases unique'' _ (two.leading stuck)
  obtain ⟨-, counted, text, -⟩ := shows (by decide) true (by decide +kernel)
  exact ⟨counted, text.trans (by decide), (faulty (by decide) _ (by decide +kernel)).1,
    full (by decide)⟩

end ClearSign.Utf8
