import ClearSign.Bytes

/-!
UTF-8, read strictly. A character is accepted in its shortest form only, and never a surrogate or a
value above U+10FFFF; the noncharacters U+FFFE and U+FFFF are refused as well. Text is either
scanned for its first fault or reduced to ASCII, where every character outside ASCII becomes one
placeholder.
-/

namespace ClearSign.Utf8

def encode (text : String) : Bytes :=
  text.toList.flatMap String.utf8EncodeChar

/-- Appends the low six bits of `count` continuation bytes to `high`. -/
def continuation? : (count high : Nat) → Bytes → Option (Nat × Bytes)
  | 0, high, bs => some (high, bs)
  | _ + 1, _, [] => none
  | count + 1, high, b :: bs =>
    if b.toNat / 64 = 2 then continuation? count (64 * high + b.toNat % 64) bs else none

/-- The scalar value at the front of the bytes, before it is asked whether it is one. A form is
the shortest if its value is at least the least value that needs so many bytes. -/
def value? : Bytes → Option (Nat × Bytes)
  | [] => none
  | b :: bs =>
    let lead := b.toNat
    if lead < 0x80 then some (lead, bs)
    else if lead < 0xC0 then none
    else if lead < 0xE0 then (continuation? 1 (lead % 32) bs).filter (0x80 ≤ ·.1)
    else if lead < 0xF0 then (continuation? 2 (lead % 16) bs).filter (0x800 ≤ ·.1)
    else if lead < 0xF8 then (continuation? 3 (lead % 8) bs).filter (0x10000 ≤ ·.1)
    else none

def scalar? (bs : Bytes) : Option (Char × Bytes) :=
  match value? bs with
  | none => none
  | some (n, rest) => if n.isValidChar then some (Char.ofNat n, rest) else none

def isNoncharacter (c : Char) : Bool :=
  c.toNat == 0xFFFE || c.toNat == 0xFFFF

/-- The first character of a text that may be shown, and the bytes after it. -/
def next? (bs : Bytes) : Option (Char × Bytes) :=
  match scalar? bs with
  | none => none
  | some (c, rest) => if isNoncharacter c then none else some (c, rest)

theorem length_of_continuation? {count high : Nat} {bs rest : Bytes} {n : Nat}
    (found : continuation? count high bs = some (n, rest)) :
    rest.length + count = bs.length := by
  induction count generalizing high bs with
  | zero => simp_all [continuation?]
  | succ count ih =>
    cases bs with
    | nil => simp [continuation?] at found
    | cons b bs =>
      simp only [continuation?] at found
      split at found
      · simp [← ih found]
        omega
      · simp at found

theorem length_lt_of_value? {bs rest : Bytes} {n : Nat} (found : value? bs = some (n, rest)) :
    rest.length < bs.length := by
  cases bs with
  | nil => simp [value?] at found
  | cons b bs =>
    have behind {count high least : Nat}
        (read : (continuation? count high bs).filter (least ≤ ·.1) = some (n, rest)) :
        rest.length < (b :: bs).length := by
      have := length_of_continuation? (Option.filter_eq_some_iff.mp read).1
      simp
      omega
    simp only [value?] at found
    split at found
    · simp_all
    · repeat' split at found
      · simp at found
      · exact behind found
      · exact behind found
      · exact behind found
      · simp at found

theorem length_lt_of_scalar? {bs rest : Bytes} {c : Char} (found : scalar? bs = some (c, rest)) :
    rest.length < bs.length := by
  unfold scalar? at found
  split at found
  · simp at found
  · next n tail read =>
    split at found
    · obtain ⟨rfl, rfl⟩ := Prod.mk.inj (Option.some.inj found)
      exact length_lt_of_value? read
    · cases found

theorem length_lt_of_next? {bs rest : Bytes} {c : Char} (found : next? bs = some (c, rest)) :
    rest.length < bs.length := by
  unfold next? at found
  split at found
  · simp at found
  · next d tail read =>
    split at found
    · cases found
    · obtain ⟨rfl, rfl⟩ := Prod.mk.inj (Option.some.inj found)
      exact length_lt_of_scalar? read

inductive Fault
  | malformed (offset : Nat)
  | capacityExceeded (capacity : Nat)
  deriving DecidableEq, Repr

def Fault.message : Fault → String
  | .malformed offset => s!"malformed UTF-8 sequence at byte {offset}"
  | .capacityExceeded capacity => s!"output capacity {capacity} exceeded"

def isContinuation (b : UInt8) : Bool :=
  b &&& 0xC0 == 0x80

/-- The length of the character that starts at place `i`, found out from the bits of its bytes. -/
def charLen (input : Bytes) (i : Nat) (inside : i < input.length) : Except Fault Nat :=
  let lead := input[i]
  let malformed := Except.error (Fault.malformed i)
  if lead < 0x80 then .ok 1
  else if lead &&& 0xE0 == 0xC0 then
    match input[i + 1]? with
    | some b1 =>
      -- C0 and C1 would be overlong
      if !isContinuation b1 || lead &&& 0xFE == 0xC0 then malformed else .ok 2
    | none => malformed
  else if lead &&& 0xF0 == 0xE0 then
    match input[i + 1]?, input[i + 2]? with
    | some b1, some b2 =>
      if !isContinuation b1 || !isContinuation b2 then malformed
      else
        let overlong := lead == 0xE0 && b1 &&& 0xE0 == 0x80
        let surrogate := lead == 0xED && b1 &&& 0xE0 == 0xA0
        let noncharacter := lead == 0xEF && b1 == 0xBF && b2 &&& 0xFE == 0xBE
        if overlong || surrogate || noncharacter then malformed else .ok 3
    | _, _ => malformed
  else if lead &&& 0xF8 == 0xF0 then
    match input[i + 1]?, input[i + 2]?, input[i + 3]? with
    | some b1, some b2, some b3 =>
      if !isContinuation b1 || !isContinuation b2 || !isContinuation b3 then malformed
      else
        let overlong := lead == 0xF0 && b1 &&& 0xF0 == 0x80
        let outOfRange := (lead == 0xF4 && decide (0x8F < b1)) || decide (0xF4 < lead)
        if overlong || outOfRange then malformed else .ok 4
    | _, _, _ => malformed
  else malformed

theorem charLen_pos {input : Bytes} {i width : Nat} {inside : i < input.length}
    (found : charLen input i inside = .ok width) : 0 < width := by
  unfold charLen at found
  grind

/-- Scans the bytes from place `i` on; `multibyte` tells whether a character before it is not
ASCII. -/
def scanFrom (input : Bytes) (i : Nat) (multibyte : Bool) : Except Fault Bool :=
  if inside : i < input.length then
    match _found : charLen input i inside with
    | .error fault => .error fault
    | .ok width => scanFrom input (i + width) (multibyte || decide (1 < width))
  else .ok multibyte
termination_by input.length - i
decreasing_by
  have positive := charLen_pos _found
  omega

def scan (input : Bytes) : Except Fault Bool :=
  scanFrom input 0 false

def placeholder : UInt8 := 63

def shown (c : Char) : UInt8 :=
  if c.utf8Size = 1 then c.toUInt8 else placeholder

structure Ascii where
  text : Bytes
  multibyte : Bool
  deriving DecidableEq, Repr

/-- Reduces the bytes that start at `offset`, with `written` of the `capacity` places taken. -/
def reduceFrom (capacity written offset : Nat) (bs : Bytes) : Except Fault Ascii :=
  if bs.isEmpty then .ok ⟨[], false⟩
  else
    match _found : next? bs with
    | none => .error (.malformed offset)
    | some (c, rest) =>
      if written < capacity then
        match reduceFrom capacity (written + 1) (offset + c.utf8Size) rest with
        | .error fault => .error fault
        | .ok tail => .ok ⟨shown c :: tail.text, decide (1 < c.utf8Size) || tail.multibyte⟩
      else .error (.capacityExceeded capacity)
termination_by bs.length
decreasing_by exact length_lt_of_next? _found

/-- The text of at most `capacity` characters. A fault in the bytes is reported only if the
characters before it fit. -/
def toAscii (capacity : Nat) (bs : Bytes) : Except Fault Ascii :=
  reduceFrom capacity 0 0 bs

/-- What a reduction into a lent buffer tells: how many places it took, and whether some character
is not ASCII. -/
structure Reduced where
  length : Nat
  multibyte : Bool
  deriving DecidableEq, Repr

/-- Reduces the bytes from place `i` on into the places of the buffer from `written` on. The buffer
comes back from a fault too, as it is by then. -/
def fillFrom (input : Bytes) (i written : Nat) (multibyte : Bool) (buffer : Bytes) :
    Except Fault Reduced × Bytes :=
  if inside : i < input.length then
    match _found : charLen input i inside with
    | .error fault => (.error fault, buffer)
    | .ok width =>
      let wide := decide (width ≠ 1)
      let ch := if wide then placeholder else input[i]
      if written < buffer.length then
        fillFrom input (i + width) (written + 1) (multibyte || wide) (buffer.set written ch)
      else (.error (.capacityExceeded buffer.length), buffer)
  else (.ok ⟨written, multibyte⟩, buffer)
termination_by input.length - i
decreasing_by
  have positive := charLen_pos _found
  omega

def fill (buffer input : Bytes) : Except Fault Reduced × Bytes :=
  fillFrom input 0 0 false buffer

def invalidFrom? (offset : Nat) (bs : Bytes) : Option Nat :=
  if bs.isEmpty then none
  else
    match _found : scalar? bs with
    | none => some offset
    | some (c, rest) => invalidFrom? (offset + c.utf8Size) rest
termination_by bs.length
decreasing_by exact length_lt_of_scalar? _found

/-- The place up to which the bytes are standard UTF-8, if they are not so to their end. -/
def invalid? (bs : Bytes) : Option Nat :=
  invalidFrom? 0 bs

/-- Whether some character starts with these bytes, where they are too few to be one. Behind a
second byte that fits the first any continuation does. -/
def begins (front : Bytes) : Bool :=
  (scalar? (front ++ [0x80, 0x80])).isSome

/-- How many bytes go with the first where no character is found: those that a character was cut
short behind. -/
def cutShort (bs : Bytes) : Nat :=
  if begins (bs.take 3) then 2 else if begins (bs.take 2) then 1 else 0

/-- The text in standard UTF-8. Where no character is found, the longest start of one, or else a
single byte, is shown as U+FFFD. -/
def lossy (bs : Bytes) : List Char :=
  match bs with
  | [] => []
  | b :: tail =>
    match _found : scalar? (b :: tail) with
    | some (c, rest) => c :: lossy rest
    | none => '\uFFFD' :: lossy (tail.drop (cutShort (b :: tail)))
termination_by bs.length
decreasing_by
  · exact length_lt_of_scalar? _found
  · rw [List.length_drop, List.length_cons]
    omega

end ClearSign.Utf8
