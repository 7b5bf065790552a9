import ClearSign.Proofs.HexText
import ClearSign.Report

namespace ClearSign

namespace Blank

/-- The core is the text without the blanks around it. -/
def Trimmed (text core : List Char) : Prop :=
  ∃ front back, text = front ++ core ++ back ∧
    (∀ c ∈ front ++ back, isBlank c = true) ∧
    (∀ c ∈ core.head?, isBlank c = false) ∧ ∀ c ∈ core.getLast?, isBlank c = false

theorem dropWhile_of_head {text : List Char} (first : ∀ c ∈ text.head?, isBlank c = false) :
    text.dropWhile isBlank = text := by
  cases text with
  | nil => rfl
  | cons c text =>
    have shown : isBlank c = false := first c rfl
    rw [List.dropWhile_cons_of_neg (by simp [shown])]

theorem exists_dropped (text : List Char) :
    ∃ front, text = front ++ text.dropWhile isBlank ∧ (∀ c ∈ front, isBlank c = true) ∧
      ∀ c ∈ (text.dropWhile isBlank).head?, isBlank c = false := by
  refine ⟨text.takeWhile isBlank, List.takeWhile_append_dropWhile.symm, ?_, ?_⟩
  · intro c member
    exact List.mem_takeWhile_imp member
  · intro c first
    have stopped := List.head?_dropWhile_not isBlank text
    rw [Option.mem_def.mp first] at stopped
    exact stopped

theorem trimmed_trim (text : List Char) : Trimmed text (trim text) := by
  obtain ⟨front, split, blanks, first⟩ := exists_dropped text
  obtain ⟨back, split', blanks', last⟩ := exists_dropped (text.dropWhile isBlank).reverse
  have behind : text.dropWhile isBlank = trim text ++ back.reverse := by
    have turned := congrArg List.reverse split'
    rw [List.reverse_reverse, List.reverse_append] at turned
    exact turned
  rw [behind] at split first
  refine ⟨front, back.reverse, ?_, ?_, ?_, ?_⟩
  · rw [List.append_assoc, ← split]
  · intro c member
    rcases List.mem_append.mp member with member | member
    · exact blanks c member
    · exact blanks' c (List.mem_reverse.mp member)
  · intro c member
    apply first
    rw [List.head?_append, Option.mem_def.mp member]
    rfl
  · intro c member
    apply last
    rw [trim, List.getLast?_reverse] at member
    exact member

theorem trim_eq_iff {text core : List Char} : trim text = core ↔ Trimmed text core := by
  constructor
  · rintro rfl
    exact trimmed_trim text
  · rintro ⟨front, back, rfl, blanks, first, last⟩
    obtain ⟨before, behind⟩ := List.forall_mem_append.mp blanks
    have behind' : ∀ c ∈ back.reverse, isBlank c = true := fun c member =>
      behind c (List.mem_reverse.mp member)
    rw [trim, List.append_assoc, List.dropWhile_append_of_pos before]
    cases core with
    | nil =>
      have none : back.dropWhile isBlank = [] := List.dropWhile_eq_nil_iff.mpr behind
      rw [List.nil_append, none]
      rfl
    | cons c core =>
      have stays : (c :: core ++ back).dropWhile isBlank = c :: core ++ back :=
        dropWhile_of_head first
      rw [stays, List.reverse_append, List.dropWhile_append_of_pos behind', dropWhile_of_head,
        List.reverse_reverse]
      rw [List.head?_reverse]
      exact last

end Blank

namespace Hex

/-- The core is the text without the marks in front of it. -/
def Unmarked (text core : List Char) : Prop :=
  ∃ count, text = (List.replicate count ['0', 'x']).flatten ++ core ∧ ¬ ['0', 'x'] <+: core

theorem exists_unmarked (text : List Char) : ∃ core, Unmarked text core := by
  induction width : text.length using Nat.strong_induction_on generalizing text with
  | _ length ih =>
    by_cases mark : ['0', 'x'] <+: text
    · obtain ⟨rest, rfl⟩ := mark
      have shorter : rest.length < length := by
        rw [← width, List.length_append]
        exact Nat.lt_add_of_pos_left (by decide)
      obtain ⟨core, count, rfl, bare⟩ := ih rest.length shorter rest rfl
      refine ⟨core, count + 1, ?_, bare⟩
      rw [List.replicate_succ, List.flatten_cons, List.append_assoc]
    · exact ⟨text, 0, rfl, mark⟩

theorem ofArgument_bare {text : List Char} (bare : ¬ ['0', 'x'] <+: text) :
    ofArgument text = text := by
  unfold ofArgument
  split
  · next rest => exact absurd ⟨rest, rfl⟩ bare
  · rfl

theorem ofArgument_unmarked {text core : List Char} (unmarked : Unmarked text core) :
    ofArgument text = core := by
  obtain ⟨count, rfl, bare⟩ := unmarked
  induction count with
  | zero => exact ofArgument_bare bare
  | succ count ih =>
    rw [List.replicate_succ, List.flatten_cons, List.append_assoc]
    exact ih

theorem ofArgument_eq_iff {text core : List Char} :
    ofArgument text = core ↔ Unmarked text core := by
  constructor
  · rintro rfl
    obtain ⟨core, unmarked⟩ := exists_unmarked text
    rw [ofArgument_unmarked unmarked]
    exact unmarked
  · exact ofArgument_unmarked

end Hex

namespace Report

/-- The part of an argument that has to hold digits: what is left of it without the blanks around it
and, after that, without the marks in front. -/
def Core (argument core : String) : Prop :=
  ∃ text, Blank.Trimmed argument.toList text ∧ Hex.Unmarked text core.toList

/-- The core has, in either letter case, the digits of these bytes. -/
def Denotes (argument : String) (input : Bytes) : Prop :=
  ∃ core, Core argument core ∧ core.toList.map Char.toLower = Hex.digits input

theorem core_iff {argument core : String} :
    Core argument core ↔ Hex.ofArgument (Blank.trim argument.toList) = core.toList := by
  rw [Hex.ofArgument_eq_iff]
  constructor
  · rintro ⟨text, trimmed, unmarked⟩
    rw [Blank.trim_eq_iff.mpr trimmed]
    exact unmarked
  · intro unmarked
    exact ⟨_, Blank.trimmed_trim _, unmarked⟩

theorem existsUnique_core (argument : String) : ∃! core, Core argument core := by
  refine ⟨String.ofList (Hex.ofArgument (Blank.trim argument.toList)), ?_, ?_⟩
  · exact core_iff.mpr String.toList_ofList.symm
  · intro core found
    rw [core_iff.mp found, String.ofList_toList]

theorem denotes_iff {argument core : String} (found : Core argument core) {input : Bytes} :
    Denotes argument input ↔ core.toList.map Char.toLower = Hex.digits input := by
  constructor
  · rintro ⟨other, found', spelled⟩
    rw [(existsUnique_core argument).unique found found']
    exact spelled
  · intro spelled
    exact ⟨core, found, spelled⟩

theorem exists_denoted_iff {argument core : String} (found : Core argument core) :
    (∃ input, Denotes argument input) ↔
      (Utf8.encode core).length % 2 = 0 ∧ ∀ b ∈ Utf8.encode core, Hex.IsDigit b := by
  simp only [denotes_iff found, ← Hex.map_lower_encode_eq_iff]
  exact Hex.exists_digits_iff

section Codec

variable {hex : Hex.Codec}

theorem ofArgument_of_core {argument core : String} (found : Core argument core) :
    ofArgument hex (some argument) =
      match hex.decode (Utf8.encode core) with
      | .error fault => .failed ("Invalid hex input: " ++ hex.debug fault)
      | .ok input => .finished (text hex input) := by
  rw [ofArgument, core_iff.mp found]
  rfl

theorem ofArgument_of_denotes (lawful : hex.Lawful) {argument : String} {input : Bytes}
    (denoted : Denotes argument input) :
    ofArgument hex (some argument) = .finished (text hex input) := by
  obtain ⟨core, found, spelled⟩ := denoted
  rw [ofArgument_of_core found,
    lawful.decode_digits (Hex.map_lower_encode_eq_iff.mpr spelled)]

theorem ofArgument_of_odd (lawful : hex.Lawful) {argument core : String}
    (found : Core argument core) (odd : (Utf8.encode core).length % 2 = 1) :
    ofArgument hex (some argument) = .failed ("Invalid hex input: " ++ hex.debug .oddLength) := by
  rw [ofArgument_of_core found, lawful.odd _ odd]

theorem ofArgument_of_fault (lawful : hex.Lawful) {argument core : String}
    (found : Core argument core) {index : Nat} {b : UInt8}
    (even : (Utf8.encode core).length % 2 = 0)
    (first : Hex.FirstFault (Utf8.encode core) index b) :
    ofArgument hex (some argument) =
      .failed ("Invalid hex input: " ++
        hex.debug (.invalidHexCharacter (Char.ofNat b.toNat) index)) := by
  rw [ofArgument_of_core found, lawful.decode_fault even first]

end Codec

end Report

end ClearSign
