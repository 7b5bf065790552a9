import ClearSign.Proofs.Grammar.Request
import ClearSign.Proofs.Unescape

/-!
Shown names. Functions and coins are shown by an address and two names with `::` between them. The
address is told from the rest, and escaping loses nothing, but a colon in a name is shown as it is.
Thus two items are shown alike just if they share their address and the bytes of their names joined
by `::`, and an item is told from all others just if these hold `::` in one place only.
-/

namespace ClearSign

/-- The names of an item as one, with what is shown between them. -/
def qualified (module name : Bytes) : Bytes :=
  module ++ Utf8.encode "::" ++ name

def itemText (address : Address) (path : Bytes) : List Char :=
  address.shortText ++ "::".toList ++ Escape.name path

theorem append_cons_inj_of_first {α : Type} {a : α} {front front' rest rest' : List α}
    (first : a ∉ front) (first' : a ∉ front') (same : front ++ a :: rest = front' ++ a :: rest') :
    front = front' ∧ rest = rest' := by
  induction front generalizing front' with
  | nil =>
    cases front' with
    | nil => exact ⟨rfl, (List.cons.inj same).2⟩
    | cons b front' =>
      obtain ⟨rfl, -⟩ := List.cons.inj same
      exact absurd List.mem_cons_self first'
  | cons b front ih =>
    cases front' with
    | nil =>
      obtain ⟨rfl, -⟩ := List.cons.inj same
      exact absurd List.mem_cons_self first
    | cons c front' =>
      obtain ⟨rfl, behind⟩ := List.cons.inj same
      rw [List.mem_cons, not_or] at first first'
      obtain ⟨rfl, rests⟩ := ih first.2 first'.2 behind
      exact ⟨rfl, rests⟩

theorem itemText_inj {a b : Address} {path path' : Bytes} :
    itemText a path = itemText b path' ↔ a = b ∧ path = path' := by
  constructor
  · intro same
    have colons (address : Address) (path : Bytes) : itemText address path =
        address.shortText ++ ':' :: (':' :: Escape.name path) := List.append_assoc _ _ _
    rw [colons, colons] at same
    obtain ⟨addresses, rests⟩ := append_cons_inj_of_first a.colon_notMem_shortText
      b.colon_notMem_shortText same
    exact ⟨Address.shortText_inj.mp addresses, Escape.name_inj.mp (List.cons.inj rests).2⟩
  · rintro ⟨rfl, rfl⟩
    rfl

/-- Neither name holds the separator, not even with a colon of the one between the names. -/
def Unmistakable (module name : Bytes) : Prop :=
  ¬ Utf8.encode "::" <:+: module ++ [0x3a] ∧ ¬ Utf8.encode "::" <:+: [0x3a] ++ name

instance (module name : Bytes) : Decidable (Unmistakable module name) :=
  inferInstanceAs (Decidable (_ ∧ _))

theorem qualified_eq (module name : Bytes) :
    qualified module name = module ++ 0x3a :: 0x3a :: name :=
  List.append_assoc _ _ _

theorem separator_eq : Utf8.encode "::" = [0x3a, 0x3a] := by
  decide

theorem Unmistakable.unique {module name module' name' : Bytes} (only : Unmistakable module name)
    (same : qualified module name = qualified module' name') : module = module' ∧ name = name' := by
  obtain ⟨before, behind⟩ := only
  rw [separator_eq] at before behind
  rw [qualified_eq, qualified_eq] at same
  rcases List.append_eq_append_iff.mp same with ⟨more, rfl, rests⟩ | ⟨more, rfl, rests⟩
  · -- the separator of the other names lies behind this one
    cases more with
    | nil => simp_all
    | cons b more =>
      obtain ⟨-, rest⟩ := List.cons.inj rests
      refine absurd ⟨more, name', ?_⟩ behind
      simp [rest]
  · -- it lies before this one, of which it may take the first colon
    cases more with
    | nil => simp_all
    | cons b more =>
      obtain ⟨rfl, rest⟩ := List.cons.inj rests
      cases more with
      | nil => exact absurd ⟨module', [], by simp⟩ before
      | cons c more =>
        obtain ⟨rfl, -⟩ := List.cons.inj rest
        exact absurd ⟨module', more ++ [0x3a], by simp⟩ before

theorem unmistakable_iff {module name : Bytes} :
    Unmistakable module name ↔ ∀ module' name',
      qualified module name = qualified module' name' → module = module' ∧ name = name' := by
  constructor
  · intro only module' name' same
    exact only.unique same
  · intro unique
    refine ⟨?_, ?_⟩
    · -- a separator up to the first colon at most
      rintro ⟨front, rest, split⟩
      rw [separator_eq] at split
      have shorter := congrArg List.length split
      have same : qualified module name = qualified front (rest ++ 0x3a :: name) := by
        have path : qualified module name = (module ++ [0x3a]) ++ 0x3a :: name := by
          simp [qualified_eq]
        rw [path, ← split, qualified_eq]
        simp
      obtain ⟨rfl, -⟩ := unique _ _ same
      simp at shorter
    · -- a separator from the second colon at least
      rintro ⟨front, rest, split⟩
      rw [separator_eq] at split
      have same : qualified module name = qualified (module ++ 0x3a :: front) rest := by
        have path : qualified module name = (module ++ [0x3a]) ++ ([0x3a] ++ name) := by
          simp [qualified_eq]
        rw [path, ← split, qualified_eq]
        simp
      have longer := congrArg List.length (unique _ _ same).1
      simp at longer

theorem Escape.name_separator : name (Utf8.encode "::") = "::".toList := by
  decide

namespace StructTag

theorem text_eq (tag : StructTag) :
    tag.text = itemText tag.address (qualified tag.module tag.name) := by
  simp only [text, itemText, qualified, Escape.name_append, Escape.name_separator,
    List.append_assoc]

theorem display_eq_iff {s t : StructTag} :
    s.display = t.display ↔ s.address = t.address ∧
      qualified s.module s.name = qualified t.module t.name := by
  rw [display, display, String.ofList_inj, text_eq, text_eq, itemText_inj]

theorem eq_of_display {s t : StructTag} (only : Unmistakable s.module s.name)
    (same : s.display = t.display) : s = t := by
  obtain ⟨addresses, paths⟩ := display_eq_iff.mp same
  obtain ⟨modules, names⟩ := only.unique paths
  obtain ⟨address, module, name⟩ := s
  subst addresses modules names
  rfl

theorem unmistakable_iff {s : StructTag} :
    Unmistakable s.module s.name ↔ ∀ t : StructTag, s.display = t.display → s = t := by
  constructor
  · intro only t
    exact eq_of_display only
  · intro unique
    refine ClearSign.unmistakable_iff.mpr ?_
    intro module name paths
    have same := unique ⟨s.address, module, name⟩ (display_eq_iff.mpr ⟨rfl, paths⟩)
    exact ⟨congrArg (·.module) same, congrArg (·.name) same⟩

end StructTag

namespace FunctionId

/-- The struct of the same names, which is shown alike. -/
def namesake (f : FunctionId) : StructTag :=
  ⟨f.module.address, f.module.name, f.name⟩

theorem namesake_inj {f g : FunctionId} : f.namesake = g.namesake ↔ f = g := by
  obtain ⟨⟨address, module⟩, name⟩ := f
  obtain ⟨⟨address', module'⟩, name'⟩ := g
  simp [namesake, and_assoc]

theorem display_namesake (f : FunctionId) : f.namesake.display = f.display :=
  rfl

theorem display_eq_iff {f g : FunctionId} :
    f.display = g.display ↔ f.module.address = g.module.address ∧
      qualified f.module.name f.name = qualified g.module.name g.name := by
  rw [← display_namesake, ← display_namesake, StructTag.display_eq_iff]
  rfl

theorem eq_of_display {f g : FunctionId} (only : Unmistakable f.module.name f.name)
    (same : f.display = g.display) : f = g := by
  rw [← display_namesake, ← display_namesake] at same
  exact namesake_inj.mp (StructTag.eq_of_display only same)

theorem unmistakable_iff {f : FunctionId} :
    Unmistakable f.module.name f.name ↔ ∀ g : FunctionId, f.display = g.display → f = g := by
  constructor
  · intro only g
    exact eq_of_display only
  · intro unique
    refine (StructTag.unmistakable_iff (s := f.namesake)).mpr ?_
    intro t same
    exact congrArg namesake (unique ⟨⟨t.address, t.module⟩, t.name⟩ same)

end FunctionId

open Request

/-- A function is shown like those at its address whose names, joined by the separator, are the same
bytes. No other function is shown like it just if its names hold no further separator. The same
goes for coins. -/
theorem shown_names_are_split_at_separators (f : FunctionId) (coin : StructTag) :
    (∀ g : FunctionId, f.display = g.display ↔ f.module.address = g.module.address ∧
      qualified f.module.name f.name = qualified g.module.name g.name) ∧
    ((∀ g : FunctionId, f.display = g.display → f = g) ↔ Unmistakable f.module.name f.name) ∧
    (∀ other : StructTag, coin.display = other.display ↔ coin.address = other.address ∧
      qualified coin.module coin.name = qualified other.module other.name) ∧
    ((∀ other : StructTag, coin.display = other.display → coin = other) ↔
      Unmistakable coin.module coin.name) :=
  ⟨fun _ => FunctionId.display_eq_iff, FunctionId.unmistakable_iff.symm,
    fun _ => StructTag.display_eq_iff, StructTag.unmistakable_iff.symm⟩

def frameworkFunction (module name : String) : FunctionId :=
  ⟨⟨.framework, Utf8.encode module⟩, Utf8.encode name⟩

def frameworkCoin (module name : String) : StructTag :=
  ⟨.framework, Utf8.encode module, Utf8.encode name⟩

def sampleCall (target : FunctionId) : RawTransaction :=
  { sampleTransfer with payload := .entryFunction ⟨target, .unknown⟩ }

def sampleCoinTransfer (coin : StructTag) : RawTransaction :=
  { sampleTransfer with
    payload := .entryFunction ⟨frameworkFunction "coin" "transfer",
      .coinTransfer ⟨coin, ⟨.framework, 1000⟩⟩⟩ }

/-- Colons in a name pass for the separator: two functions that are called in decoded requests are
shown alike, and so are two coins that are transferred. -/
theorem nested_names_are_shown_alike :
    (decode {} (transaction (sampleCall (frameworkFunction "a::b" "c"))).encode =
        .ok (.transaction (sampleCall (frameworkFunction "a::b" "c"))) ∧
      decode {} (transaction (sampleCall (frameworkFunction "a" "b::c"))).encode =
        .ok (.transaction (sampleCall (frameworkFunction "a" "b::c"))) ∧
      (frameworkFunction "a::b" "c").display = (frameworkFunction "a" "b::c").display ∧
      frameworkFunction "a::b" "c" ≠ frameworkFunction "a" "b::c") ∧
    decode {} (transaction (sampleCoinTransfer (frameworkCoin "a::b" "c"))).encode =
      .ok (.transaction (sampleCoinTransfer (frameworkCoin "a::b" "c"))) ∧
    decode {} (transaction (sampleCoinTransfer (frameworkCoin "a" "b::c"))).encode =
      .ok (.transaction (sampleCoinTransfer (frameworkCoin "a" "b::c"))) ∧
    (frameworkCoin "a::b" "c").display = (frameworkCoin "a" "b::c").display ∧
    frameworkCoin "a::b" "c" ≠ frameworkCoin "a" "b::c" := by
  decide +kernel

end ClearSign
