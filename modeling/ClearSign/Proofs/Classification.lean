import ClearSign.Call

namespace ClearSign

theorem Callee.eq_of_names : ∀ a ∈ table, ∀ b ∈ table, Utf8.encode a.1 = Utf8.encode b.1 →
    Utf8.encode a.2.1 = Utf8.encode b.2.1 → a = b := by
  decide

theorem ModuleId.isFramework_iff (exact : Bool) (m : ModuleId) :
    m.isFramework exact = true ↔
      if exact then m.address.bytes = List.replicate 31 0 ++ [1]
      else m.address.bytes.getLast? = some 1 := by
  cases exact with
  | true =>
    simp only [isFramework, if_true, decide_eq_true_eq]
    constructor
    · intro same
      rw [same]
      rfl
    · intro same
      obtain ⟨⟨bytes, width⟩, name⟩ := m
      subst same
      rfl
  | false =>
    have last : m.address.bytes.getLast? = some m.address.lastByte := by
      rw [List.getLast?_eq_getElem?, m.address.length_bytes]
      exact List.getElem?_eq_getElem _
    simp [isFramework, last]

namespace FunctionId

def Named (f : FunctionId) (callee : Callee) : Prop :=
  ∃ module function, (module, function, callee) ∈ Callee.table ∧
    f.module.name = Utf8.encode module ∧ f.name = Utf8.encode function

theorem classify_eq_iff {exact : Bool} {f : FunctionId} {callee : Callee}
    (classified : callee ≠ .unknown) :
    f.classify exact = callee ↔ f.module.isFramework exact = true ∧ f.Named callee := by
  unfold classify
  by_cases framework : f.module.isFramework exact = true
  · rw [if_pos framework]
    cases located : Callee.table.find? fun entry =>
        f.module.name == Utf8.encode entry.1 && f.name == Utf8.encode entry.2.1 with
    | some entry =>
      have member := List.mem_of_find?_eq_some located
      have named := List.find?_some located
      simp only [Bool.and_eq_true, beq_iff_eq] at named
      constructor
      · rintro rfl
        exact ⟨framework, entry.1, entry.2.1, member, named⟩
      · intro known
        obtain ⟨-, module, function, present, same_module, same_function⟩ := known
        rw [same_module, same_function] at named
        have same := Callee.eq_of_names entry member _ present named.1.symm named.2.symm
        rw [same]
    | none =>
      constructor
      · intro unknown
        exact absurd unknown.symm classified
      · intro known
        obtain ⟨-, module, function, present, same_module, same_function⟩ := known
        have differs := List.find?_eq_none.mp located _ present
        simp [same_module, same_function] at differs
  · rw [if_neg framework]
    constructor
    · intro unknown
      exact absurd unknown.symm classified
    · intro known
      exact absurd known.1 framework

end FunctionId

end ClearSign
