import ClearSign.Proofs.ShownNames
import ClearSign.Proofs.Strictness

namespace ClearSign

namespace Callee

theorem classified_of_table : ∀ entry ∈ table, entry.2.2 ≠ unknown := by
  decide

theorem unmistakable_of_table : ∀ entry ∈ table,
    Unmistakable (Utf8.encode entry.1) (Utf8.encode entry.2.1) := by
  decide

theorem eq_of_callee : ∀ a ∈ table, ∀ b ∈ table, a.2.2 = b.2.2 → a = b := by
  decide

def texts : List String :=
  table.map fun (module, name, _) => (frameworkFunction module name).display

theorem texts_eq : texts = ["0x01::aptos_account::transfer", "0x01::coin::transfer",
    "0x01::aptos_account::transfer_coins"] := by
  decide

end Callee

theorem ModuleId.isFramework_exact_iff {m : ModuleId} :
    m.isFramework true = true ↔ m.address = .framework :=
  decide_eq_true_iff

namespace FunctionId

theorem classify_exact_eq_iff {f : FunctionId} {module name : String} {callee : Callee}
    (listed : (module, name, callee) ∈ Callee.table) :
    f.classify true = callee ↔ f = frameworkFunction module name := by
  rw [classify_eq_iff (Callee.classified_of_table _ listed), ModuleId.isFramework_exact_iff]
  constructor
  · rintro ⟨framework, module', name', present, same_module, same_name⟩
    cases Callee.eq_of_callee _ listed _ present rfl
    obtain ⟨⟨address, module⟩, name⟩ := f
    subst framework same_module same_name
    rfl
  · rintro rfl
    exact ⟨rfl, module, name, listed, rfl, rfl⟩

theorem classify_exact_eq_iff_display {f : FunctionId} {module name : String} {callee : Callee}
    (listed : (module, name, callee) ∈ Callee.table) :
    f.classify true = callee ↔ f.display = (frameworkFunction module name).display := by
  rw [classify_exact_eq_iff listed]
  constructor
  · rintro rfl
    rfl
  · intro same
    exact (eq_of_display (Callee.unmistakable_of_table _ listed) same.symm).symm

theorem display_mem_texts_iff {f : FunctionId} :
    f.display ∈ Callee.texts ↔ f.classify true ≠ .unknown := by
  constructor
  · intro shown
    obtain ⟨⟨module, name, callee⟩, listed, same⟩ := List.mem_map.mp shown
    rw [(classify_exact_eq_iff_display listed).mpr same.symm]
    exact Callee.classified_of_table _ listed
  · intro classified
    obtain ⟨-, module, name, listed, -⟩ := (classify_eq_iff classified).mp rfl
    exact List.mem_map.mpr ⟨_, listed, ((classify_exact_eq_iff_display listed).mp rfl).symm⟩

theorem display_mem_texts_iff_framework {f : FunctionId}
    (classified : f.classify false ≠ .unknown) :
    f.display ∈ Callee.texts ↔ f.module.address = .framework := by
  rw [display_mem_texts_iff]
  by_cases framework : f.module.address = .framework
  · rw [classify_exact_of_framework framework]
    exact iff_of_true classified framework
  · rw [classify_exact_of_other framework]
    exact iff_of_false (fun known => known rfl) framework

end FunctionId

theorem StructTag.isAptosCoin_iff_display {tag : StructTag} :
    tag.isAptosCoin = true ↔ tag.display = aptosCoin.display := by
  have only : Unmistakable aptosCoin.module aptosCoin.name := by decide
  rw [isAptosCoin, decide_eq_true_iff]
  constructor
  · rintro rfl
    rfl
  · intro same
    exact (eq_of_display only same.symm).symm

/-- What is shown and what is classified agree. Under strict options a function is classified just
if it has the text of the function of the framework. Of the functions that are classified under
lenient options, just those at the framework address have such a text. A coin is the native one just
if it has its text. -/
theorem shown_names_agree_with_classification :
    (∀ f : FunctionId,
      (f.classify true = .accountTransfer ↔ f.display = "0x01::aptos_account::transfer") ∧
      (f.classify true = .coinTransfer ↔ f.display = "0x01::coin::transfer") ∧
      (f.classify true = .accountTransferCoins ↔
        f.display = "0x01::aptos_account::transfer_coins")) ∧
    (∀ f : FunctionId, f.classify false ≠ .unknown →
      (f.display ∈ ["0x01::aptos_account::transfer", "0x01::coin::transfer",
          "0x01::aptos_account::transfer_coins"] ↔ f.module.address = .framework)) ∧
    ∀ tag : StructTag, tag.isAptosCoin = true ↔ tag.display = "0x01::aptos_coin::AptosCoin" := by
  have account : (frameworkFunction "aptos_account" "transfer").display =
      "0x01::aptos_account::transfer" := by decide
  have coins : (frameworkFunction "coin" "transfer").display = "0x01::coin::transfer" := by decide
  have accountCoins : (frameworkFunction "aptos_account" "transfer_coins").display =
      "0x01::aptos_account::transfer_coins" := by decide
  have native : StructTag.aptosCoin.display = "0x01::aptos_coin::AptosCoin" := by decide
  refine ⟨fun f => ⟨?_, ?_, ?_⟩, ?_, ?_⟩
  · rw [← account]
    exact FunctionId.classify_exact_eq_iff_display (by decide)
  · rw [← coins]
    exact FunctionId.classify_exact_eq_iff_display (by decide)
  · rw [← accountCoins]
    exact FunctionId.classify_exact_eq_iff_display (by decide)
  · intro f classified
    rw [← Callee.texts_eq]
    exact FunctionId.display_mem_texts_iff_framework classified
  · intro tag
    rw [← native]
    exact StructTag.isAptosCoin_iff_display

def lookalikeFunction : FunctionId :=
  ⟨⟨⟨List.replicate 31 0xff ++ [1], by decide⟩, Utf8.encode "coin"⟩, Utf8.encode "transfer"⟩

theorem shown_names_agree_with_classification_lookalike :
    lookalikeFunction.classify false ≠ .unknown ∧
      lookalikeFunction.display ∉ ["0x01::aptos_account::transfer", "0x01::coin::transfer",
        "0x01::aptos_account::transfer_coins"] := by
  obtain ⟨-, lenient, -⟩ := shown_names_agree_with_classification
  have classified : lookalikeFunction.classify false ≠ .unknown := by decide
  have elsewhere : lookalikeFunction.module.address ≠ .framework := by decide
  refine ⟨classified, ?_⟩
  intro shown
  exact elsewhere ((lenient lookalikeFunction classified).mp shown)

end ClearSign
