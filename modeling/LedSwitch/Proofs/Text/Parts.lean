import Mathlib.Data.List.Basic
import LedSwitch.Text.Parts

/-!
Texts that are put together from parts with a separator between them: splitting finds the parts again
(`Parts.split_intercalate`).
-/

namespace LedSwitch.Parts

/-- Parts without the separator in them are found again where they were put together. -/
theorem split_intercalate {separator : Char} {parts : List (List Char)} (hsome : parts ≠ [])
    (h : ∀ part ∈ parts, separator ∉ part) : split separator (List.intercalate [separator] parts) = parts := by
  induction parts with
  | nil => exact absurd rfl hsome
  | cons part rest ih =>
    have hpart := h part List.mem_cons_self
    cases rest with
    | nil => rw [List.intercalate_singleton, split_of_notMem hpart]
    | cons next others =>
      rw [List.intercalate_cons_cons, List.append_assoc, List.singleton_append, split_append hpart,
        ih (List.cons_ne_nil next others) fun other hother => h other (List.mem_cons_of_mem _ hother)]

theorem notMem_intercalate {c separator : Char} {parts : List (List Char)} (hne : c ≠ separator)
    (h : ∀ part ∈ parts, c ∉ part) : c ∉ List.intercalate [separator] parts := by
  induction parts with
  | nil => simp [List.intercalate]
  | cons part rest ih =>
    have hrest := ih fun other hother => h other (List.mem_cons_of_mem _ hother)
    cases rest with
    | nil => simpa using h part List.mem_cons_self
    | cons next others =>
      rw [List.intercalate_cons_cons, List.mem_append, List.mem_append, List.mem_singleton, not_or, not_or]
      exact ⟨⟨h part List.mem_cons_self, hne⟩, hrest⟩

end LedSwitch.Parts
