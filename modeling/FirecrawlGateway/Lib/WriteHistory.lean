import Mathlib.Tactic

/-!
# The values a cell went through

The history of a cell is the list of its values, the first one first: a write appends to it.
`Since h i v` says that the cell held `v` at the `i`-th write or later, which is what a
read that promises not to be older than that write may return.
-/

namespace WriteHistory

variable {α : Type*} {h h' : List α} {i j : ℕ} {v : α}

/-- The cell held `v` at the `i`-th write or later. -/
def Since (h : List α) (i : ℕ) (v : α) : Prop := ∃ j, i ≤ j ∧ h[j]? = some v

/-- Writes to come do not change what was held before. -/
lemma getElem?_of_prefix (hle : h <+: h') (hi : h[i]? = some v) : h'[i]? = some v := by
  obtain ⟨hlt, rfl⟩ := List.getElem?_eq_some_iff.mp hi
  exact List.prefix_iff_getElem?.mp hle i hlt

lemma Since.of_prefix (hs : Since h i v) (hle : h <+: h') : Since h' i v := by
  obtain ⟨j, hij, hj⟩ := hs
  exact ⟨j, hij, getElem?_of_prefix hle hj⟩

lemma Since.mono (hs : Since h i v) (hle : j ≤ i) : Since h j v := by
  obtain ⟨k, hik, hk⟩ := hs
  exact ⟨k, le_trans hle hik, hk⟩

/-- The cell holds its last value now. -/
lemma Since.of_last (hlast : h.getLast? = some v) (hi : i < h.length) : Since h i v := by
  refine ⟨h.length - 1, by omega, ?_⟩
  rw [← List.getLast?_eq_getElem?]
  exact hlast

end WriteHistory
