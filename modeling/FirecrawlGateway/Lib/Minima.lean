import Mathlib.Tactic

/-!
# The minima of a list

The elements that no other one ranks before. A scan that keeps the best rank so far, with all
elements of that rank in the order they came, ends with exactly these; so does a second pass
that picks the elements of the best rank. A number in `[0, 1)` chooses one of a list, and every
element can be chosen.
-/

namespace Minima

section Scan

variable {α β : Type*} [LinearOrder β] (rank : α → β)

/-- The elements of least rank, in order. -/
def minima (l : List α) : List α := l.filter fun x => ∀ y ∈ l, rank x ≤ rank y

lemma mem_minima {l : List α} {x : α} : x ∈ minima rank l ↔ x ∈ l ∧ ∀ y ∈ l, rank x ≤ rank y := by
  unfold minima
  rw [List.mem_filter, decide_eq_true_iff]

/-- Every list but the empty one has an element of least rank. -/
lemma minima_ne_nil {l : List α} (h : l ≠ []) : minima rank l ≠ [] := by
  have hargmin : l.argmin rank ≠ none := mt List.argmin_eq_none.mp h
  obtain ⟨x, hx⟩ := Option.ne_none_iff_exists'.mp hargmin
  have hmem : x ∈ minima rank l :=
    (mem_minima rank).mpr ⟨List.argmin_mem hx, fun y hy => List.le_of_mem_argmin hy hx⟩
  exact List.ne_nil_of_mem hmem

/-- The elements of least rank have the rank of any one of them. -/
lemma minima_eq_filter {l : List α} {t : α} (ht : t ∈ minima rank l) :
    minima rank l = l.filter fun x => rank x = rank t := by
  obtain ⟨hmem, hle⟩ := (mem_minima rank).mp ht
  refine List.filter_congr fun x hx => decide_eq_decide.mpr ?_
  constructor
  · intro hx'
    exact le_antisymm (hx' t hmem) (hle x hx)
  · intro heq y hy
    exact heq.le.trans (hle y hy)

/-- One round of the scan: `ties` are the best so far. -/
def keep (ties : List α) (x : α) : List α :=
  match ties with
  | [] => [x]
  | t :: _ =>
    if rank x < rank t then [x]
    else if rank x = rank t then ties ++ [x]
    else ties

/-- One element more. -/
lemma keep_minima (l : List α) (x : α) : keep rank (minima rank l) x = minima rank (l ++ [x]) := by
  by_cases hl : l = []
  · subst hl
    unfold keep minima
    simp
  obtain ⟨t, ts, hties⟩ := List.exists_cons_of_ne_nil (minima_ne_nil rank hl)
  have ht : t ∈ minima rank l := by
    rw [hties]
    exact List.mem_cons_self
  obtain ⟨hmem, hle⟩ := (mem_minima rank).mp ht
  have hfilter := minima_eq_filter rank ht
  rcases lt_trichotomy (rank x) (rank t) with hlt | heq | hgt
  · -- the new one is before all others
    have hnew : x ∈ minima rank (l ++ [x]) := by
      refine (mem_minima rank).mpr ⟨by simp, fun y hy => ?_⟩
      rcases List.mem_append.mp hy with hy | hy
      · exact hlt.le.trans (hle y hy)
      · rw [List.mem_singleton.mp hy]
    have hnone : l.filter (fun y => rank y = rank x) = [] := by
      refine List.filter_eq_nil_iff.mpr fun y hy => ?_
      have hlty := hlt.trans_le (hle y hy)
      simpa using hlty.ne'
    rw [minima_eq_filter rank hnew, List.filter_append, hnone, hties]
    unfold keep
    simp [hlt]
  · have hnew : t ∈ minima rank (l ++ [x]) := by
      refine (mem_minima rank).mpr ⟨List.mem_append_left _ hmem, fun y hy => ?_⟩
      rcases List.mem_append.mp hy with hy | hy
      · exact hle y hy
      · rw [List.mem_singleton.mp hy, heq]
    rw [minima_eq_filter rank hnew, List.filter_append, ← hfilter, hties]
    unfold keep
    simp [heq]
  · have hnew : t ∈ minima rank (l ++ [x]) := by
      refine (mem_minima rank).mpr ⟨List.mem_append_left _ hmem, fun y hy => ?_⟩
      rcases List.mem_append.mp hy with hy | hy
      · exact hle y hy
      · rw [List.mem_singleton.mp hy]
        exact hgt.le
    rw [minima_eq_filter rank hnew, List.filter_append, ← hfilter, hties]
    unfold keep
    simp [hgt.not_gt, hgt.ne']

/-- The scan ends with the elements of least rank. -/
theorem foldl_keep (l : List α) : l.foldl (keep rank) [] = minima rank l := by
  induction l using List.reverseRecOn with
  | nil => rfl
  | append_singleton l x ih =>
    rw [List.foldl_append, ih]
    exact keep_minima rank l x

/-- One round of a scan that keeps a single element. -/
def better (best x : α) : α := if rank x < rank best then x else best

/-- A scan for a single element finds one of least rank. -/
theorem foldl_better (b : α) (l : List α) : l.foldl (better rank) b ∈ minima rank (b :: l) := by
  induction l generalizing b with
  | nil =>
    refine (mem_minima rank).mpr ⟨List.mem_singleton_self b, fun y hy => ?_⟩
    rw [List.mem_singleton.mp hy]
    exact le_rfl
  | cons x l ih =>
    have hbetter : better rank b x = x ∧ rank x < rank b ∨
        better rank b x = b ∧ rank b ≤ rank x := by
      unfold better
      split_ifs with hlt
      · exact Or.inl ⟨rfl, hlt⟩
      · exact Or.inr ⟨rfl, le_of_not_gt hlt⟩
    obtain ⟨hmem, hle⟩ := (mem_minima rank).mp (ih (better rank b x))
    obtain ⟨hfirst, hrest⟩ := List.forall_mem_cons.mp hle
    rw [List.foldl_cons]
    refine (mem_minima rank).mpr ⟨?_, ?_⟩
    · rcases hbetter with ⟨heq, -⟩ | ⟨heq, -⟩
      · rw [heq] at hmem ⊢
        exact List.mem_cons_of_mem b hmem
      · rw [heq] at hmem ⊢
        rcases List.mem_cons.mp hmem with hb | hl
        · rw [hb]
          exact List.mem_cons_self
        · exact List.mem_cons_of_mem b (List.mem_cons_of_mem x hl)
    · have hboth : rank (better rank b x) ≤ rank b ∧ rank (better rank b x) ≤ rank x := by
        rcases hbetter with ⟨heq, hlt⟩ | ⟨heq, hle'⟩
        · rw [heq]
          exact ⟨hlt.le, le_rfl⟩
        · rw [heq]
          exact ⟨le_rfl, hle'⟩
      exact List.forall_mem_cons.mpr ⟨hfirst.trans hboth.1,
        List.forall_mem_cons.mpr ⟨hfirst.trans hboth.2, hrest⟩⟩

end Scan

/-! ## Choosing one -/

/-- A number chooses a place in a list of that length. -/
lemma floor_mul_eq {n : ℕ} (hn : 0 < n) {random : ℚ} (h0 : 0 ≤ random) (h1 : random < 1) :
    ∃ i < n, ⌊random * n⌋ = (i : ℤ) := by
  have hn' : (0 : ℚ) < n := Nat.cast_pos.mpr hn
  have hnonneg : 0 ≤ ⌊random * n⌋ := Int.floor_nonneg.mpr (mul_nonneg h0 hn'.le)
  have hlt : random * n < (n : ℤ) := by
    rw [Int.cast_natCast]
    exact mul_lt_of_lt_one_left hn' h1
  have hfloor := Int.floor_lt.mpr hlt
  exact ⟨⌊random * n⌋.toNat, by omega, by omega⟩

/-- Every place is chosen by some number. -/
lemma exists_floor_mul {n i : ℕ} (hi : i < n) :
    ∃ random : ℚ, 0 ≤ random ∧ random < 1 ∧ ⌊random * n⌋ = i := by
  have hn' : (0 : ℚ) < n := Nat.cast_pos.mpr (Nat.zero_lt_of_lt hi)
  refine ⟨(i : ℚ) / n, by positivity, ?_, ?_⟩
  · rw [div_lt_one hn']
    exact_mod_cast hi
  · rw [div_mul_cancel₀ _ hn'.ne']
    exact Int.floor_natCast i

end Minima
