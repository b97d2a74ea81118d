import FirecrawlGateway.Lib.DoubleArithmetic

/-!
# Rounded means of whole numbers

A mean that is worked out in doubles and then rounded to a whole number. The sum is exact while it
is below `2 ^ 53`. The quotient is not, but it can only be on the wrong side of a half if it is
closer to it than a double can tell, which a quotient by a small number is not.
-/

namespace NumberText

/-- A whole number of this size is a double. -/
lemma onGrid_intCast {n : ℤ} (h : |n| ≤ 2 ^ 53) : OnGrid n :=
  ⟨n, 0, h, by norm_num, by rw [zpow_zero, mul_one]⟩

/-- A number on the grid is rounded to itself. -/
lemma rounded_of_onGrid {x : ℚ} (h : OnGrid x) (hx : 0 ≤ x) : rounded x = x := by
  rcases hx.eq_or_lt with rfl | hpos
  · exact rounded_zero
  · exact le_antisymm (rounded_le h hx le_rfl) (le_rounded h hpos le_rfl)

/-! ## Sums -/

/-- A sum that stays below `2 ^ 53` is exact. -/
lemma foldl_rounded_eq_add_sum {values : List ℤ} (hvalues : ∀ v ∈ values, 0 ≤ v) {start : ℤ}
    (hstart : 0 ≤ start) (hsum : start + values.sum ≤ 2 ^ 53) :
    values.foldl (fun (sum : ℚ) (v : ℤ) => rounded (sum + v)) start = ((start + values.sum : ℤ) : ℚ) := by
  induction values generalizing start with
  | nil =>
    rw [List.foldl_nil, List.sum_nil, add_zero]
  | cons v values ih =>
    obtain ⟨hv, hvalues⟩ := List.forall_mem_cons.mp hvalues
    rw [List.sum_cons] at hsum
    have hrest : 0 ≤ values.sum := List.sum_nonneg hvalues
    have hstep : rounded ((start : ℚ) + v) = ((start + v : ℤ) : ℚ) := by
      push_cast
      have hgrid : OnGrid ((start + v : ℤ) : ℚ) := by
        apply onGrid_intCast
        rw [abs_of_nonneg (by omega)]
        omega
      push_cast at hgrid
      apply rounded_of_onGrid hgrid
      exact_mod_cast add_nonneg hstart hv
    rw [List.foldl_cons, hstep, ih hvalues (by omega) (by omega), List.sum_cons, add_assoc]

/-! ## Quotients -/

/-- A half of a whole number less a small part is a double. -/
lemma onGrid_sub_part {m k : ℤ} (hm : 0 ≤ m) (hm' : m ≤ 2 ^ 32) (hk : |k| ≤ 2 ^ 12) :
    OnGrid (m + k / 2 ^ 12) := by
  refine ⟨m * 2 ^ 12 + k, -12, ?_, by norm_num, ?_⟩
  · rw [abs_le] at hk ⊢
    constructor
    · omega
    · omega
  · push_cast
    rw [zpow_neg]
    field_simp
    norm_num

/-- Rounding a quotient by a small number to a double does not change the whole number it is
rounded to. -/
theorem floor_rounded_div {s n : ℕ} (hn : 0 < n) (hn' : n ≤ 1024) (hs : (s : ℚ) / n ≤ 2 ^ 31) :
    ⌊rounded (s / n) + 1 / 2⌋ = ⌊(s : ℚ) / n + 1 / 2⌋ := by
  have hnpos : (0 : ℚ) < n := by exact_mod_cast hn
  have hquotient : (0 : ℚ) ≤ (s : ℚ) / n := by positivity
  rcases hquotient.eq_or_lt with hzero | hpos
  · rw [← hzero, rounded_zero]
  obtain ⟨m, hm⟩ : ∃ m : ℤ, ⌊(s : ℚ) / n + 1 / 2⌋ = m := ⟨_, rfl⟩
  obtain ⟨hlow, hhigh⟩ := Int.floor_eq_iff.mp hm
  have hm0 : 0 ≤ m := by
    have hlt : (-1 : ℚ) < m := by linarith
    have hlt' : -1 < m := by exact_mod_cast hlt
    omega
  have hm32 : m ≤ 2 ^ 32 := by
    have hle : (m : ℚ) ≤ 2 ^ 32 := by linarith
    exact_mod_cast hle
  rw [hm]
  apply Int.floor_eq_iff.mpr
  constructor
  · -- the half below `m` is a double
    have hgrid : OnGrid ((m : ℚ) + (-2048 : ℤ) / 2 ^ 12) := onGrid_sub_part hm0 hm32 (by norm_num)
    have hle := le_rounded hgrid hpos (by push_cast; linarith)
    push_cast at hle
    linarith
  · -- the quotient is at least `1 / 2048` below the half above `m`, and so is a double
    have hgap : (s : ℚ) / n ≤ m + 1 / 2 - 1 / 2048 := by
      rw [div_le_iff₀ hnpos]
      have hhigh' : (s : ℚ) < (m + 1 / 2) * n := by
        rw [← div_lt_iff₀ hnpos]
        linarith
      have hint : 2 * (s : ℤ) + 1 ≤ (2 * m + 1) * n := by
        have hlt : (2 * (s : ℤ) : ℚ) < (2 * m + 1) * n := by push_cast; linarith
        have hlt' : 2 * (s : ℤ) < (2 * m + 1) * n := by exact_mod_cast hlt
        omega
      have hrat : 2 * (s : ℚ) + 1 ≤ (2 * m + 1) * n := by exact_mod_cast hint
      have hn1024 : (n : ℚ) ≤ 1024 := by exact_mod_cast hn'
      linarith
    have hgrid : OnGrid ((m : ℚ) + (2046 : ℤ) / 2 ^ 12) := onGrid_sub_part hm0 hm32 (by norm_num)
    have hle := rounded_le hgrid hquotient (by push_cast; linarith)
    push_cast at hle
    linarith

end NumberText
