import FirecrawlGateway.Lib.JsonRoundTrip
import Mathlib.Data.List.TakeWhile

/-!
# A number is read back

What `String` writes for a double is a number of JSON, and `Number` gives the double back.
-/

namespace NumberText

open JsonReader (WrittenBack dropExponent dropFraction isNumberChar isNumberToken
  isNumberToken_head span_append)

/-! ## Rounding -/

@[simp] lemma roundHalfEven_intCast (n : ℤ) : roundHalfEven n = n := by
  unfold roundHalfEven
  rw [Int.floor_intCast, if_pos (by rw [sub_self]; norm_num)]

lemma roundHalfEven_nonneg {q : ℚ} (h : 0 ≤ q) : 0 ≤ roundHalfEven q := by
  have hfloor := Int.floor_nonneg.mpr h
  unfold roundHalfEven
  split_ifs <;> omega

/-- What is below a whole number is rounded to that number at most. -/
lemma roundHalfEven_le {q : ℚ} {n : ℤ} (h : q < n) : roundHalfEven q ≤ n := by
  have hfloor := Int.floor_lt.mpr h
  unfold roundHalfEven
  split_ifs <;> omega

lemma le_roundHalfEven {q : ℚ} {n : ℤ} (h : n ≤ q) : n ≤ roundHalfEven q := by
  have hfloor := Int.le_floor.mpr h
  unfold roundHalfEven
  split_ifs <;> omega

lemma two_zpow_pos (k : ℤ) : (0 : ℚ) < 2 ^ k := zpow_pos (by norm_num) k

lemma nearest_zero : nearest 0 = some 0 := by
  unfold nearest
  have hround : roundHalfEven 0 = 0 := by exact_mod_cast roundHalfEven_intCast 0
  simp only [zero_div, hround, Int.cast_zero, zero_mul]
  rw [if_pos (by positivity)]

/-- A multiple of the last place that is not too large is its own nearest double. -/
lemma nearest_of_multiple {q : ℚ} {n : ℤ} (h : q / 2 ^ lastPlace q = n) (hq : q < 2 ^ 1024) :
    nearest q = some q := by
  have hmul : (n : ℚ) * 2 ^ lastPlace q = q := by
    rw [← h, div_mul_cancel₀ _ (two_zpow_pos _).ne']
  unfold nearest
  simp only [h, roundHalfEven_intCast, hmul]
  rw [if_pos hq]

/-- A double that is not negative is its own nearest one. -/
lemma nearest_double {q : ℚ} (h : IsDouble q) (hq : 0 ≤ q) : nearest q = some q := by
  rcases eq_or_lt_of_le hq with rfl | hpos
  · exact nearest_zero
  obtain ⟨m, e, hm, hlow, hhigh, heq⟩ := h
  have hm' : (m : ℚ) < 2 ^ 53 := by exact_mod_cast (abs_lt.mp hm).2
  have hlt : q < 2 ^ (53 + e) := by
    rw [heq, zpow_add₀ (by norm_num)]
    exact mul_lt_mul_of_pos_right (by exact_mod_cast hm') (two_zpow_pos e)
  -- the last place is no higher than the exponent at hand
  have hplace : lastPlace q ≤ e := by
    have hlog := (Int.lt_zpow_iff_log_lt (by norm_num : 1 < 2) hpos).mp (by exact_mod_cast hlt)
    exact max_le hlow (by omega)
  have hmultiple : q / 2 ^ lastPlace q = ((m * 2 ^ (e - lastPlace q).toNat : ℤ) : ℚ) := by
    have hnat : ((e - lastPlace q).toNat : ℤ) = e - lastPlace q := Int.toNat_of_nonneg (by omega)
    rw [div_eq_iff (two_zpow_pos _).ne', heq]
    push_cast
    rw [← heq, ← zpow_natCast, hnat, mul_assoc, ← zpow_add₀ (by norm_num), sub_add_cancel]
    exact heq
  refine nearest_of_multiple hmultiple (hlt.trans_le ?_)
  calc (2 : ℚ) ^ (53 + e) ≤ 2 ^ (1024 : ℤ) := zpow_le_zpow_right₀ (by norm_num) (by omega)
    _ = 2 ^ 1024 := zpow_ofNat 2 1024

/-- What a number is rounded to is a double, and not negative. -/
lemma isDouble_of_nearest {q r : ℚ} (hq : 0 ≤ q) (h : nearest q = some r) : IsDouble r ∧ 0 ≤ r := by
  unfold nearest at h
  simp only at h
  split_ifs at h with hsmall
  have hr := Option.some.inj h
  have hscaled : 0 ≤ q / 2 ^ lastPlace q := div_nonneg hq (two_zpow_pos _).le
  have hm := roundHalfEven_nonneg hscaled
  have hm' : (0 : ℚ) ≤ roundHalfEven (q / 2 ^ lastPlace q) := by exact_mod_cast hm
  refine ⟨?_, hr ▸ mul_nonneg hm' (two_zpow_pos _).le⟩
  -- a number has at most 53 places above its last one
  have hplaces : q / 2 ^ lastPlace q < ((2 ^ 53 : ℤ) : ℚ) := by
    rw [div_lt_iff₀ (two_zpow_pos _)]
    have hlog : q < (2 : ℚ) ^ (Int.log 2 q + 1) := Int.lt_zpow_succ_log_self (by norm_num) q
    calc q < 2 ^ (Int.log 2 q + 1) := hlog
      _ ≤ 2 ^ (53 + lastPlace q) := by
        refine zpow_le_zpow_right₀ (by norm_num) ?_
        unfold lastPlace
        omega
      _ = ((2 ^ 53 : ℤ) : ℚ) * 2 ^ lastPlace q := by
        rw [zpow_add₀ (by norm_num)]
        norm_num
  have hle := roundHalfEven_le hplaces
  have hlow : -1074 ≤ lastPlace q := le_max_left _ _
  have hbelow : (2 : ℚ) ^ (1024 : ℤ) = 2 ^ 1024 := zpow_ofNat 2 1024
  rw [← hbelow] at hsmall
  rcases eq_or_lt_of_le hle with hm53 | hm53
  · -- it is rounded up to the next power of two
    have hpower : r = 2 ^ (53 + lastPlace q) := by
      rw [← hr, hm53, zpow_add₀ (by norm_num)]
      norm_num
    have hexp : 53 + lastPlace q < 1024 := by
      rw [hr, hpower] at hsmall
      exact (zpow_lt_zpow_iff_right₀ (by norm_num)).mp hsmall
    refine ⟨2 ^ 52, lastPlace q + 1, by norm_num, by omega, by omega, ?_⟩
    rw [hpower, show 53 + lastPlace q = 52 + (lastPlace q + 1) by ring, zpow_add₀ (by norm_num)]
    norm_num
  · refine ⟨_, lastPlace q, by rw [abs_of_nonneg hm]; exact hm53, hlow, ?_, hr.symm⟩
    by_contra hhigh
    -- a number this large has all its places
    have hmax : lastPlace q = max (-1074) (Int.log 2 q - 52) := rfl
    have hlog : lastPlace q = Int.log 2 q - 52 := by omega
    have hpos : 0 < q := by
      refine lt_of_le_of_ne hq fun hzero => ?_
      have hlogzero : Int.log 2 q = 0 := by rw [← hzero, Int.log_zero_right]
      omega
    have hfull : ((2 ^ 52 : ℤ) : ℚ) ≤ q / 2 ^ lastPlace q := by
      rw [le_div_iff₀ (two_zpow_pos _)]
      calc ((2 ^ 52 : ℤ) : ℚ) * 2 ^ lastPlace q = 2 ^ (52 + lastPlace q) := by
            rw [zpow_add₀ (by norm_num)]
            norm_num
        _ = 2 ^ Int.log 2 q := by rw [hlog]; ring_nf
        _ ≤ q := Int.zpow_log_le_self (by norm_num) hpos
    have hm52 : ((2 ^ 52 : ℤ) : ℚ) ≤ roundHalfEven (q / 2 ^ lastPlace q) := by
      exact_mod_cast le_roundHalfEven hfull
    have hlarge : (2 : ℚ) ^ (1024 : ℤ) ≤ roundHalfEven (q / 2 ^ lastPlace q) * 2 ^ lastPlace q :=
      calc (2 : ℚ) ^ (1024 : ℤ) ≤ 2 ^ (52 + lastPlace q) :=
            zpow_le_zpow_right₀ (by norm_num) (by omega)
        _ = ((2 ^ 52 : ℤ) : ℚ) * 2 ^ lastPlace q := by
            rw [zpow_add₀ (by norm_num)]
            norm_num
        _ ≤ _ := mul_le_mul_of_nonneg_right hm52 (two_zpow_pos _).le
    exact absurd hsmall (not_lt.mpr hlarge)

/-- Whole numbers are doubles as far as 53 bits go. -/
lemma isDouble_intCast {n : ℤ} (h : |n| < 2 ^ 53) : IsDouble n :=
  ⟨n, 0, h, by norm_num, by norm_num, by norm_num⟩

lemma IsDouble.neg {q : ℚ} (h : IsDouble q) : IsDouble (-q) := by
  obtain ⟨m, e, hm, hlow, hhigh, rfl⟩ := h
  refine ⟨-m, e, by rwa [abs_neg], hlow, hhigh, ?_⟩
  push_cast
  ring

lemma isJsNumber_signed (negative : Bool) {q : ℚ} (hq : 0 ≤ q) :
    IsJsNumber (signed negative q) := by
  unfold signed
  split
  · trivial
  · rename_i rounded hrounded
    have hdouble := (isDouble_of_nearest hq hrounded).1
    split_ifs
    · trivial
    · exact hdouble.neg
    · exact hdouble

/-- A double comes from its sign and its size. -/
lemma signed_of_pos {q : ℚ} (h : IsDouble q) (hq : 0 < q) :
    signed false q = .finite q ∧ signed true q = .finite (-q) := by
  unfold signed
  rw [nearest_double h hq.le]
  exact ⟨rfl, by simp only [if_true, if_neg hq.ne']⟩

/-! ## The shortest decimal -/

/-- What is found is rounded to the number. -/
lemma decimalOf_spec {x : ℚ} {k n : ℕ} {scale : ℤ} (hk : 1 ≤ k)
    (h : decimalOf x k = some (n, scale)) : nearest (n * 10 ^ scale) = some x := by
  unfold decimalOf at h
  simp only at h
  split_ifs at h with hlow hhigh hpower
  · cases h
    exact hlow.1
  · cases h
    rw [← hhigh, hpower]
    congr 1
    obtain ⟨j, rfl⟩ : ∃ j, k = j + 1 := ⟨k - 1, by omega⟩
    rw [zpow_add₀ (by norm_num), Nat.add_sub_cancel]
    push_cast
    ring
  · cases h
    exact hhigh

/-- The power of ten of a double. -/
lemma log_ten_bounds {x : ℚ} (h : IsDouble x) (hx : 0 < x) :
    -1074 ≤ Int.log 10 x ∧ Int.log 10 x < 309 := by
  obtain ⟨m, e, hm, hlow, hhigh, rfl⟩ := h
  have hm' : (m : ℚ) < 2 ^ 53 := by exact_mod_cast (abs_lt.mp hm).2
  have hpos : (0 : ℚ) < m := (pos_iff_pos_of_mul_pos hx).mpr (two_zpow_pos e)
  have hone : (1 : ℚ) ≤ m := by exact_mod_cast hpos
  constructor
  · rw [← Int.zpow_le_iff_le_log (by norm_num) hx]
    calc ((10 : ℕ) : ℚ) ^ (-1074 : ℤ) ≤ 2 ^ (-1074 : ℤ) := by
          rw [zpow_neg, zpow_neg]
          refine inv_anti₀ (two_zpow_pos _) ?_
          exact zpow_le_zpow_left₀ (by norm_num) (by norm_num) (by norm_num)
      _ ≤ 2 ^ e := zpow_le_zpow_right₀ (by norm_num) hlow
      _ = 1 * 2 ^ e := (one_mul _).symm
      _ ≤ m * 2 ^ e := mul_le_mul_of_nonneg_right hone (two_zpow_pos e).le
  · rw [← Int.lt_zpow_iff_log_lt (by norm_num) hx]
    calc (m : ℚ) * 2 ^ e < 2 ^ 53 * 2 ^ e := mul_lt_mul_of_pos_right hm' (two_zpow_pos e)
      _ ≤ 2 ^ 53 * 2 ^ (971 : ℤ) := by
          refine mul_le_mul_of_nonneg_left ?_ (by positivity)
          exact zpow_le_zpow_right₀ (by norm_num) hhigh
      _ = 2 * (2 ^ 93) ^ 11 := by
          rw [zpow_ofNat, ← pow_mul, ← pow_add, ← pow_succ']
      _ ≤ 10 * (10 ^ 28) ^ 11 := by
          refine mul_le_mul (by norm_num) ?_ (by positivity) (by norm_num)
          exact pow_le_pow_left₀ (by norm_num) (by norm_num) 11
      _ = ((10 : ℕ) : ℚ) ^ (309 : ℤ) := by
          rw [zpow_ofNat, ← pow_mul, ← pow_succ']
          rfl

/-- A power of ten makes a binary number whole. -/
lemma binary_div_ten {m e : ℤ} {k : ℕ} (hm : 0 ≤ m) (he : -(k : ℤ) ≤ e) :
    (m : ℚ) * 2 ^ e / 10 ^ (-(k : ℤ)) = ((m.toNat * 2 ^ (e + k).toNat * 5 ^ k : ℕ) : ℚ) := by
  have hm' : ((m.toNat : ℤ) : ℚ) = m := by rw [Int.toNat_of_nonneg hm]
  have he' : ((e + k).toNat : ℤ) = e + k := Int.toNat_of_nonneg (by omega)
  push_cast
  rw [← zpow_natCast 2 (e + k).toNat, he', zpow_add₀ (by norm_num), zpow_natCast, zpow_neg,
    zpow_natCast, div_inv_eq_mul, show (10 : ℚ) = 2 * 5 by norm_num, mul_pow]
  rw [Int.cast_natCast] at hm'
  rw [hm']
  ring

/-- With enough places a double is a decimal. -/
lemma decimalOf_exact {x : ℚ} (h : IsDouble x) (hx : 0 < x) {k : ℕ}
    (hk : (k : ℤ) = Int.log 10 x + 1 + 1074) : decimalOf x k ≠ none := by
  have hscale : Int.log 10 x + 1 - k = -1074 := by omega
  obtain ⟨n, hn⟩ : ∃ n : ℕ, x / 10 ^ (-1074 : ℤ) = n := by
    obtain ⟨m, e, hm, hlow, hhigh, rfl⟩ := h
    have hpos : (0 : ℚ) < m := (pos_iff_pos_of_mul_pos hx).mpr (two_zpow_pos e)
    exact ⟨_, binary_div_ten (k := 1074) (by exact_mod_cast hpos.le) hlow⟩
  have hnearest : nearest (n * 10 ^ (-1074 : ℤ)) = some x := by
    rw [← hn, div_mul_cancel₀ _ (by positivity)]
    exact nearest_double h hx.le
  have hround : (n : ℤ) = roundHalfEven (n : ℚ) := by
    exact_mod_cast (roundHalfEven_intCast n).symm
  unfold decimalOf
  simp only [hscale, hn, Nat.floor_natCast]
  rw [if_pos ⟨hnearest, Or.inr hround⟩]
  exact Option.some_ne_none _

/-- The shortest decimal is rounded to the number. -/
lemma shortest_spec {x : ℚ} (h : IsDouble x) (hx : 0 < x) :
    nearest ((shortest x).1 * 10 ^ (shortest x).2) = some x ∧ 0 < (shortest x).1 := by
  obtain ⟨hlow, hhigh⟩ := log_ten_bounds h hx
  obtain ⟨found, hfound⟩ : ∃ found,
      ((List.range 1400).findSome? fun k => decimalOf x (k + 1)) = some found := by
    rw [← Option.isSome_iff_exists, List.findSome?_isSome_iff]
    refine ⟨(Int.log 10 x + 1 + 1074).toNat - 1, List.mem_range.mpr (by omega), ?_⟩
    exact Option.isSome_iff_ne_none.mpr (decimalOf_exact h hx (by omega))
  have hshortest : shortest x = found := by
    unfold shortest
    rw [hfound]
    rfl
  obtain ⟨k, -, hk⟩ := List.exists_of_findSome?_eq_some hfound
  have hnearest : nearest (found.1 * 10 ^ found.2) = some x :=
    decimalOf_spec (Nat.le_add_left 1 k) hk
  rw [hshortest]
  refine ⟨hnearest, Nat.pos_of_ne_zero fun hzero => ?_⟩
  rw [hzero, Nat.cast_zero, zero_mul, nearest_zero] at hnearest
  exact hx.ne (Option.some.inj hnearest)

/-! ## Digits -/

lemma toDigits_isDigit (n : ℕ) : ∀ c ∈ Nat.toDigits 10 n, c.isDigit = true :=
  fun _ => Nat.isDigit_of_mem_toDigits (by norm_num) (by norm_num)

/-- A positive number begins with another digit than zero. -/
lemma toDigits_head {n : ℕ} (hn : 0 < n) : (Nat.toDigits 10 n).head? ≠ some '0' := by
  induction n using Nat.strong_induction_on with
  | _ n ih =>
    by_cases hsmall : n < 10
    · rw [Nat.toDigits_of_lt_base hsmall]
      interval_cases n <;> decide
    · rw [Nat.toDigits_of_base_le (by norm_num) (not_lt.mp hsmall)]
      have hne : Nat.toDigits 10 (n / 10) ≠ [] := Nat.toDigits_ne_nil
      rw [List.head?_append_of_ne_nil _ hne]
      exact ih (n / 10) (by omega) (by omega)

lemma ofDigitChars_toDigits (n : ℕ) : Nat.ofDigitChars 10 (Nat.toDigits 10 n) 0 = n :=
  Nat.ofDigitChars_toDigits (by norm_num) (by norm_num)

/-- Digits are part of a number. -/
lemma isNumberChar_of_isDigit {c : Char} (h : c.isDigit = true) : isNumberChar c = true := by
  unfold isNumberChar
  rw [h]
  rfl

lemma isDigit_ne {c d : Char} (h : c.isDigit = true) (hd : d.isDigit = false) : c ≠ d := by
  rintro rfl
  rw [h] at hd
  cases hd

/-! ## Exponents -/

lemma readExponent_exponentText (e : ℤ) : readExponent (exponentText e) = some e := by
  have hdigits : (Nat.toDigits 10 e.natAbs).all Char.isDigit = true :=
    List.all_eq_true.mpr (toDigits_isDigit _)
  have hne : Nat.toDigits 10 e.natAbs ≠ [] := Nat.toDigits_ne_nil
  unfold exponentText readExponent
  by_cases hneg : e < 0
  · simp only [hneg, if_true, hdigits, List.head?_cons, true_or, true_and, ofDigitChars_toDigits]
    rw [if_pos ⟨hne, trivial⟩]
    congr 1
    omega
  · simp only [hneg, if_false, hdigits, List.head?_cons, true_or, true_and,
      ofDigitChars_toDigits]
    rw [if_pos ⟨hne, trivial⟩, if_neg (by decide)]
    congr 1
    omega

lemma dropExponent_exponentText (e : ℤ) : dropExponent (exponentText e) = [] := by
  have hne : Nat.toDigits 10 e.natAbs ≠ [] := Nat.toDigits_ne_nil
  obtain ⟨c, cs, hcs⟩ := List.exists_cons_of_ne_nil hne
  have hall := toDigits_isDigit e.natAbs
  have hhead : c.isDigit = true := hall c (by rw [hcs]; exact List.mem_cons_self)
  have hdrop : (Nat.toDigits 10 e.natAbs).dropWhile Char.isDigit = [] :=
    List.dropWhile_eq_nil_iff.mpr hall
  unfold exponentText dropExponent
  by_cases hneg : e < 0
  · simp only [hneg, if_true, true_or]
    rw [hcs] at hdrop ⊢
    simp only [List.head?_cons, Option.any_some, hhead, if_true, hdrop]
  · simp only [hneg, if_false, true_or, if_true]
    rw [hcs] at hdrop ⊢
    simp only [List.head?_cons, Option.any_some, hhead, if_true, hdrop]

/-- An exponent, or none. -/
def IsTail (tail : List Char) (e : ℤ) : Prop := (tail = [] ∧ e = 0) ∨ tail = exponentText e

lemma IsTail.readExponent {tail : List Char} {e : ℤ} (h : IsTail tail e) :
    readExponent tail = some e := by
  rcases h with ⟨rfl, rfl⟩ | rfl
  · rfl
  · exact readExponent_exponentText e

lemma IsTail.head {tail : List Char} {e : ℤ} (h : IsTail tail e) (c : Char)
    (hc : tail.head? = some c) : c = 'e' := by
  rcases h with ⟨rfl, rfl⟩ | rfl
  · cases hc
  · cases hc
    rfl

lemma IsTail.dropExponent {tail : List Char} {e : ℤ} (h : IsTail tail e) :
    dropExponent tail = [] := by
  rcases h with ⟨rfl, rfl⟩ | rfl
  · rfl
  · exact dropExponent_exponentText e

lemma IsTail.isNumberChar {tail : List Char} {e : ℤ} (h : IsTail tail e) :
    ∀ c ∈ tail, isNumberChar c = true := by
  rcases h with ⟨rfl, rfl⟩ | rfl
  · exact fun c hc => absurd hc List.not_mem_nil
  · intro c hc
    unfold exponentText at hc
    rcases List.mem_cons.mp hc with rfl | hc
    · decide
    rcases List.mem_cons.mp hc with rfl | hc
    · split_ifs <;> decide
    · exact isNumberChar_of_isDigit (toDigits_isDigit _ c hc)

/-! ## Literals -/

/-- The digits before a point. -/
structure IsWhole (whole : List Char) : Prop where
  digits : ∀ c ∈ whole, c.isDigit = true
  nonempty : whole ≠ []
  zero : whole.head? = some '0' → whole = ['0']

lemma tail_isDigit {tail : List Char} {e : ℤ} (h : IsTail tail e) (c : Char)
    (hc : tail.head? = some c) : c.isDigit = false := by
  rw [h.head c hc]
  decide

lemma splitFraction_tail {tail : List Char} {e : ℤ} (h : IsTail tail e) :
    splitFraction tail = ([], tail) := by
  unfold splitFraction
  split
  · exact absurd (h.head '.' rfl) (by decide)
  · rfl

lemma readDecimal_whole {whole tail : List Char} {e : ℤ} (hwhole : IsWhole whole)
    (htail : IsTail tail e) :
    readDecimal (whole ++ tail) = some (Nat.ofDigitChars 10 whole 0 * (10 : ℚ) ^ e) := by
  obtain ⟨htake, hdrop⟩ := span_append hwhole.digits (tail_isDigit htail)
  unfold readDecimal
  simp only [htake, hdrop, splitFraction_tail htail, htail.readExponent, Option.map_some,
    List.append_nil, List.length_nil, Nat.cast_zero, sub_zero]
  exact if_neg fun h => hwhole.nonempty h.1

lemma readDecimal_point {whole fraction tail : List Char} {e : ℤ} (hwhole : IsWhole whole)
    (hfraction : ∀ c ∈ fraction, c.isDigit = true) (htail : IsTail tail e) :
    readDecimal (whole ++ '.' :: (fraction ++ tail)) =
      some (Nat.ofDigitChars 10 (whole ++ fraction) 0 * (10 : ℚ) ^ (e - fraction.length)) := by
  have hpoint : ∀ c, ('.' :: (fraction ++ tail)).head? = some c → c.isDigit = false := by
    intro c hc
    cases hc
    decide
  obtain ⟨htake, hdrop⟩ := span_append hwhole.digits hpoint
  obtain ⟨htake', hdrop'⟩ := span_append hfraction (tail_isDigit htail)
  unfold readDecimal
  simp only [htake, hdrop, splitFraction, htake', hdrop', htail.readExponent, Option.map_some]
  exact if_neg fun h => hwhole.nonempty h.1

lemma isNumberToken_cons {c : Char} {cs : List Char} (hall : ∀ d ∈ c :: cs, isNumberChar d = true)
    (hc : c.isDigit = true) (hzero : c = '0' → dropExponent (dropFraction cs) = [])
    (hdigits : dropExponent (dropFraction (cs.dropWhile Char.isDigit)) = []) :
    isNumberToken (c :: cs) = true := by
  have hminus : c ≠ '-' := isDigit_ne hc (by decide)
  unfold isNumberToken
  rw [List.all_eq_true.mpr hall, Bool.true_and, List.head?_cons,
    if_neg (fun h => hminus (Option.some.inj h))]
  split
  · rename_i cs' heq
    cases heq
    exact decide_eq_true (hzero rfl)
  · rename_i c' cs' hne heq
    cases heq
    rw [hc, Bool.true_and]
    exact decide_eq_true hdigits
  · rename_i heq
    cases heq

lemma dropFraction_tail {tail : List Char} {e : ℤ} (h : IsTail tail e) :
    dropFraction tail = tail := by
  unfold dropFraction
  split
  · exact absurd (h.head '.' rfl) (by decide)
  · rfl

lemma isNumberToken_whole {whole tail : List Char} {e : ℤ} (hwhole : IsWhole whole)
    (htail : IsTail tail e) : isNumberToken (whole ++ tail) = true := by
  obtain ⟨c, cs, rfl⟩ := List.exists_cons_of_ne_nil hwhole.nonempty
  have hdigits := List.forall_mem_cons.mp hwhole.digits
  have hdrop := (span_append hdigits.2 (tail_isDigit htail)).2
  rw [List.cons_append]
  refine isNumberToken_cons ?_ hdigits.1 ?_ ?_
  · intro d hd
    rw [← List.cons_append] at hd
    rcases List.mem_append.mp hd with hd | hd
    · exact isNumberChar_of_isDigit (hwhole.digits d hd)
    · exact htail.isNumberChar d hd
  · rintro rfl
    cases hwhole.zero rfl
    rw [List.nil_append, dropFraction_tail htail, htail.dropExponent]
  · rw [hdrop, dropFraction_tail htail, htail.dropExponent]

lemma isNumberToken_point {whole fraction tail : List Char} {e : ℤ} (hwhole : IsWhole whole)
    (hfraction : ∀ c ∈ fraction, c.isDigit = true) (hne : fraction ≠ []) (htail : IsTail tail e) :
    isNumberToken (whole ++ '.' :: (fraction ++ tail)) = true := by
  obtain ⟨c, cs, rfl⟩ := List.exists_cons_of_ne_nil hwhole.nonempty
  obtain ⟨d, ds, rfl⟩ := List.exists_cons_of_ne_nil hne
  have hdigits := List.forall_mem_cons.mp hwhole.digits
  have hdigits' := List.forall_mem_cons.mp hfraction
  have hpoint : ∀ c, ('.' :: (d :: ds ++ tail)).head? = some c → c.isDigit = false := by
    intro c hc
    cases hc
    decide
  have hdrop := (span_append hdigits.2 hpoint).2
  have hdropFraction : dropFraction ('.' :: (d :: ds ++ tail)) = tail := by
    unfold dropFraction
    simp only [List.cons_append, hdigits'.1, if_true]
    exact (span_append hdigits'.2 (tail_isDigit htail)).2
  rw [List.cons_append]
  refine isNumberToken_cons ?_ hdigits.1 ?_ ?_
  · intro x hx
    rw [← List.cons_append] at hx
    rcases List.mem_append.mp hx with hx | hx
    · exact isNumberChar_of_isDigit (hwhole.digits x hx)
    rcases List.mem_cons.mp hx with rfl | hx
    · decide
    rcases List.mem_append.mp hx with hx | hx
    · exact isNumberChar_of_isDigit (hfraction x hx)
    · exact htail.isNumberChar x hx
  · rintro rfl
    cases hwhole.zero rfl
    rw [List.nil_append, hdropFraction, htail.dropExponent]
  · rw [hdrop, hdropFraction, htail.dropExponent]

/-! ## What is written -/

/-- What a text of digits with a point and an exponent comes to. -/
def Spells (text : List Char) (value : ℚ) : Prop :=
  readDecimal text = some value ∧ isNumberToken text = true

lemma isWhole_of_head {digits : List Char} (hdigits : ∀ c ∈ digits, c.isDigit = true)
    (hne : digits ≠ []) (hhead : digits.head? ≠ some '0') : IsWhole digits :=
  ⟨hdigits, hne, fun h => absurd h hhead⟩

/-- The digits with a point before the place `n` are a number of JSON. -/
theorem spells_layout {digits : List Char} (hdigits : ∀ c ∈ digits, c.isDigit = true)
    (hne : digits ≠ []) (hhead : digits.head? ≠ some '0') (n : ℤ) :
    Spells (layout digits n)
      (Nat.ofDigitChars 10 digits 0 * (10 : ℚ) ^ (n - digits.length)) := by
  have htail : IsTail [] 0 := Or.inl ⟨rfl, rfl⟩
  have hpos := List.length_pos_of_ne_nil hne
  have hzeros : ∀ k, ∀ c ∈ List.replicate k '0', c.isDigit = true := by
    intro k c hc
    rw [List.eq_of_mem_replicate hc]
    decide
  unfold layout
  split_ifs with h₁ h₂ h₃ h₄
  · -- a whole number
    have hwhole : IsWhole (digits ++ List.replicate (n - digits.length).toNat '0') := by
      refine isWhole_of_head (fun c hc => ?_) (List.append_ne_nil_of_left_ne_nil hne _) ?_
      · rcases List.mem_append.mp hc with hc | hc
        · exact hdigits c hc
        · exact hzeros _ c hc
      · rwa [List.head?_append_of_ne_nil _ hne]
    have hread := readDecimal_whole hwhole htail
    have htoken := isNumberToken_whole hwhole htail
    rw [List.append_nil] at hread htoken
    refine ⟨hread.trans (congrArg some ?_), htoken⟩
    rw [Nat.ofDigitChars_append, Nat.ofDigitChars_replicate_zero, zpow_zero, mul_one]
    have hnat : ((n - digits.length).toNat : ℤ) = n - digits.length := by omega
    have hpow : (10 : ℚ) ^ (n - digits.length) = 10 ^ (n - digits.length).toNat := by
      rw [← zpow_natCast, hnat]
    rw [hpow]
    push_cast
    ring
  · -- the point is among the digits
    have htake : (digits.take n.toNat) ≠ [] := by
      intro h
      rcases List.take_eq_nil_iff.mp h with h | h
      · omega
      · exact hne h
    have hdrop : (digits.drop n.toNat) ≠ [] := by
      intro h
      have := List.drop_eq_nil_iff.mp h
      omega
    have hwhole : IsWhole (digits.take n.toNat) := by
      refine isWhole_of_head (fun c hc => hdigits c (List.mem_of_mem_take hc)) htake ?_
      rw [List.head?_take, if_neg (by omega)]
      exact hhead
    have hfraction : ∀ c ∈ digits.drop n.toNat, c.isDigit = true :=
      fun c hc => hdigits c (List.mem_of_mem_drop hc)
    have hread := readDecimal_point hwhole hfraction htail
    have htoken := isNumberToken_point hwhole hfraction hdrop htail
    rw [List.append_nil] at hread htoken
    refine ⟨hread.trans (congrArg some ?_), htoken⟩
    rw [List.take_append_drop, List.length_drop]
    congr 2
    omega
  · -- zeros come after the point
    have hwhole : IsWhole ['0'] :=
      ⟨fun c hc => by cases List.mem_singleton.mp hc; decide, List.cons_ne_nil _ _, fun _ => rfl⟩
    have hfraction : ∀ c ∈ List.replicate (-n).toNat '0' ++ digits, c.isDigit = true := by
      intro c hc
      rcases List.mem_append.mp hc with hc | hc
      · exact hzeros _ c hc
      · exact hdigits c hc
    have hread := readDecimal_point hwhole hfraction htail
    have htoken := isNumberToken_point hwhole hfraction
      (List.append_ne_nil_of_right_ne_nil _ hne) htail
    rw [List.append_nil] at hread htoken
    refine ⟨hread.trans (congrArg some ?_), htoken⟩
    have hvalue : Nat.ofDigitChars 10 (['0'] ++ (List.replicate (-n).toNat '0' ++ digits)) 0 =
        Nat.ofDigitChars 10 digits 0 := by
      rw [Nat.ofDigitChars_append, Nat.ofDigitChars_append]
      show Nat.ofDigitChars 10 digits (Nat.ofDigitChars 10 (List.replicate _ '0') 0) = _
      rw [Nat.ofDigitChars_replicate_zero, mul_zero]
    rw [hvalue, List.length_append, List.length_replicate]
    congr 2
    push_cast
    omega
  · -- one digit and an exponent
    have hexponent : IsTail (exponentText (n - 1)) (n - 1) := Or.inr rfl
    have hread := readDecimal_whole (isWhole_of_head hdigits hne hhead) hexponent
    have htoken := isNumberToken_whole (isWhole_of_head hdigits hne hhead) hexponent
    refine ⟨hread.trans ?_, htoken⟩
    rw [h₄]
    rfl
  · -- a point after the first digit, and an exponent
    have hwhole : IsWhole (digits.take 1) := by
      refine isWhole_of_head (fun c hc => hdigits c (List.mem_of_mem_take hc)) ?_ ?_
      · intro h
        rcases List.take_eq_nil_iff.mp h with h | h
        · cases h
        · exact hne h
      · rw [List.head?_take, if_neg one_ne_zero]
        exact hhead
    have hfraction : ∀ c ∈ digits.drop 1, c.isDigit = true :=
      fun c hc => hdigits c (List.mem_of_mem_drop hc)
    have hdrop : digits.drop 1 ≠ [] := by
      intro h
      have := List.drop_eq_nil_iff.mp h
      omega
    have hexponent : IsTail (exponentText (n - 1)) (n - 1) := Or.inr rfl
    have hread := readDecimal_point hwhole hfraction hexponent
    have htoken := isNumberToken_point hwhole hfraction hdrop hexponent
    refine ⟨hread.trans (congrArg some ?_), htoken⟩
    rw [List.take_append_drop, List.length_drop]
    congr 2
    omega

/-- The text of a positive double is rounded to it. -/
lemma spells_positiveText {x : ℚ} (h : IsDouble x) (hx : 0 < x) :
    ∃ value, Spells (positiveText x) value ∧ 0 ≤ value ∧ nearest value = some x := by
  obtain ⟨hnearest, hpos⟩ := shortest_spec h hx
  have hspells := spells_layout (toDigits_isDigit (shortest x).1) Nat.toDigits_ne_nil
    (toDigits_head hpos) ((Nat.toDigits 10 (shortest x).1).length + (shortest x).2)
  rw [ofDigitChars_toDigits, add_sub_cancel_left] at hspells
  exact ⟨_, hspells, by positivity, hnearest⟩

/-! ## `Number` of what is written -/

lemma toNat_lt_of_isNumberChar {c : Char} (h : isNumberChar c = true) : c.toNat < 128 := by
  unfold isNumberChar at h
  simp only [Bool.or_eq_true, decide_eq_true_eq, Char.isDigit_iff_toNat] at h
  rcases h with ((((h | rfl) | rfl) | rfl) | rfl) | rfl
  · have : '9'.toNat = 57 := rfl
    omega
  all_goals decide

/-- What no ASCII character of a number is. -/
lemma of_isNumberChar {p : Char → Bool}
    (hp : ∀ n : Fin 128, isNumberChar (Char.ofNat n) = true → p (Char.ofNat n) = false) {c : Char}
    (h : isNumberChar c = true) : p c = false := by
  have hc := toNat_lt_of_isNumberChar h
  have hofNat := Char.ofNat_toNat c
  rw [← hofNat] at h ⊢
  exact hp ⟨c.toNat, hc⟩ h

lemma isSpace_of_isNumberChar {c : Char} (h : isNumberChar c = true) : isSpace c = false :=
  of_isNumberChar (by decide) h

lemma isNumberChar_of_mem_token {token : List Char} (h : isNumberToken token = true) :
    ∀ c ∈ token, isNumberChar c = true := by
  unfold isNumberToken at h
  exact List.all_eq_true.mp (Bool.and_eq_true_iff.mp h).1

/-- A number of JSON has no white space around it. -/
lemma trim_token {token : List Char} (h : isNumberToken token = true) : trim token = token := by
  have hall : ∀ c ∈ token, isSpace c = false :=
    fun c hc => isSpace_of_isNumberChar (isNumberChar_of_mem_token h c hc)
  have hkeep : ∀ cs : List Char, (∀ c ∈ cs, isSpace c = false) → cs.dropWhile isSpace = cs := by
    intro cs hcs
    cases cs with
    | nil => rfl
    | cons c cs => rw [List.dropWhile_cons, if_neg (by simp [hcs c List.mem_cons_self])]
  unfold trim
  rw [hkeep token hall, hkeep token.reverse (fun c hc => hall c (List.mem_reverse.mp hc)),
    List.reverse_reverse]

lemma radix_of_isNumberChar {c : Char} (h : isNumberChar c = true) : radix c = none := by
  unfold radix
  split_ifs with hx ho hb
  · rcases hx with rfl | rfl <;> exact absurd h (by decide)
  · rcases ho with rfl | rfl <;> exact absurd h (by decide)
  · rcases hb with rfl | rfl <;> exact absurd h (by decide)
  · rfl

/-- A number of JSON that has a value without its sign begins with a digit. -/
lemma Spells.head {text : List Char} {value : ℚ} (h : Spells text value) :
    ∃ c cs, text = c :: cs ∧ c.isDigit = true := by
  obtain ⟨c, cs, rfl, rfl | hc⟩ := isNumberToken_head h.2
  · have hread : readDecimal ('-' :: cs) = none := rfl
    exact absurd (hread.symm.trans h.1) (Option.some_ne_none _).symm
  · exact ⟨c, cs, rfl, hc⟩

lemma readUnsigned_of_spells {text : List Char} {value : ℚ} (h : Spells text value)
    (negative : Bool) : readUnsigned negative text = some (signed negative value) := by
  obtain ⟨c, cs, rfl, hc⟩ := h.head
  have hword : c :: cs ≠ "Infinity".toList := by
    intro heq
    cases heq
    exact absurd hc (by decide)
  unfold readUnsigned
  rw [if_neg hword, h.1]
  rfl

lemma isNumberToken_neg {text : List Char} {value : ℚ} (h : Spells text value) :
    isNumberToken ('-' :: text) = true := by
  obtain ⟨c, cs, rfl, hc⟩ := h.head
  have htoken := h.2
  unfold isNumberToken at htoken ⊢
  rw [List.head?_cons, if_neg (fun heq => isDigit_ne hc (by decide) (Option.some.inj heq))] at htoken
  rw [List.head?_cons, if_pos rfl, List.all_cons, List.tail_cons]
  exact htoken

/-- `Number` of a text with a sign and without it. -/
lemma toNumber_of_spells {text : List Char} {value : ℚ} (h : Spells text value) :
    toNumber (String.ofList text) = some (signed false value) ∧
      toNumber (String.ofList ('-' :: text)) = some (signed true value) := by
  constructor
  · obtain ⟨c, cs, rfl, hc⟩ := h.head
    have hradix : (if c = '0' then cs.head?.bind radix else none) = none := by
      split_ifs
      · cases cs with
        | nil => rfl
        | cons d cs => exact radix_of_isNumberChar (isNumberChar_of_mem_token h.2 d (by simp))
      · rfl
    unfold toNumber
    rw [String.toList_ofList, trim_token h.2]
    simp only [if_neg (isDigit_ne hc (show '-'.isDigit = false by decide)),
      if_neg (isDigit_ne hc (show '+'.isDigit = false by decide)), hradix]
    exact readUnsigned_of_spells h false
  · unfold toNumber
    rw [String.toList_ofList, trim_token (isNumberToken_neg h)]
    exact readUnsigned_of_spells h true

lemma spells_zero : Spells ['0'] 0 := by
  have hread := @readDecimal_whole ['0'] [] 0
    ⟨fun c hc => by cases List.mem_singleton.mp hc; decide, List.cons_ne_nil _ _, fun _ => rfl⟩
    (Or.inl ⟨rfl, rfl⟩)
  refine ⟨hread.trans ?_, by decide⟩
  have hzero : Nat.ofDigitChars 10 ['0'] 0 = 0 := rfl
  rw [hzero, Nat.cast_zero, zero_mul]

/-- **Round trip**: `Number` of what `String` writes for a double. -/
theorem toNumber_numberToString {q : ℚ} (h : IsDouble q) :
    isNumberToken (numberToString q).toList = true ∧
      toNumber (numberToString q) = some (.finite q) := by
  unfold numberToString
  rw [String.toList_ofList]
  split_ifs with hzero hneg
  · refine ⟨spells_zero.2, (toNumber_of_spells spells_zero).1.trans ?_⟩
    unfold signed
    rw [nearest_zero, hzero]
    rfl
  · obtain ⟨value, hspells, hvalue, hnearest⟩ := spells_positiveText h.neg (neg_pos.mpr hneg)
    refine ⟨isNumberToken_neg hspells, (toNumber_of_spells hspells).2.trans ?_⟩
    unfold signed
    simp only [hnearest, if_true, if_neg (neg_ne_zero.mpr hzero), neg_neg]
  · have hpos : 0 < q := lt_of_le_of_ne (not_lt.mp hneg) (Ne.symm hzero)
    obtain ⟨value, hspells, hvalue, hnearest⟩ := spells_positiveText h hpos
    refine ⟨hspells.2, (toNumber_of_spells hspells).1.trans ?_⟩
    unfold signed
    rw [hnearest]
    rfl

/-- The number a token of JSON stands for. -/
def tokenNumber (token : List Char) : JsNumber :=
  (toNumber (String.ofList token)).getD (.finite 0)

/-- A double is written back as itself. -/
theorem writtenBack_double {q : ℚ} (h : IsDouble q) :
    WrittenBack (fun q => (numberToString q).toList) tokenNumber (.finite q) := by
  obtain ⟨htoken, hnumber⟩ := toNumber_numberToString h
  refine ⟨htoken, ?_⟩
  unfold tokenNumber
  rw [String.ofList_toList, hnumber]
  rfl

/-! ## `Number` gives a number -/

lemma isDouble_zero : IsDouble 0 := (isDouble_of_nearest le_rfl nearest_zero).1

lemma readDecimal_nonneg {cs : List Char} {value : ℚ} (h : readDecimal cs = some value) :
    0 ≤ value := by
  unfold readDecimal at h
  simp only at h
  split_ifs at h
  obtain ⟨e, -, rfl⟩ := Option.map_eq_some_iff.mp h
  positivity

lemma isJsNumber_readUnsigned {negative : Bool} {cs : List Char} {n : JsNumber}
    (h : readUnsigned negative cs = some n) : IsJsNumber n := by
  unfold readUnsigned at h
  split_ifs at h
  · cases h
    trivial
  · obtain ⟨value, hvalue, rfl⟩ := Option.map_eq_some_iff.mp h
    exact isJsNumber_signed negative (readDecimal_nonneg hvalue)

theorem isJsNumber_toNumber {text : String} {n : JsNumber} (h : toNumber text = some n) :
    IsJsNumber n := by
  unfold toNumber at h
  split at h
  · cases h
    exact isDouble_zero
  · split_ifs at h
    · exact isJsNumber_readUnsigned h
    · exact isJsNumber_readUnsigned h
    · split at h
      · obtain ⟨value, -, rfl⟩ := Option.map_eq_some_iff.mp h
        exact isJsNumber_signed false (Nat.cast_nonneg value)
      · exact isJsNumber_readUnsigned h
    · exact isJsNumber_readUnsigned h

lemma isJsNumber_tokenNumber (token : List Char) : IsJsNumber (tokenNumber token) := by
  unfold tokenNumber
  cases h : toNumber (String.ofList token) with
  | none => exact isDouble_zero
  | some n => exact isJsNumber_toNumber h

end NumberText
