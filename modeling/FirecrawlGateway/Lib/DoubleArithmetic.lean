import FirecrawlGateway.Lib.NumberRoundTrip

/-!
# Arithmetic of doubles

Products and differences of the numbers of JavaScript, each rounded to the nearest double, and what
is rounded to at most a given number.
-/

namespace NumberText

/-! ## Rounding without an overflow -/

/-- A double, but for the largest exponent. -/
def OnGrid (d : ℚ) : Prop := ∃ m e : ℤ, |m| ≤ 2 ^ 53 ∧ -1074 ≤ e ∧ d = m * (2 : ℚ) ^ e

/-- What a number is rounded to when there is no largest double. -/
def rounded (x : ℚ) : ℚ := roundHalfEven (x / 2 ^ lastPlace x) * (2 : ℚ) ^ lastPlace x

/-- How often the last place goes into a number. -/
def places (x : ℚ) : ℤ := ⌊x / 2 ^ lastPlace x⌋

/-- The greatest double that is not above a number. -/
def down (x : ℚ) : ℚ := places x * (2 : ℚ) ^ lastPlace x

/-- Half a place above the greatest double that is not above a number. -/
def half (x : ℚ) : ℚ := (places x + 1 / 2) * (2 : ℚ) ^ lastPlace x

lemma nearest_eq (x : ℚ) : nearest x = if rounded x < 2 ^ 1024 then some (rounded x) else none := rfl

lemma IsDouble.onGrid {d : ℚ} (h : IsDouble d) : OnGrid d := by
  obtain ⟨m, e, hm, hlow, -, hd⟩ := h
  exact ⟨m, e, hm.le, hlow, hd⟩

lemma two_zpow_split (n : ℕ) (p : ℤ) : (2 : ℚ) ^ ((n : ℤ) + p) = 2 ^ n * 2 ^ p := by
  rw [zpow_add₀ (by norm_num), zpow_natCast]

/-- A number has at most 53 places above its last one. -/
lemma lt_places (x : ℚ) : x < 2 ^ 53 * (2 : ℚ) ^ lastPlace x := by
  have hlog : x < (2 : ℚ) ^ (Int.log 2 x + 1) := Int.lt_zpow_succ_log_self (by norm_num) x
  rw [← two_zpow_split]
  refine hlog.trans_le (zpow_le_zpow_right₀ (by norm_num) ?_)
  unfold lastPlace
  push_cast
  omega

/-- A number has all its places, or its last place is that of the smallest doubles. -/
lemma places_le {x : ℚ} (hx : 0 < x) :
    lastPlace x = -1074 ∨ 2 ^ 52 * (2 : ℚ) ^ lastPlace x ≤ x := by
  rcases max_choice (-1074) (Int.log 2 x - 52) with hmax | hmax
  · exact Or.inl hmax
  · right
    have hplace : lastPlace x = Int.log 2 x - 52 := hmax
    have hlog : ((52 : ℕ) : ℤ) + lastPlace x = Int.log 2 x := by omega
    rw [← two_zpow_split, hlog]
    exact Int.zpow_log_le_self (by norm_num) hx

lemma neg_le_lastPlace (x : ℚ) : -1074 ≤ lastPlace x := le_max_left _ _

lemma lt_succ_places (x : ℚ) : x < (places x + 1) * (2 : ℚ) ^ lastPlace x := by
  rw [← div_lt_iff₀ (two_zpow_pos _)]
  exact Int.lt_floor_add_one _

lemma down_le (x : ℚ) : down x ≤ x := by
  unfold down
  rw [← le_div_iff₀ (two_zpow_pos _)]
  exact Int.floor_le _

lemma places_nonneg {x : ℚ} (hx : 0 ≤ x) : 0 ≤ places x :=
  Int.floor_nonneg.mpr (div_nonneg hx (two_zpow_pos _).le)

lemma places_lt (x : ℚ) : places x < 2 ^ 53 := by
  refine Int.floor_lt.mpr ?_
  rw [div_lt_iff₀ (two_zpow_pos _)]
  exact_mod_cast lt_places x

/-- `n` places are a double, up to `2 ^ 53`. -/
lemma onGrid_places {n : ℤ} (hn : 0 ≤ n) (hn' : n ≤ 2 ^ 53) (x : ℚ) :
    OnGrid (n * (2 : ℚ) ^ lastPlace x) :=
  ⟨n, lastPlace x, by rwa [abs_of_nonneg hn], neg_le_lastPlace x, rfl⟩

lemma onGrid_down {x : ℚ} (hx : 0 ≤ x) : OnGrid (down x) :=
  onGrid_places (places_nonneg hx) (places_lt x).le x

lemma down_nonneg {x : ℚ} (hx : 0 ≤ x) : 0 ≤ down x :=
  mul_nonneg (by exact_mod_cast places_nonneg hx) (two_zpow_pos _).le

lemma rounded_zero : rounded 0 = 0 := by
  have hround : roundHalfEven 0 = 0 := by exact_mod_cast roundHalfEven_intCast 0
  unfold rounded
  rw [zero_div, hround, Int.cast_zero, zero_mul]

lemma rounded_nonneg {x : ℚ} (hx : 0 ≤ x) : 0 ≤ rounded x :=
  mul_nonneg (by exact_mod_cast roundHalfEven_nonneg (div_nonneg hx (two_zpow_pos _).le))
    (two_zpow_pos _).le

/-! ## Doubles on either side -/

/-- A multiple of a power of two is one of each smaller power. -/
lemma multiple_of_le (m : ℤ) {e p : ℤ} (h : p ≤ e) :
    (m : ℚ) * 2 ^ e = ((m * 2 ^ (e - p).toNat : ℤ) : ℚ) * 2 ^ p := by
  have hnat : ((e - p).toNat : ℤ) = e - p := Int.toNat_of_nonneg (by omega)
  push_cast
  rw [← zpow_natCast, hnat, mul_assoc, ← zpow_add₀ (by norm_num), sub_add_cancel]

/-- `2 ^ 53` places are at most `2 ^ 52` higher ones. -/
lemma places_of_lt {e p : ℤ} (h : e < p) : (2 : ℚ) ^ 53 * 2 ^ e ≤ 2 ^ 52 * 2 ^ p := by
  rw [← two_zpow_split, ← two_zpow_split]
  refine zpow_le_zpow_right₀ (by norm_num) ?_
  push_cast
  omega

/-- A double with a last place below that of a number has fewer places than it. -/
lemma onGrid_lt_places {m e p : ℤ} (hm : |m| ≤ 2 ^ 53) (h : e < p) :
    (m : ℚ) * 2 ^ e ≤ 2 ^ 52 * 2 ^ p := by
  have hm' : (m : ℚ) ≤ 2 ^ 53 := by exact_mod_cast (le_abs_self m).trans hm
  exact (mul_le_mul_of_nonneg_right hm' (two_zpow_pos e).le).trans (places_of_lt h)

/-- Between a number and a double that is not above it there is a number of its places. -/
lemma exists_places_between {d x : ℚ} (hd : OnGrid d) (hx : 0 < x) (h : d ≤ x) :
    ∃ n : ℤ, d ≤ n * (2 : ℚ) ^ lastPlace x ∧ n * (2 : ℚ) ^ lastPlace x ≤ x := by
  obtain ⟨m, e, hm, hlow, rfl⟩ := hd
  rcases le_or_gt (lastPlace x) e with hplace | hplace
  · exact ⟨_, (multiple_of_le m hplace).le, (multiple_of_le m hplace).symm.trans_le h⟩
  · rcases places_le hx with hsmall | hfull
    · omega
    · exact ⟨2 ^ 52, by exact_mod_cast onGrid_lt_places hm hplace, by exact_mod_cast hfull⟩

lemma le_rounded {d x : ℚ} (hd : OnGrid d) (hx : 0 < x) (h : d ≤ x) : d ≤ rounded x := by
  obtain ⟨n, hdn, hnx⟩ := exists_places_between hd hx h
  refine hdn.trans (mul_le_mul_of_nonneg_right ?_ (two_zpow_pos _).le)
  exact_mod_cast le_roundHalfEven ((le_div_iff₀ (two_zpow_pos _)).mpr hnx)

lemma le_down {d x : ℚ} (hd : OnGrid d) (hx : 0 < x) (h : d ≤ x) : d ≤ down x := by
  obtain ⟨n, hdn, hnx⟩ := exists_places_between hd hx h
  refine hdn.trans (mul_le_mul_of_nonneg_right ?_ (two_zpow_pos _).le)
  exact_mod_cast Int.le_floor.mpr ((le_div_iff₀ (two_zpow_pos _)).mpr hnx)

lemma rounded_le {d x : ℚ} (hd : OnGrid d) (hx : 0 ≤ x) (h : x ≤ d) : rounded x ≤ d := by
  rcases hx.eq_or_lt with rfl | hx
  · rwa [rounded_zero]
  -- the double is a number of places of `x`
  obtain ⟨n, hn⟩ : ∃ n : ℤ, d = n * (2 : ℚ) ^ lastPlace x := by
    obtain ⟨m, e, hm, hlow, rfl⟩ := hd
    rcases le_or_gt (lastPlace x) e with hplace | hplace
    · exact ⟨_, multiple_of_le m hplace⟩
    · rcases places_le hx with hsmall | hfull
      · omega
      · refine ⟨2 ^ 52, le_antisymm ?_ ?_⟩
        · exact_mod_cast onGrid_lt_places hm hplace
        · exact_mod_cast hfull.trans h
  rw [hn] at h ⊢
  refine mul_le_mul_of_nonneg_right ?_ (two_zpow_pos _).le
  have hscaled : x / 2 ^ lastPlace x ≤ n := (div_le_iff₀ (two_zpow_pos _)).mpr h
  rcases hscaled.eq_or_lt with heq | hlt
  · rw [heq, roundHalfEven_intCast]
  · exact_mod_cast roundHalfEven_le hlt

/-- Doubles are apart by a smallest one. -/
lemma add_smallest_le {d d' : ℚ} (hd : OnGrid d) (hd' : OnGrid d') (h : d < d') :
    d + (2 : ℚ) ^ (-1074 : ℤ) ≤ d' := by
  obtain ⟨m, e, -, hlow, rfl⟩ := hd
  obtain ⟨m', e', -, hlow', rfl⟩ := hd'
  rw [multiple_of_le m hlow, multiple_of_le m' hlow'] at h ⊢
  have hlt := lt_of_mul_lt_mul_right h (two_zpow_pos (-1074)).le
  have hle : ((m * 2 ^ (e - -1074).toNat : ℤ) : ℚ) + 1 ≤ (m' * 2 ^ (e' - -1074).toNat : ℤ) := by
    exact_mod_cast Int.add_one_le_of_lt (by exact_mod_cast hlt)
  calc ((m * 2 ^ (e - -1074).toNat : ℤ) : ℚ) * 2 ^ (-1074 : ℤ) + 2 ^ (-1074 : ℤ)
      = (((m * 2 ^ (e - -1074).toNat : ℤ) : ℚ) + 1) * 2 ^ (-1074 : ℤ) := by ring
    _ ≤ _ := mul_le_mul_of_nonneg_right hle (two_zpow_pos _).le

/-! ## What is rounded to at most a number -/

/-- The numbers between two neighbours have the same last place. -/
lemma lastPlace_of_between {b x : ℚ} (hb : 0 < b) (hx : 0 < x) (hlow : down b ≤ x)
    (hhigh : x < (places b + 1) * (2 : ℚ) ^ lastPlace b) : lastPlace x = lastPlace b := by
  refine le_antisymm ?_ ?_
  · by_contra hlt
    have hplaces : (places b : ℚ) + 1 ≤ 2 ^ 53 := by exact_mod_cast places_lt b
    rcases places_le hx with hsmall | hfull
    · have := neg_le_lastPlace b
      omega
    · have hbound := mul_le_mul_of_nonneg_right hplaces (two_zpow_pos (lastPlace b)).le
      exact absurd (hhigh.trans_le (hbound.trans (places_of_lt (not_le.mp hlt)))) (not_lt.mpr hfull)
  · by_contra hlt
    rcases places_le hb with hsmall | hfull
    · have := neg_le_lastPlace x
      omega
    · have hfull' : (2 : ℚ) ^ 52 * 2 ^ lastPlace b ≤ down b :=
        le_down ⟨2 ^ 52, lastPlace b, by norm_num, neg_le_lastPlace b, by norm_num⟩ hb hfull
      exact absurd ((lt_places x).trans_le (places_of_lt (not_le.mp hlt)))
        (not_lt.mpr (hfull'.trans hlow))

/-- A number between two neighbours is rounded to the closer one. -/
lemma rounded_of_between {b x : ℚ} (hb : 0 < b) (hx : 0 < x) (hlow : down b ≤ x)
    (hhigh : x < (places b + 1) * (2 : ℚ) ^ lastPlace b) :
    rounded x = if x < half b ∨ x = half b ∧ Even (places b) then down b
      else (places b + 1) * (2 : ℚ) ^ lastPlace b := by
  have hplace := lastPlace_of_between hb hx hlow hhigh
  have hpos := two_zpow_pos (lastPlace b)
  have hfloor : ⌊x / 2 ^ lastPlace b⌋ = places b := by
    rw [Int.floor_eq_iff]
    exact ⟨(le_div_iff₀ hpos).mpr hlow, (div_lt_iff₀ hpos).mpr hhigh⟩
  have hlt : x / 2 ^ lastPlace b - places b < 1 / 2 ↔ x < half b := by
    unfold half
    rw [sub_lt_iff_lt_add', div_lt_iff₀ hpos]
  have hgt : 1 / 2 < x / 2 ^ lastPlace b - places b ↔ half b < x := by
    unfold half
    rw [lt_sub_iff_add_lt', lt_div_iff₀ hpos]
  unfold rounded roundHalfEven
  rw [hplace, hfloor]
  simp only [hlt, hgt]
  unfold down
  rcases lt_trichotomy x (half b) with h | h | h
  · rw [if_pos h, if_pos (Or.inl h)]
  · rw [if_neg h.not_lt, if_neg h.not_gt]
    by_cases heven : Even (places b)
    · rw [if_pos heven, if_pos (Or.inr ⟨h, heven⟩)]
    · rw [if_neg heven, if_neg (not_or.mpr ⟨h.not_lt, fun h => heven h.2⟩)]
      push_cast
      rfl
  · rw [if_neg h.not_gt, if_pos h, if_neg (not_or.mpr ⟨h.not_gt, fun h' => h.ne' h'.1⟩)]
    push_cast
    rfl

lemma half_lt (b : ℚ) : half b < (places b + 1) * (2 : ℚ) ^ lastPlace b :=
  mul_lt_mul_of_pos_right (by linarith) (two_zpow_pos _)

lemma down_lt_half (b : ℚ) : down b < half b :=
  mul_lt_mul_of_pos_right (by linarith) (two_zpow_pos _)

/-- The numbers that are rounded to at most `b` end half a place above the double at `b`. -/
theorem rounded_le_iff {b x : ℚ} (hb : 0 < b) (hx : 0 ≤ x) :
    rounded x ≤ b ↔ x < half b ∨ x = half b ∧ Even (places b) := by
  have hgrid := onGrid_down hb.le
  rcases le_or_gt x (down b) with hlow | hlow
  · -- the double at `b` is above the number
    have hle := (rounded_le hgrid hx hlow).trans (down_le b)
    exact iff_of_true hle (Or.inl (hlow.trans_lt (down_lt_half b)))
  have hpos : 0 < x := (down_nonneg hb.le).trans_lt hlow
  rcases le_or_gt ((places b + 1) * (2 : ℚ) ^ lastPlace b) x with hhigh | hhigh
  · -- so is the next one below it
    have hgrid' := onGrid_places (n := places b + 1) (by linarith [places_nonneg hb.le])
      (places_lt b) b
    push_cast at hgrid'
    have hgt := (lt_succ_places b).trans_le (le_rounded hgrid' hpos hhigh)
    refine iff_of_false (not_le.mpr hgt) ?_
    have hhalf := (half_lt b).trans_le hhigh
    rintro (hlt | ⟨heq, -⟩)
    · exact hlt.not_gt hhalf
    · exact hhalf.ne' heq
  · rw [rounded_of_between hb hpos hlow.le hhigh]
    split_ifs with h
    · exact iff_of_true (down_le b) h
    · exact iff_of_false (not_le.mpr (lt_succ_places b)) h

/-- The greatest double that times `k` is rounded to at most `b`. -/
def below (k b : ℚ) : ℚ :=
  let candidate := down (half b / k)
  if rounded (candidate * k) ≤ b then candidate else down (candidate - (2 : ℚ) ^ (-1075 : ℤ))

theorem rounded_mul_le_iff {k b y : ℚ} (hk : 0 < k) (hb : 0 < b) (hy : OnGrid y) (hy' : 0 ≤ y) :
    rounded (y * k) ≤ b ↔ y ≤ below k b := by
  have hhalf : 0 < half b / k := div_pos ((down_nonneg hb.le).trans_lt (down_lt_half b)) hk
  have hgrid := onGrid_down hhalf.le
  have hnext : (2 : ℚ) ^ (-1075 : ℤ) < 2 ^ (-1074 : ℤ) :=
    zpow_lt_zpow_right₀ (by norm_num) (by norm_num)
  unfold below
  simp only
  constructor
  · intro h
    have hle : y ≤ down (half b / k) := by
      refine le_down hy hhalf ((le_div_iff₀ hk).mpr ?_)
      rcases (rounded_le_iff hb (mul_nonneg hy' hk.le)).mp h with hlt | ⟨heq, -⟩
      · exact hlt.le
      · exact heq.le
    split_ifs with hcandidate
    · exact hle
    · -- the candidate itself is too large
      have hne : y ≠ down (half b / k) := by
        rintro rfl
        exact hcandidate h
      have hapart := add_smallest_le hy hgrid (lt_of_le_of_ne hle hne)
      exact le_down hy (by linarith) (by linarith)
  · intro h
    split_ifs at h with hcandidate
    · rcases h.eq_or_lt with rfl | hlt
      · exact hcandidate
      · refine (rounded_le_iff hb (mul_nonneg hy' hk.le)).mpr (Or.inl ?_)
        exact (lt_div_iff₀ hk).mp (hlt.trans_le (down_le _))
    · refine (rounded_le_iff hb (mul_nonneg hy' hk.le)).mpr (Or.inl ?_)
      have hdown := h.trans (down_le _)
      have hcandidate' := down_le (half b / k)
      have hpos := two_zpow_pos (-1075)
      exact (lt_div_iff₀ hk).mp (by linarith)

/-- A double stays below when its product does not come above one that does. -/
lemma le_below {k b y g : ℚ} (hk : 0 < k) (hb : 0 < b) (hy : OnGrid y) (hy' : 0 ≤ y)
    (hg : OnGrid g) (hyg : y * k ≤ g) (hgb : g ≤ b) : y ≤ below k b :=
  (rounded_mul_le_iff hk hb hy hy').mp ((rounded_le hg (mul_nonneg hy' hk.le) hyg).trans hgb)

lemma half_le {b : ℚ} (hb : 0 < b) : half b ≤ 2 * b + 1 := by
  have hplace : (2 : ℚ) ^ lastPlace b ≤ b + 1 := by
    rcases places_le hb with hsmall | hfull
    · have hle : (2 : ℚ) ^ (-1074 : ℤ) ≤ 2 ^ (0 : ℤ) :=
        zpow_le_zpow_right₀ (by norm_num) (by norm_num)
      rw [hsmall]
      rw [zpow_zero] at hle
      linarith
    · have hpos := two_zpow_pos (lastPlace b)
      linarith
  have hdown : (places b : ℚ) * 2 ^ lastPlace b ≤ b := down_le b
  unfold half
  linarith [add_mul (places b : ℚ) (1 / 2) (2 ^ lastPlace b)]

lemma below_le {k b : ℚ} (hk : 1 ≤ k) (hb : 0 < b) : below k b ≤ 2 * b + 1 := by
  have hcandidate : down (half b / k) ≤ 2 * b + 1 :=
    calc down (half b / k) ≤ half b / k := down_le _
      _ ≤ half b := div_le_self ((down_nonneg hb.le).trans (down_lt_half b).le) hk
      _ ≤ 2 * b + 1 := half_le hb
  unfold below
  simp only
  split_ifs
  · exact hcandidate
  · have hdown := down_le (down (half b / k) - (2 : ℚ) ^ (-1075 : ℤ))
    have hpos := two_zpow_pos (-1075)
    linarith

/-! ## Products and differences -/

/-- Whether a number is written with a sign. -/
def isNegative : JsNumber → Bool
  | .finite q => q < 0
  | .negativeZero => true
  | .infinite negative => negative

/-- The size of a number; `none` is infinite. -/
def size : JsNumber → Option ℚ
  | .finite q => some |q|
  | .negativeZero => some 0
  | .infinite _ => none

/-- `x * y`; `none` is `NaN`. -/
def multiply (x y : JsNumber) : Option JsNumber :=
  let negative := isNegative x ^^ isNegative y
  match size x, size y with
  | some a, some b => some (signed negative (a * b))
  | some a, none => if a = 0 then none else some (.infinite negative)
  | none, some b => if b = 0 then none else some (.infinite negative)
  | none, none => some (.infinite negative)

/-- The difference of finite numbers. -/
def difference (a b : ℚ) : JsNumber :=
  if a = b then .finite 0 else signed (a < b) |a - b|

/-- `x - y`; `none` is `NaN`. -/
def subtract : JsNumber → JsNumber → Option JsNumber
  | .infinite a, .infinite b => if a = b then none else some (.infinite a)
  | .infinite a, _ => some (.infinite a)
  | _, .infinite b => some (.infinite !b)
  | .negativeZero, .finite b => some (if b = 0 then .negativeZero else difference 0 b)
  | .negativeZero, .negativeZero => some (.finite 0)
  | .finite a, .negativeZero => some (.finite a)
  | .finite a, .finite b => some (difference a b)

/-- The numbers that are not written with a sign. -/
def IsCount : JsNumber → Prop
  | .finite q => IsDouble q ∧ 0 ≤ q
  | .negativeZero => False
  | .infinite negative => negative = false

/-- A number that is at most `b`. -/
def AtMost (b : ℚ) : JsNumber → Prop
  | .finite q => q ≤ b
  | .negativeZero => 0 ≤ b
  | .infinite negative => negative = true

lemma signed_false (q : ℚ) :
    signed false q = if rounded q < 2 ^ 1024 then .finite (rounded q) else .infinite false := by
  unfold signed
  rw [nearest_eq]
  by_cases h : rounded q < 2 ^ 1024
  · rw [if_pos h, if_pos h]
    rfl
  · rw [if_neg h, if_neg h]

lemma isCount_signed {q : ℚ} (hq : 0 ≤ q) : IsCount (signed false q) := by
  rw [signed_false]
  split_ifs with h
  · exact isDouble_of_nearest hq ((nearest_eq q).trans (if_pos h))
  · rfl

lemma atMost_signed {b q : ℚ} (hb : b < 2 ^ 1024) : AtMost b (signed false q) ↔ rounded q ≤ b := by
  rw [signed_false]
  split_ifs with h
  · rfl
  · exact iff_of_false Bool.false_ne_true (not_le.mpr (hb.trans_le (not_lt.mp h)))

/-- A product is at most `b` when the other factor is at most the greatest double for it. -/
lemma multiply_spec {x : JsNumber} (hx : IsCount x) {k b : ℚ} (hk : 0 < k) (hb : 0 < b)
    (hsmall : b < 2 ^ 1024) : ∃ product, multiply x (.finite k) = some product ∧ IsCount product ∧
      (AtMost b product ↔ AtMost (below k b) x) := by
  have hsign : isNegative (.finite k) = false := decide_eq_false hk.not_gt
  cases x with
  | finite q =>
    obtain ⟨hdouble, hq⟩ := hx
    have hmul : multiply (.finite q) (.finite k) = some (signed false (q * k)) := by
      have hsign' : isNegative (.finite q) = false := decide_eq_false hq.not_gt
      unfold multiply
      rw [hsign, hsign']
      simp only [size, abs_of_nonneg hq, abs_of_pos hk, Bool.xor_false]
    exact ⟨_, hmul, isCount_signed (mul_nonneg hq hk.le),
      (atMost_signed hsmall).trans (rounded_mul_le_iff hk hb hdouble.onGrid hq)⟩
  | negativeZero => exact absurd hx id
  | infinite negative =>
    cases hx
    refine ⟨.infinite false, ?_, rfl, Iff.rfl⟩
    unfold multiply
    rw [hsign]
    simp only [size, abs_eq_zero, hk.ne', if_false]
    rfl

/-! ## Dates -/

def maxTime : ℤ := 8640000000000000

/-- The time value of `new Date(value)`; `none` is an invalid date. -/
def timeClip : JsNumber → Option ℤ
  | .finite q =>
    if |q| ≤ maxTime then some (if q < 0 then ⌈q⌉ else ⌊q⌋) else none
  | .negativeZero => some 0
  | .infinite _ => none

lemma half_maxTime : half maxTime = maxTime + 1 / 2 ∧ Even (places maxTime) := by
  have hlog : Int.log 2 ((maxTime : ℤ) : ℚ) = 52 := by
    have hcast : ((maxTime : ℤ) : ℚ) = ((8640000000000000 : ℕ) : ℚ) := by
      unfold maxTime
      norm_num
    rw [hcast, Int.log_natCast]
    norm_num [Nat.log_eq_iff]
  have hplace : lastPlace maxTime = 0 := by
    unfold lastPlace
    rw [hlog]
    rfl
  have hplaces : places maxTime = maxTime := by
    unfold places
    rw [hplace, zpow_zero, div_one, Int.floor_intCast]
  refine ⟨?_, ?_⟩
  · unfold half
    rw [hplaces, hplace, zpow_zero, mul_one]
  · rw [hplaces]
    decide

/-- A date is valid until half a millisecond after the last one. -/
lemma rounded_le_maxTime {x : ℚ} (hx : 0 ≤ x) : rounded x ≤ maxTime ↔ x ≤ maxTime + 1 / 2 := by
  have hpos : (0 : ℚ) < maxTime := by
    unfold maxTime
    norm_num
  rw [rounded_le_iff hpos hx, half_maxTime.1, le_iff_lt_or_eq]
  exact or_congr_right (and_iff_left half_maxTime.2)

lemma timeClip_finite (q : ℚ) : (timeClip (.finite q)).isSome ↔ |q| ≤ maxTime := by
  unfold timeClip
  simp only
  by_cases h : |q| ≤ maxTime
  · rw [if_pos h]
    exact iff_of_true rfl h
  · rw [if_neg h]
    exact iff_of_false Bool.false_ne_true h

lemma timeClip_signed (negative : Bool) {q : ℚ} (hq : 0 ≤ q) :
    (timeClip (signed negative q)).isSome ↔ q ≤ maxTime + 1 / 2 := by
  have hsize : ((maxTime : ℤ) : ℚ) < 2 ^ 1024 :=
    calc ((maxTime : ℤ) : ℚ) < 2 ^ 53 := by
          unfold maxTime
          norm_num
      _ ≤ 2 ^ 1024 := pow_le_pow_right₀ (by norm_num) (by norm_num)
  have hround := rounded_nonneg hq
  rw [← rounded_le_maxTime hq]
  unfold signed
  rw [nearest_eq]
  by_cases h : rounded q < 2 ^ 1024
  · rw [if_pos h]
    simp only
    split_ifs with hnegative hzero
    · rw [hzero]
      exact iff_of_true rfl (by unfold maxTime; norm_num)
    · rw [timeClip_finite, abs_neg, abs_of_nonneg hround]
    · rw [timeClip_finite, abs_of_nonneg hround]
  · rw [if_neg h]
    exact iff_of_false Bool.false_ne_true (not_le.mpr (hsize.trans_le (not_lt.mp h)))

/-- A date before a valid one, by some count of milliseconds. -/
lemma subtract_spec {time : ℤ} (htime : |time| ≤ maxTime) {x : JsNumber} (hx : IsCount x) :
    ∃ difference, subtract (.finite time) x = some difference ∧
      ((timeClip difference).isSome ↔ AtMost (time + maxTime + 1 / 2) x) := by
  have hlow : -(maxTime : ℚ) ≤ time := by exact_mod_cast (abs_le.mp htime).1
  have hhigh : (time : ℚ) ≤ maxTime := by exact_mod_cast (abs_le.mp htime).2
  cases x with
  | finite q =>
    obtain ⟨-, hq⟩ := hx
    refine ⟨_, rfl, ?_⟩
    show (timeClip (difference time q)).isSome ↔ q ≤ time + maxTime + 1 / 2
    unfold difference
    split_ifs with hzero
    · refine iff_of_true ?_ (by linarith)
      rw [timeClip_finite, abs_zero]
      unfold maxTime
      norm_num
    · rw [timeClip_signed _ (abs_nonneg _), abs_le]
      constructor
      · rintro ⟨h, -⟩
        linarith
      · intro h
        exact ⟨by linarith, by linarith⟩
  | negativeZero => exact absurd hx id
  | infinite negative =>
    cases hx
    exact ⟨.infinite true, rfl, iff_of_false Bool.false_ne_true Bool.false_ne_true⟩

/-- A whole number of milliseconds is taken off exactly. -/
lemma timeClip_difference {a b : ℤ} (h : |a - b| ≤ maxTime) :
    timeClip (difference a b) = some (a - b) := by
  have hmax : |a - b| < 2 ^ 53 := h.trans_lt (by unfold maxTime; norm_num)
  have hclip : ∀ n : ℤ, |n| ≤ maxTime → timeClip (.finite n) = some n := by
    intro n hn
    unfold timeClip
    simp only
    rw [if_pos (by exact_mod_cast hn), Int.ceil_intCast, Int.floor_intCast, ite_self]
  have hdouble : IsDouble ((|a - b| : ℤ) : ℚ) := isDouble_intCast (by rwa [abs_abs])
  have hcast : |(a : ℚ) - b| = ((|a - b| : ℤ) : ℚ) := by push_cast; rfl
  unfold difference
  rcases lt_trichotomy a b with hlt | rfl | hgt
  · have hpos : (0 : ℚ) < (|a - b| : ℤ) := by exact_mod_cast abs_pos.mpr (by omega)
    have hlt' : (a : ℚ) < b := by exact_mod_cast hlt
    rw [if_neg hlt'.ne, decide_eq_true hlt', hcast, (signed_of_pos hdouble hpos).2,
      abs_of_neg (by omega), neg_sub]
    have hneg : -(((b - a : ℤ)) : ℚ) = ((a - b : ℤ) : ℚ) := by push_cast; ring
    rw [hneg, hclip _ h]
  · rw [if_pos rfl, sub_self]
    exact hclip 0 (by rw [abs_zero]; decide)
  · have hpos : (0 : ℚ) < (|a - b| : ℤ) := by exact_mod_cast abs_pos.mpr (by omega)
    have hgt' : (b : ℚ) < a := by exact_mod_cast hgt
    rw [if_neg hgt'.ne', decide_eq_false hgt'.not_gt, hcast, (signed_of_pos hdouble hpos).1,
      abs_of_pos (by omega)]
    exact hclip _ h

end NumberText
