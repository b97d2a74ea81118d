import Mathlib.Tactic

/-!
# The UTC calendar of JavaScript

A time is a number of milliseconds since 1970-01-01, and a day is 86400000 of them. Years and months
tile the days: `Tiling` is what that means, and `yearOfDay` and `monthOfDay` find the tile of a day.
Months are numbered through (`12 * year + month`), which is how a month after December comes to be a
January.
-/

namespace UtcCalendar

/-! ## Tiles -/

/-- Consecutive intervals of integers, and the one that each integer is in. -/
structure Tiling where
  start : ℤ → ℤ
  index : ℤ → ℤ
  mono : StrictMono start
  start_le : ∀ d, start (index d) ≤ d
  lt_start : ∀ d, d < start (index d + 1)

namespace Tiling

variable (tiles : Tiling)

/-- Only one tile holds an integer. -/
lemma index_eq_iff {d n : ℤ} :
    tiles.index d = n ↔ tiles.start n ≤ d ∧ d < tiles.start (n + 1) := by
  constructor
  · rintro rfl
    exact ⟨tiles.start_le d, tiles.lt_start d⟩
  · rintro ⟨hle, hlt⟩
    have hupper : tiles.index d < n + 1 :=
      tiles.mono.lt_iff_lt.mp ((tiles.start_le d).trans_lt hlt)
    have hlower : n < tiles.index d + 1 := tiles.mono.lt_iff_lt.mp (hle.trans_lt (tiles.lt_start d))
    omega

lemma index_start (n : ℤ) : tiles.index (tiles.start n) = n :=
  tiles.index_eq_iff.mpr ⟨le_rfl, tiles.mono (lt_add_one n)⟩

lemma index_mono : Monotone tiles.index := by
  intro d e hde
  have hlt := tiles.mono.lt_iff_lt.mp ((tiles.start_le d).trans_lt (hde.trans_lt (tiles.lt_start e)))
  omega

/-- An integer past `d` is in the same tile exactly until the next tile starts. -/
lemma index_eq_index_iff {d e : ℤ} (hde : d ≤ e) :
    tiles.index e = tiles.index d ↔ e < tiles.start (tiles.index d + 1) := by
  rw [tiles.index_eq_iff]
  exact and_iff_right ((tiles.start_le d).trans hde)

/-- The same tiles, measured in a unit of which `k` make one. -/
def scale (k : ℤ) (hk : 0 < k) : Tiling where
  start n := tiles.start n * k
  index t := tiles.index (t / k)
  mono := fun _ _ h => mul_lt_mul_of_pos_right (tiles.mono h) hk
  start_le t := by
    have hle := mul_le_mul_of_nonneg_right (tiles.start_le (t / k)) hk.le
    exact hle.trans (Int.ediv_mul_le t hk.ne')
  lt_start t := Int.lt_mul_of_ediv_lt hk (tiles.lt_start (t / k))

end Tiling

/-! ## Years -/

/-- The number of days that a leap year has more. -/
def leapDay (year : ℤ) : ℤ := if year % 4 = 0 ∧ (year % 100 ≠ 0 ∨ year % 400 = 0) then 1 else 0

/-- `DayFromYear`. -/
def dayFromYear (year : ℤ) : ℤ :=
  365 * (year - 1970) + (year - 1969) / 4 - (year - 1901) / 100 + (year - 1601) / 400

lemma leapDay_cases (year : ℤ) : leapDay year = 0 ∨ leapDay year = 1 := by
  unfold leapDay
  split_ifs <;> simp

lemma dayFromYear_succ (year : ℤ) :
    dayFromYear (year + 1) = dayFromYear year + 365 + leapDay year := by
  unfold dayFromYear leapDay
  split_ifs <;> omega

lemma dayFromYear_strictMono : StrictMono dayFromYear := by
  refine strictMono_int_of_lt_succ fun year => ?_
  rw [dayFromYear_succ]
  rcases leapDay_cases year with h | h <;> omega

/-- The year of a day, from the mean length of a year. -/
def yearOfDay (day : ℤ) : ℤ :=
  let estimate := 1970 + day * 400 / 146097
  if day < dayFromYear estimate then estimate - 1
  else if dayFromYear (estimate + 1) ≤ day then estimate + 1
  else estimate

/-- The years, as tiles of days. -/
def years : Tiling where
  start := dayFromYear
  index := yearOfDay
  mono := dayFromYear_strictMono
  start_le day := by
    unfold yearOfDay dayFromYear
    dsimp only
    split_ifs <;> omega
  lt_start day := by
    unfold yearOfDay
    dsimp only
    split_ifs with hbefore hafter
    · rwa [sub_add_cancel]
    · unfold dayFromYear
      omega
    · exact not_le.mp hafter

/-! ## Months -/

/-- The days of a year before month `month`, which counts from 0. -/
def daysBeforeMonth (leap month : ℤ) : ℤ :=
  if month ≤ 0 then 0
  else if month = 1 then 31
  else if month = 2 then 59 + leap
  else if month = 3 then 90 + leap
  else if month = 4 then 120 + leap
  else if month = 5 then 151 + leap
  else if month = 6 then 181 + leap
  else if month = 7 then 212 + leap
  else if month = 8 then 243 + leap
  else if month = 9 then 273 + leap
  else if month = 10 then 304 + leap
  else 334 + leap

section Values

variable (leap : ℤ)

@[simp] lemma daysBeforeMonth_zero : daysBeforeMonth leap 0 = 0 := rfl
@[simp] lemma daysBeforeMonth_one : daysBeforeMonth leap 1 = 31 := rfl
@[simp] lemma daysBeforeMonth_two : daysBeforeMonth leap 2 = 59 + leap := rfl
@[simp] lemma daysBeforeMonth_three : daysBeforeMonth leap 3 = 90 + leap := rfl
@[simp] lemma daysBeforeMonth_four : daysBeforeMonth leap 4 = 120 + leap := rfl
@[simp] lemma daysBeforeMonth_five : daysBeforeMonth leap 5 = 151 + leap := rfl
@[simp] lemma daysBeforeMonth_six : daysBeforeMonth leap 6 = 181 + leap := rfl
@[simp] lemma daysBeforeMonth_seven : daysBeforeMonth leap 7 = 212 + leap := rfl
@[simp] lemma daysBeforeMonth_eight : daysBeforeMonth leap 8 = 243 + leap := rfl
@[simp] lemma daysBeforeMonth_nine : daysBeforeMonth leap 9 = 273 + leap := rfl
@[simp] lemma daysBeforeMonth_ten : daysBeforeMonth leap 10 = 304 + leap := rfl
@[simp] lemma daysBeforeMonth_eleven : daysBeforeMonth leap 11 = 334 + leap := rfl

end Values

/-- The last month up to `month` that has begun on a day of the year. -/
def lastBegun (leap day : ℤ) : ℕ → ℤ
  | 0 => 0
  | month + 1 =>
    if daysBeforeMonth leap (month + 1 : ℕ) ≤ day then (month + 1 : ℕ) else lastBegun leap day month

/-- `MonthFromTime`, from the number of days since the year began. -/
def monthOfYearDay (leap day : ℤ) : ℤ := lastBegun leap day 11

lemma lastBegun_spec (leap : ℤ) {day : ℤ} (hpos : 0 ≤ day) (month : ℕ) :
    (0 ≤ lastBegun leap day month ∧ lastBegun leap day month ≤ month) ∧
      daysBeforeMonth leap (lastBegun leap day month) ≤ day ∧
      (lastBegun leap day month = month ∨
        day < daysBeforeMonth leap (lastBegun leap day month + 1)) := by
  induction month with
  | zero => exact ⟨⟨le_rfl, le_rfl⟩, hpos, Or.inl rfl⟩
  | succ month ih =>
    unfold lastBegun
    split_ifs with hbegun
    · exact ⟨⟨Int.natCast_nonneg _, le_rfl⟩, hbegun, Or.inl rfl⟩
    · obtain ⟨⟨hnonneg, hle⟩, hstart, hend⟩ := ih
      refine ⟨⟨hnonneg, ?_⟩, hstart, Or.inr ?_⟩
      · rw [Nat.cast_succ]
        omega
      · rcases hend with hlast | hend
        · rw [hlast, ← Nat.cast_succ]
          exact not_le.mp hbegun
        · exact hend

/-- The first day of month number `n`, counted through from the year 0. -/
def dayFromMonth (n : ℤ) : ℤ :=
  dayFromYear (n / 12) + daysBeforeMonth (leapDay (n / 12)) (n % 12)

lemma daysBeforeMonth_succ_le {leap month : ℤ} (hleap : leap = 0 ∨ leap = 1) (hpos : 0 ≤ month)
    (hlt : month < 11) : daysBeforeMonth leap (month + 1) ≤ daysBeforeMonth leap month + 31 := by
  rcases hleap with rfl | rfl <;> interval_cases month <;> decide

/-- A month has 31 days at most. -/
lemma dayFromMonth_succ_le (n : ℤ) : dayFromMonth (n + 1) ≤ dayFromMonth n + 31 := by
  unfold dayFromMonth
  have hleap := leapDay_cases (n / 12)
  have hmod : 0 ≤ n % 12 ∧ n % 12 < 12 := by omega
  by_cases hlast : n % 12 = 11
  · have hdiv : (n + 1) / 12 = n / 12 + 1 := by omega
    have hzero : (n + 1) % 12 = 0 := by omega
    rw [hdiv, hzero, hlast, dayFromYear_succ, daysBeforeMonth_zero, daysBeforeMonth_eleven]
    omega
  · have hdiv : (n + 1) / 12 = n / 12 := by omega
    have hsucc : (n + 1) % 12 = n % 12 + 1 := by omega
    rw [hdiv, hsucc]
    have hmonth := daysBeforeMonth_succ_le hleap hmod.1 (by omega)
    omega

/-- The number of the month of a day. -/
def monthOfDay (day : ℤ) : ℤ :=
  12 * yearOfDay day +
    monthOfYearDay (leapDay (yearOfDay day)) (day - dayFromYear (yearOfDay day))

lemma daysBeforeMonth_lt_succ {leap month : ℤ} (hleap : leap = 0 ∨ leap = 1) (hpos : 0 ≤ month)
    (hlt : month < 11) : daysBeforeMonth leap month < daysBeforeMonth leap (month + 1) := by
  rcases hleap with rfl | rfl <;> interval_cases month <;> decide

lemma dayFromMonth_lt_succ (n : ℤ) : dayFromMonth n < dayFromMonth (n + 1) := by
  unfold dayFromMonth
  have hleap := leapDay_cases (n / 12)
  have hmod : 0 ≤ n % 12 ∧ n % 12 < 12 := by omega
  by_cases hlast : n % 12 = 11
  · -- December to January
    have hdiv : (n + 1) / 12 = n / 12 + 1 := by omega
    have hzero : (n + 1) % 12 = 0 := by omega
    rw [hdiv, hzero, hlast, dayFromYear_succ, daysBeforeMonth_zero, daysBeforeMonth_eleven]
    omega
  · have hdiv : (n + 1) / 12 = n / 12 := by omega
    have hsucc : (n + 1) % 12 = n % 12 + 1 := by omega
    rw [hdiv, hsucc]
    have hmonth := daysBeforeMonth_lt_succ hleap hmod.1 (by omega)
    omega

lemma yearDay_bounds (day : ℤ) : 0 ≤ day - dayFromYear (yearOfDay day) ∧
    day - dayFromYear (yearOfDay day) < 365 + leapDay (yearOfDay day) := by
  have hle := years.start_le day
  have hlt := years.lt_start day
  have hsucc : years.start (years.index day + 1) = dayFromYear (yearOfDay day) + 365 +
    leapDay (yearOfDay day) := dayFromYear_succ _
  have hstart : years.start (years.index day) = dayFromYear (yearOfDay day) := rfl
  omega

lemma monthOfDay_div (day : ℤ) : monthOfDay day / 12 = yearOfDay day := by
  obtain ⟨hpos, hlt⟩ := yearDay_bounds day
  obtain ⟨hmonth, -, -⟩ := lastBegun_spec (leapDay (yearOfDay day)) hpos 11
  unfold monthOfDay monthOfYearDay
  omega

lemma monthOfDay_mod (day : ℤ) : monthOfDay day % 12 =
    monthOfYearDay (leapDay (yearOfDay day)) (day - dayFromYear (yearOfDay day)) := by
  obtain ⟨hpos, hlt⟩ := yearDay_bounds day
  obtain ⟨hmonth, -, -⟩ := lastBegun_spec (leapDay (yearOfDay day)) hpos 11
  unfold monthOfDay monthOfYearDay
  omega

/-- The months, as tiles of days. -/
def months : Tiling where
  start := dayFromMonth
  index := monthOfDay
  mono := strictMono_int_of_lt_succ dayFromMonth_lt_succ
  start_le day := by
    obtain ⟨hpos, hlt⟩ := yearDay_bounds day
    obtain ⟨-, hle, -⟩ := lastBegun_spec (leapDay (yearOfDay day)) hpos 11
    unfold dayFromMonth
    rw [monthOfDay_div, monthOfDay_mod]
    unfold monthOfYearDay
    omega
  lt_start day := by
    obtain ⟨hpos, hlt⟩ := yearDay_bounds day
    obtain ⟨hmonth, -, hnext⟩ := lastBegun_spec (leapDay (yearOfDay day)) hpos 11
    have hdiv := monthOfDay_div day
    have hmod := monthOfDay_mod day
    unfold monthOfYearDay at hmod
    unfold dayFromMonth
    rcases hnext with hlast | hnext
    · -- the last month ends with the year
      have hdiv' : (monthOfDay day + 1) / 12 = yearOfDay day + 1 := by omega
      have hmod' : (monthOfDay day + 1) % 12 = 0 := by omega
      rw [hdiv', hmod', dayFromYear_succ, daysBeforeMonth_zero]
      omega
    · by_cases hlast : monthOfDay day % 12 = 11
      · have hdiv' : (monthOfDay day + 1) / 12 = yearOfDay day + 1 := by omega
        have hmod' : (monthOfDay day + 1) % 12 = 0 := by omega
        rw [hdiv', hmod', dayFromYear_succ, daysBeforeMonth_zero]
        omega
      · have hdiv' : (monthOfDay day + 1) / 12 = yearOfDay day := by omega
        have hmod' : (monthOfDay day + 1) % 12 = monthOfDay day % 12 + 1 := by omega
        rw [hdiv', hmod', hmod]
        omega

/-! ## Times -/

def msPerDay : ℤ := 86400000

lemma msPerDay_pos : 0 < msPerDay := by decide

/-- The days, as tiles of milliseconds. -/
def dayTimes : Tiling :=
  Tiling.scale ⟨id, id, strictMono_id, fun _ => le_rfl, Int.lt_succ⟩ msPerDay msPerDay_pos

/-- The months, as tiles of milliseconds. -/
def monthTimes : Tiling := months.scale msPerDay msPerDay_pos

/-- `getUTCFullYear`. -/
def utcFullYear (t : ℤ) : ℤ := yearOfDay (t / msPerDay)

/-- The days since the year of `t` began. -/
def yearDay (t : ℤ) : ℤ := t / msPerDay - dayFromYear (utcFullYear t)

/-- `getUTCMonth`, which counts from 0. -/
def utcMonth (t : ℤ) : ℤ := monthOfYearDay (leapDay (utcFullYear t)) (yearDay t)

/-- `getUTCDate`. -/
def utcDate (t : ℤ) : ℤ := yearDay t - daysBeforeMonth (leapDay (utcFullYear t)) (utcMonth t) + 1

/-- `MakeDay`: a month may be in a later or an earlier year. -/
def makeDay (year month date : ℤ) : ℤ :=
  dayFromYear (year + month / 12) +
    daysBeforeMonth (leapDay (year + month / 12)) (month % 12) + date - 1

/-- `TimeClip`: a date far from 1970 is invalid. -/
def timeClip (t : ℤ) : Option ℤ :=
  if -8640000000000000 ≤ t ∧ t ≤ 8640000000000000 then some t else none

/-- `Date.UTC` of a year, a month and a day; the years 0 to 99 stand for 1900 to 1999. -/
def utc (year month date : ℤ) : Option ℤ :=
  let year := if 0 ≤ year ∧ year ≤ 99 then 1900 + year else year
  timeClip (makeDay year month date * msPerDay)

lemma utcMonth_bounds (t : ℤ) : 0 ≤ utcMonth t ∧ utcMonth t ≤ 11 :=
  (lastBegun_spec _ (yearDay_bounds (t / msPerDay)).1 11).1

lemma timeClip_eq_some {t : ℤ} (hpos : -8640000000000000 ≤ t) (hle : t ≤ 8640000000000000) :
    timeClip t = some t := if_pos ⟨hpos, hle⟩

/-- Year and month of a time are the number of its month. -/
lemma monthTimes_index (t : ℤ) : monthTimes.index t = 12 * utcFullYear t + utcMonth t := rfl

lemma monthTimes_index_eq_iff {s t : ℤ} : monthTimes.index s = monthTimes.index t ↔
    utcFullYear s = utcFullYear t ∧ utcMonth s = utcMonth t := by
  rw [monthTimes_index, monthTimes_index]
  have hs := utcMonth_bounds s
  have ht := utcMonth_bounds t
  omega

lemma makeDay_eq (year month date : ℤ) :
    makeDay year month date = dayFromMonth (12 * year + month) + date - 1 := by
  have hdiv : (12 * year + month) / 12 = year + month / 12 := by omega
  have hmod : (12 * year + month) % 12 = month % 12 := by omega
  unfold makeDay dayFromMonth
  rw [hdiv, hmod]

/-- The day of a time, from its year, month and date. -/
lemma makeDay_utcDate (t : ℤ) :
    makeDay (utcFullYear t) (utcMonth t) (utcDate t) = t / msPerDay := by
  have hmonth := utcMonth_bounds t
  have hdiv : utcMonth t / 12 = 0 := by omega
  have hmod : utcMonth t % 12 = utcMonth t := by omega
  unfold makeDay
  rw [hdiv, hmod, add_zero]
  unfold utcDate yearDay
  omega

lemma dayTimes_start (n : ℤ) : dayTimes.start n = n * msPerDay := rfl

/-- Year, month and date of a time are those of its day. -/
lemma dayTimes_index_eq_iff {s t : ℤ} : dayTimes.index s = dayTimes.index t ↔
    utcFullYear s = utcFullYear t ∧ utcMonth s = utcMonth t ∧ utcDate s = utcDate t := by
  have hindex : ∀ t, dayTimes.index t = t / msPerDay := fun _ => rfl
  rw [hindex, hindex]
  constructor
  · intro h
    have hyear : utcFullYear s = utcFullYear t := congrArg yearOfDay h
    have hday : yearDay s = yearDay t := by
      unfold yearDay
      rw [h, hyear]
    have hmonth : utcMonth s = utcMonth t := by
      unfold utcMonth
      rw [hyear, hday]
    refine ⟨hyear, hmonth, ?_⟩
    unfold utcDate
    rw [hday, hyear, hmonth]
  · rintro ⟨hyear, hmonth, hdate⟩
    rw [← makeDay_utcDate s, ← makeDay_utcDate t, hyear, hmonth, hdate]

/-- The month after the one of `t` starts within 31 days. -/
lemma next_month_bounds (t : ℤ) : t < monthTimes.start (monthTimes.index t + 1) ∧
    monthTimes.start (monthTimes.index t + 1) ≤ t + 31 * msPerDay := by
  refine ⟨monthTimes.lt_start t, ?_⟩
  have hsucc := dayFromMonth_succ_le (monthTimes.index t)
  have hstart := monthTimes.start_le t
  have hthis : monthTimes.start (monthTimes.index t) =
    dayFromMonth (monthTimes.index t) * msPerDay := rfl
  have hnext : monthTimes.start (monthTimes.index t + 1) =
    dayFromMonth (monthTimes.index t + 1) * msPerDay := rfl
  unfold msPerDay at *
  omega

lemma utcFullYear_mono : Monotone utcFullYear := fun _ _ h =>
  years.index_mono (Int.ediv_le_ediv msPerDay_pos h)

lemma utcFullYear_ge_1970 {t : ℤ} (h : 0 ≤ t) : 1970 ≤ utcFullYear t :=
  le_trans (show (1970 : ℤ) ≤ utcFullYear 0 by decide) (utcFullYear_mono h)

/-- `Date.UTC` of the first of a month, away from the years that it reads as 1900 to 1999. -/
lemma utc_eq {year month : ℤ} (hyear : year < 0 ∨ 99 < year) :
    utc year month 1 = timeClip (monthTimes.start (12 * year + month)) := by
  have hshort : ¬ (0 ≤ year ∧ year ≤ 99) := by omega
  unfold utc
  dsimp only
  rw [if_neg hshort, makeDay_eq, add_sub_cancel_right]
  rfl

/-- `Date.UTC` of the day of a time. -/
lemma utc_utcDate {t : ℤ} (hyear : utcFullYear t < 0 ∨ 99 < utcFullYear t) :
    utc (utcFullYear t) (utcMonth t) (utcDate t) =
      timeClip (dayTimes.start (dayTimes.index t)) := by
  have hshort : ¬ (0 ≤ utcFullYear t ∧ utcFullYear t ≤ 99) := by omega
  unfold utc
  dsimp only
  rw [if_neg hshort, makeDay_utcDate]
  rfl

end UtcCalendar
