import FirecrawlGateway.Lib.FixedFields
import FirecrawlGateway.Lib.UtcCalendar

/-!
# The ISO texts of times

`toISOString` writes a time in UTC to the millisecond, as `2026-01-31T23:59:59.999Z`. For the years
0 to 9999 the text is read back as the time it was written for, and texts are ordered as times are.
-/

namespace IsoText

open UtcCalendar FixedFields

/-! ## Writing and reading -/

/-- `YYYY-MM-DDTHH:mm:ss.sssZ`. -/
def isoLayout : List Field :=
  [⟨4, '-'⟩, ⟨2, '-'⟩, ⟨2, 'T'⟩, ⟨2, ':'⟩, ⟨2, ':'⟩, ⟨2, '.'⟩, ⟨3, 'Z'⟩]

def msInDay (t : ℤ) : ℤ := t % msPerDay

/-- Month, date and time of day. -/
def yearFields (t : ℤ) : List ℕ :=
  [(utcMonth t + 1).toNat, (utcDate t).toNat, (msInDay t / 3600000).toNat,
    (msInDay t / 60000 % 60).toNat, (msInDay t / 1000 % 60).toNat, (msInDay t % 1000).toNat]

/-- The years that are written with four digits. -/
def InFourDigits (t : ℤ) : Prop := 0 ≤ utcFullYear t ∧ utcFullYear t ≤ 9999

instance (t : ℤ) : Decidable (InFourDigits t) :=
  inferInstanceAs (Decidable (0 ≤ utcFullYear t ∧ utcFullYear t ≤ 9999))

/-- `toISOString`: another year has a sign and six digits. -/
def toISOString (t : ℤ) : List Char :=
  if InFourDigits t then write isoLayout ((utcFullYear t).toNat :: yearFields t)
  else (if utcFullYear t < 0 then '-' else '+') ::
    write (⟨6, '-'⟩ :: isoLayout.tail) ((utcFullYear t).natAbs :: yearFields t)

/-- The time of some fields. A day up to the 31st may be one of the next month, and a day may end
with the hour 24. -/
def timeOfFields : List ℕ → Option ℤ
  | [year, month, date, hours, minutes, seconds, ms] =>
    if (1 ≤ month ∧ month ≤ 12) ∧ (1 ≤ date ∧ date ≤ 31) ∧ minutes < 60 ∧ seconds < 60 ∧
        (hours < 24 ∨ hours = 24 ∧ minutes = 0 ∧ seconds = 0 ∧ ms = 0) then
      some (makeDay year (month - 1) date * msPerDay + hours * 3600000 + minutes * 60000 +
        seconds * 1000 + ms)
    else none
  | _ => none

/-- `new Date(text)` for a text of `YYYY-MM-DDTHH:mm:ss.sssZ`. -/
def readIso (text : List Char) : Option ℤ := (read isoLayout text).bind timeOfFields

/-! ## Bounds -/

lemma utcDate_eq (t : ℤ) :
    utcDate t = t / msPerDay - dayFromMonth (monthTimes.index t) + 1 := by
  have hday := makeDay_utcDate t
  rw [makeDay_eq, ← monthTimes_index] at hday
  omega

lemma utcDate_bounds (t : ℤ) : 1 ≤ utcDate t ∧ utcDate t ≤ 31 := by
  have hle := months.start_le (t / msPerDay)
  have hlt := months.lt_start (t / msPerDay)
  have hsucc := dayFromMonth_succ_le (monthTimes.index t)
  have hindex : months.index (t / msPerDay) = monthTimes.index t := rfl
  have hstart : ∀ n, months.start n = dayFromMonth n := fun _ => rfl
  rw [hindex, hstart] at hle hlt
  rw [utcDate_eq]
  omega

lemma msInDay_bounds (t : ℤ) : 0 ≤ msInDay t ∧ msInDay t < 86400000 :=
  ⟨Int.emod_nonneg t msPerDay_pos.ne', Int.emod_lt_of_pos t msPerDay_pos⟩

lemma msInDay_eq (t : ℤ) : t = t / msPerDay * msPerDay + msInDay t :=
  (Int.ediv_mul_add_emod t msPerDay).symm

lemma fits_isoLayout {t : ℤ} (h : InFourDigits t) :
    Fits isoLayout ((utcFullYear t).toNat :: yearFields t) := by
  obtain ⟨hpos, hle⟩ := h
  have hmonth := utcMonth_bounds t
  have hdate := utcDate_bounds t
  have hms := msInDay_bounds t
  refine .cons ?_ (.cons ?_ (.cons ?_ (.cons ?_ (.cons ?_ (.cons ?_ (.cons ?_ .nil))))))
  · show (utcFullYear t).toNat < 10000
    omega
  · show (utcMonth t + 1).toNat < 100
    omega
  · show (utcDate t).toNat < 100
    omega
  · show (msInDay t / 3600000).toNat < 100
    omega
  · show (msInDay t / 60000 % 60).toNat < 100
    omega
  · show (msInDay t / 1000 % 60).toNat < 100
    omega
  · show (msInDay t % 1000).toNat < 1000
    omega

/-! ## Round trip -/

lemma timeOfFields_fields {t : ℤ} (h : InFourDigits t) :
    timeOfFields ((utcFullYear t).toNat :: yearFields t) = some t := by
  obtain ⟨hpos, hle⟩ := h
  have hmonth := utcMonth_bounds t
  have hdate := utcDate_bounds t
  have hms := msInDay_bounds t
  unfold yearFields timeOfFields
  dsimp only
  rw [if_pos (by omega), Int.toNat_of_nonneg hpos, Int.toNat_of_nonneg (by omega),
    Int.toNat_of_nonneg (by omega), add_sub_cancel_right, makeDay_utcDate]
  congr 1
  have hday := msInDay_eq t
  generalize t / msPerDay * msPerDay = start at *
  omega

/-- A time is read back from its text. -/
theorem readIso_toISOString {t : ℤ} (h : InFourDigits t) : readIso (toISOString t) = some t := by
  unfold readIso toISOString
  rw [if_pos h, read_write (fits_isoLayout h), Option.bind_some, timeOfFields_fields h]

/-! ## Order -/

lemma timeFields_lt {x y : ℤ} (hx : 0 ≤ x) (hxy : x < y) :
    [(x / 3600000).toNat, (x / 60000 % 60).toNat, (x / 1000 % 60).toNat, (x % 1000).toNat] <
      [(y / 3600000).toNat, (y / 60000 % 60).toNat, (y / 1000 % 60).toNat, (y % 1000).toNat] := by
  simp only [List.cons_lt_cons_iff, List.not_lt_nil, and_false, or_false]
  omega

lemma yearFields_lt {s t : ℤ} (hst : s < t) (hyear : utcFullYear s = utcFullYear t) :
    yearFields s < yearFields t := by
  have hs := utcMonth_bounds s
  have hdate := utcDate_bounds s
  have hindex : monthTimes.index s ≤ monthTimes.index t := monthTimes.index_mono hst.le
  rw [monthTimes_index, monthTimes_index] at hindex
  have hday : s / msPerDay ≤ t / msPerDay := Int.ediv_le_ediv msPerDay_pos hst.le
  have hdates := utcDate_eq s
  have hdatet := utcDate_eq t
  unfold yearFields
  rw [List.cons_lt_cons_iff, List.cons_lt_cons_iff]
  by_cases hmonth : utcMonth s = utcMonth t
  · -- the same month: an earlier day, or an earlier time of the day
    have hsame : monthTimes.index s = monthTimes.index t := by
      rw [monthTimes_index, monthTimes_index, hyear, hmonth]
    rw [hsame] at hdates
    refine Or.inr ⟨by rw [hmonth], ?_⟩
    by_cases hdate' : s / msPerDay = t / msPerDay
    · have hms : msInDay s < msInDay t := by
        have hs := msInDay_eq s
        have ht := msInDay_eq t
        rw [hdate'] at hs
        omega
      exact Or.inr ⟨by rw [hdates, hdatet, hdate'], timeFields_lt (msInDay_bounds s).1 hms⟩
    · exact Or.inl (by omega)
  · exact Or.inl (by omega)

/-- Texts of times are ordered as the times are. -/
theorem toISOString_lt_iff {s t : ℤ} (hs : InFourDigits s) (ht : InFourDigits t) :
    toISOString s < toISOString t ↔ s < t := by
  have hstep : ∀ {s t : ℤ}, InFourDigits s → InFourDigits t → s < t →
      toISOString s < toISOString t := by
    intro s t hs ht hst
    unfold toISOString
    rw [if_pos hs, if_pos ht, write_lt_iff (fits_isoLayout hs) (fits_isoLayout ht),
      List.cons_lt_cons_iff]
    have hle := utcFullYear_mono hst.le
    obtain ⟨hpos, -⟩ := hs
    by_cases hyear : utcFullYear s = utcFullYear t
    · exact Or.inr ⟨by rw [hyear], yearFields_lt hst hyear⟩
    · exact Or.inl (by omega)
  constructor
  · intro hlt
    by_contra hnot
    rcases (not_lt.mp hnot).lt_or_eq with hgt | heq
    · exact lt_asymm hlt (hstep ht hs hgt)
    · rw [heq] at hlt
      exact lt_irrefl _ hlt
  · exact hstep hs ht

end IsoText
