import FirecrawlGateway.Audit.AuditService

/-!
# What a deletion of the history takes

`Date.UTC` gives the starts of the day and of the month of `now`, which are tiles of the calendar.
So a deletion takes the rows of the same UTC day or month as `now`, whatever their lengths.
-/

namespace FirecrawlGateway
namespace AuditService

open UtcCalendar

/-- The times that a filter stands for. -/
def InPeriod (now t : ℤ) : DeleteFilter → Prop
  | .today => utcFullYear t = utcFullYear now ∧ utcMonth t = utcMonth now ∧ utcDate t = utcDate now
  | .week => now - 7 * msPerDay ≤ t
  | .month => utcFullYear t = utcFullYear now ∧ utcMonth t = utcMonth now
  | .all => True

/-! ## Ranges -/

/-- Rows are counted in what is taken or in what is left. -/
lemma countP_add_length_filter {α : Type} (p : α → Prop) [DecidablePred p] (rows : List α) :
    rows.countP (fun row => p row) + (rows.filter fun row => ¬ p row).length = rows.length := by
  have hsplit := List.length_eq_countP_add_countP (fun row => decide (p row)) (l := rows)
  rw [hsplit, ← List.countP_eq_length_filter]
  simp

section

variable {now : ℤ} (hpos : 0 ≤ now) (hle : now ≤ 8640000000000000 - 31 * msPerDay)
include hpos hle

/-- The range of a filter is valid, and holds the times of its period. -/
lemma deletionRange_spec (filter : DeleteFilter) :
    ((deletionRange now filter).1 ≠ some none ∧ (deletionRange now filter).2 ≠ some none) ∧
      ∀ t, (∀ s ∈ (deletionRange now filter).1.join, s ≤ t) ∧
        (∀ s ∈ (deletionRange now filter).2.join, t < s) ↔ InPeriod now t filter := by
  have hyear := utcFullYear_ge_1970 hpos
  unfold msPerDay at hle
  cases filter with
  | today =>
    have hstart := dayTimes.start_le now
    have hstop := dayTimes.lt_start now
    have hnext : dayTimes.start (dayTimes.index now) + 24 * 60 * 60 * 1000 =
        dayTimes.start (dayTimes.index now + 1) := by
      rw [dayTimes_start, dayTimes_start, add_mul, one_mul]
      rfl
    have hrange : deletionRange now .today = (some (some (dayTimes.start (dayTimes.index now))),
        some (some (dayTimes.start (dayTimes.index now + 1)))) := by
      unfold deletionRange
      dsimp only
      rw [utc_utcDate (Or.inr (by omega)), timeClip_eq_some (by omega) (by omega), Option.bind_some,
        hnext, timeClip_eq_some (by omega) (by omega)]
    rw [hrange]
    refine ⟨by simp, fun t => ?_⟩
    have htile := dayTimes.index_eq_iff (d := t) (n := dayTimes.index now)
    rw [dayTimes_index_eq_iff] at htile
    simpa [InPeriod] using htile.symm
  | week =>
    have hrange : deletionRange now .week = (some (some (now - 7 * msPerDay)), none) := by
      unfold deletionRange
      rw [timeClip_eq_some (by omega) (by omega)]
      rfl
    rw [hrange]
    exact ⟨by simp, fun t => by simp [InPeriod]⟩
  | month =>
    obtain ⟨hlt, hnext⟩ := next_month_bounds now
    have hstart := monthTimes.start_le now
    have hprevious := next_month_bounds (monthTimes.start (monthTimes.index now))
    rw [monthTimes.index_start] at hprevious
    unfold msPerDay at hnext hprevious
    have hrange : deletionRange now .month =
        (some (some (monthTimes.start (monthTimes.index now))),
          some (some (monthTimes.start (monthTimes.index now + 1)))) := by
      unfold deletionRange
      rw [utc_eq (Or.inr (by omega)), utc_eq (Or.inr (by omega)), ← add_assoc, ← monthTimes_index,
        timeClip_eq_some (by omega) (by omega), timeClip_eq_some (by omega) (by omega)]
    rw [hrange]
    refine ⟨by simp, fun t => ?_⟩
    have htile := monthTimes.index_eq_iff (d := t) (n := monthTimes.index now)
    rw [monthTimes_index_eq_iff] at htile
    simpa [InPeriod] using htile.symm
  | all => exact ⟨by simp [deletionRange], fun t => by simp [deletionRange, InPeriod]⟩

/-- A deletion of the history takes exactly the rows of its period, and says how many they were. -/
theorem deleteAuditEntries_period {α : Type} (log : List (Row α)) (filter : DeleteFilter) :
    ∃ deleted rest, deleteAuditEntries log filter now = some (deleted, rest) ∧
      (∀ row, row ∈ rest ↔ row ∈ log ∧ ¬ InPeriod now row.createdAt filter) ∧
      rest.Sublist log ∧ deleted + rest.length = log.length := by
  obtain ⟨⟨hstart, hstop⟩, hperiod⟩ := deletionRange_spec hpos hle filter
  unfold deleteAuditEntries
  dsimp only
  rw [if_neg (not_or.mpr ⟨hstart, hstop⟩)]
  refine ⟨_, _, rfl, fun row => ?_, List.filter_sublist, ?_⟩
  · rw [List.mem_filter, decide_eq_true_eq, hperiod]
  · exact countP_add_length_filter _ log

end

/-- Two rows around midnight of 2025-12-06, and one of the month before. -/
def midnightLog : List (Row Unit) :=
  [⟨"a", 1764979200000, ()⟩, ⟨"b", 1764979199999, ()⟩, ⟨"c", 1764547199999, ()⟩]

theorem deleteAuditEntries_period_today :
    ∃ deleted rest, deleteAuditEntries midnightLog .today 1765000000000 = some (deleted, rest) ∧
      (∀ row, row ∈ rest ↔ row ∈ midnightLog ∧ ¬ InPeriod 1765000000000 row.createdAt .today) ∧
      rest.Sublist midnightLog ∧ deleted + rest.length = midnightLog.length :=
  deleteAuditEntries_period (by decide) (by decide) midnightLog .today

example : deleteAuditEntries midnightLog .today 1765000000000 =
    some (1, [⟨"b", 1764979199999, ()⟩, ⟨"c", 1764547199999, ()⟩]) := by decide +kernel

end AuditService
end FirecrawlGateway
