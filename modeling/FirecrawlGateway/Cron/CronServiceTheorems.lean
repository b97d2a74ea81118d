import FirecrawlGateway.Cron.CronService
import FirecrawlGateway.Settings.SettingsControllerTheorems

/-!
# Correctness of the maintenance run

For which numbers of days the `threshold` of `revokeInactiveKeys` is a date, and what the rest of
the run does then.
-/

namespace FirecrawlGateway
namespace CronService

open CloudKeySetting (jsonParse)
open NumberText (AtMost IsCount IsDouble OnGrid below below_le le_below maxTime multiply
  multiply_spec numberToString subtract subtract_spec timeClip toNumber)
open SettingsController (SettingKey Table acceptField finiteValue storedValue strictNumber update)

/-! ## The days of a date -/

/-- The greatest number of days, as a double, before which there still is a date: half a millisecond
more than the first date is away, taken back through the products of `milliseconds`. -/
def mostDays (now : ℤ) : ℚ :=
  below 24 (below 60 (below 60 (below 1000 (now + maxTime + 1 / 2))))

/-- A bound that is not too small stays so when it is taken back through a product. -/
lemma two_zpow_le_below {k b : ℚ} (hk : 0 < k) (hk' : k ≤ 1024) {n : ℕ} (hn : n + 10 ≤ 1074)
    (h : (2 : ℚ) ^ (-(n : ℤ)) ≤ b) : (2 : ℚ) ^ (-((n + 10 : ℕ) : ℤ)) ≤ below k b := by
  have hgrid : ∀ n : ℕ, n ≤ 1074 → OnGrid ((2 : ℚ) ^ (-(n : ℤ))) :=
    fun n hn => ⟨1, -n, by norm_num, by omega, by norm_num⟩
  refine le_below hk ((zpow_pos (by norm_num) _).trans_le h) (hgrid _ hn)
    (zpow_pos (by norm_num) _).le (hgrid n (by omega)) ?_ h
  calc (2 : ℚ) ^ (-((n + 10 : ℕ) : ℤ)) * k ≤ 2 ^ (-((n + 10 : ℕ) : ℤ)) * 1024 :=
        mul_le_mul_of_nonneg_left hk' (zpow_pos (by norm_num) _).le
    _ = 2 ^ (-(n : ℤ)) := by
      rw [show (1024 : ℚ) = 2 ^ (10 : ℤ) by norm_num, ← zpow_add₀ (by norm_num)]
      congr 1
      push_cast
      ring

lemma milliseconds_of_steps {days hours minutes seconds ms : JsNumber}
    (hhours : multiply days (.finite 24) = some hours)
    (hminutes : multiply hours (.finite 60) = some minutes)
    (hseconds : multiply minutes (.finite 60) = some seconds)
    (hms : multiply seconds (.finite 1000) = some ms) : milliseconds days = some ms := by
  unfold milliseconds
  simp only [hhours, hminutes, hseconds, hms, Option.bind_eq_bind, Option.bind_some]

lemma milliseconds_spec {days : JsNumber} (hdays : IsCount days) {b : ℚ} (hb : 1 / 2 ≤ b)
    (hb' : b ≤ 2 ^ 60) : ∃ ms, milliseconds days = some ms ∧ IsCount ms ∧
      (AtMost b ms ↔ AtMost (below 24 (below 60 (below 60 (below 1000 b)))) days) := by
  have hlarge : ∀ {b : ℚ}, b ≤ 2 ^ 70 → b < 2 ^ 1024 := fun h =>
    h.trans_lt (pow_lt_pow_right₀ (by norm_num) (by norm_num))
  -- each bound is a positive number
  have h4 : (2 : ℚ) ^ (-((1 : ℕ) : ℤ)) ≤ b := by norm_num; linarith
  have h3 := two_zpow_le_below (k := 1000) (by norm_num) (by norm_num) (by norm_num) h4
  have h2 := two_zpow_le_below (k := 60) (by norm_num) (by norm_num) (by norm_num) h3
  have h1 := two_zpow_le_below (k := 60) (by norm_num) (by norm_num) (by norm_num) h2
  have hpos : ∀ {n : ℤ} {b : ℚ}, (2 : ℚ) ^ n ≤ b → 0 < b := (zpow_pos (by norm_num) _).trans_le
  -- and far below an overflow
  have hbelow3 := below_le (k := 1000) (by norm_num) (hpos h4)
  have hbelow2 := below_le (k := 60) (by norm_num) (hpos h3)
  have hbelow1 := below_le (k := 60) (by norm_num) (hpos h2)
  obtain ⟨hours, hhours, hcount, hhours'⟩ := multiply_spec hdays (k := 24) (by norm_num) (hpos h1)
    (hlarge (by norm_num at hb' ⊢; linarith))
  obtain ⟨minutes, hminutes, hcount, hminutes'⟩ := multiply_spec hcount (k := 60) (by norm_num)
    (hpos h2) (hlarge (by norm_num at hb' ⊢; linarith))
  obtain ⟨seconds, hseconds, hcount, hseconds'⟩ := multiply_spec hcount (k := 60) (by norm_num)
    (hpos h3) (hlarge (by norm_num at hb' ⊢; linarith))
  obtain ⟨ms, hms, hcount, hms'⟩ := multiply_spec hcount (k := 1000) (by norm_num) (hpos h4)
    (hlarge (by norm_num at hb' ⊢; linarith))
  exact ⟨ms, milliseconds_of_steps hhours hminutes hseconds hms, hcount,
    hms'.trans (hseconds'.trans (hminutes'.trans hhours'))⟩

lemma multiply_exact {a k : ℚ} (ha : 0 ≤ a) (hk : 0 ≤ k) (h : IsDouble (a * k)) :
    multiply (.finite a) (.finite k) = some (.finite (a * k)) := by
  have hsign : ∀ q : ℚ, 0 ≤ q → NumberText.isNegative (.finite q) = false :=
    fun q hq => decide_eq_false hq.not_gt
  unfold multiply
  rw [hsign a ha, hsign k hk]
  simp only [NumberText.size, abs_of_nonneg ha, abs_of_nonneg hk, Bool.xor_false]
  unfold NumberText.signed
  rw [NumberText.nearest_double h (mul_nonneg ha hk)]
  rfl

lemma isDouble_natCast {n : ℕ} (h : n < 2 ^ 53) : IsDouble n := by
  have hint : |(n : ℤ)| < 2 ^ 53 := by
    rw [Nat.abs_cast]
    exact_mod_cast h
  exact_mod_cast NumberText.isDouble_intCast hint

/-- The products of a whole number of days are exact. -/
lemma milliseconds_whole {d : ℕ} (hd : d ≤ 10 ^ 11) :
    milliseconds (.finite d) = some (.finite (d * 86400000)) := by
  have hlarge : IsDouble ((d * 86400 : ℕ) * 1000) := by
    -- 1000 has three factors two, and 86400 seven
    refine ⟨(d * 84375 : ℕ), 10, ?_, by norm_num, by norm_num, ?_⟩
    · rw [abs_of_nonneg (by positivity)]
      exact_mod_cast (by omega : d * 84375 < 2 ^ 53)
    · push_cast
      ring
  have hstep : ∀ {n k m : ℕ}, n * k = m → m < 2 ^ 53 →
      multiply (.finite (n : ℚ)) (.finite (k : ℚ)) = some (.finite (m : ℚ)) := by
    rintro n k m rfl hm
    rw [multiply_exact (by positivity) (by positivity) (by exact_mod_cast isDouble_natCast hm)]
    push_cast
    rfl
  have hhours := hstep (n := d) (k := 24) (m := d * 24) rfl (by omega)
  have hminutes := hstep (n := d * 24) (k := 60) (m := d * 1440) (by ring) (by omega)
  have hseconds := hstep (n := d * 1440) (k := 60) (m := d * 86400) (by ring) (by omega)
  push_cast at hhours hminutes hseconds hlarge
  refine milliseconds_of_steps hhours hminutes hseconds ?_
  rw [multiply_exact (by positivity) (by norm_num) hlarge, mul_assoc]
  norm_num

section
variable {now : ℤ} (hnow : |now| ≤ maxTime)
include hnow

lemma bounds_of_time :
    (1 / 2 : ℚ) ≤ now + maxTime + 1 / 2 ∧ (now : ℚ) + maxTime + 1 / 2 ≤ 2 ^ 60 := by
  have hlow : -(maxTime : ℚ) ≤ now := by exact_mod_cast (abs_le.mp hnow).1
  have hhigh : (now : ℚ) ≤ maxTime := by exact_mod_cast (abs_le.mp hnow).2
  have hmax : (maxTime : ℚ) = 8640000000000000 := by norm_num [maxTime]
  rw [hmax] at hlow hhigh ⊢
  constructor
  · linarith
  · norm_num
    linarith

/-- Days that are counted in doubles: the date before them is one up to `mostDays`. -/
lemma date_isSome_iff {q : ℚ} (hq : IsDouble q) (hq' : 0 ≤ q) :
    (((milliseconds (.finite q)).bind (subtract (.finite now))).bind timeClip).isSome ↔
      q ≤ mostDays now := by
  obtain ⟨hlow, hhigh⟩ := bounds_of_time hnow
  have hcount : IsCount (.finite q) := ⟨hq, hq'⟩
  obtain ⟨ms, hms, hcount, hmost⟩ := milliseconds_spec hcount hlow hhigh
  obtain ⟨difference, hdifference, hclip⟩ := subtract_spec hnow hcount
  rw [hms, Option.bind_some, hdifference, Option.bind_some, hclip]
  exact hmost

/-- A whole number of days is compared without any rounding. -/
lemma natCast_le_mostDays (d : ℕ) : (d : ℚ) ≤ mostDays now ↔ d * 86400000 ≤ now + maxTime := by
  obtain ⟨hlow, hhigh⟩ := bounds_of_time hnow
  have hexact : ∀ d : ℕ, d ≤ 10 ^ 11 → ((d : ℚ) ≤ mostDays now ↔ d * 86400000 ≤ now + maxTime) := by
    intro d hd
    have hcount : IsCount (.finite (d : ℚ)) := ⟨isDouble_natCast (by omega), by positivity⟩
    obtain ⟨ms, hms, -, hmost⟩ := milliseconds_spec hcount hlow hhigh
    rw [milliseconds_whole hd] at hms
    cases hms
    refine hmost.symm.trans ?_
    show (d : ℚ) * 86400000 ≤ now + maxTime + 1 / 2 ↔ _
    constructor
    · intro h
      have hlt : (d : ℚ) * 86400000 < (now + maxTime + 1 : ℤ) := by
        push_cast
        linarith
      exact Int.lt_add_one_iff.mp (by exact_mod_cast hlt)
    · intro h
      have hle : (d : ℚ) * 86400000 ≤ (now + maxTime : ℤ) := by exact_mod_cast h
      push_cast at hle
      linarith
  rcases le_or_gt d (10 ^ 11) with hd | hd
  · exact hexact d hd
  · -- so many days are before every date
    have hhigh' := (abs_le.mp hnow).2
    have hmax : maxTime = 8640000000000000 := rfl
    refine iff_of_false (fun h => ?_) (by omega)
    have hd' : ((10 ^ 11 : ℕ) : ℚ) ≤ d := by exact_mod_cast hd.le
    have := (hexact (10 ^ 11) le_rfl).mp (hd'.trans h)
    omega

/-- The threshold for a number of days that is stored is a date, or the step is skipped, up to
`mostDays`. -/
lemma inactivityThreshold_stored {q : ℚ} (hq : IsDouble q) (hq' : 0 ≤ q) :
    inactivityThreshold now (some (numberToString q)) ≠ some none ↔ q ≤ mostDays now := by
  have hread : (some (numberToString q)).bind toNumber = some (.finite q) := by
    rw [Option.bind_some]
    exact (NumberText.toNumber_numberToString hq).2
  unfold inactivityThreshold
  rw [hread]
  simp only
  rw [← date_isSome_iff hnow hq hq', Option.isSome_iff_ne_none]
  split_ifs with hzero
  · obtain rfl : q = 0 := le_antisymm hzero hq'
    have hlow := (abs_le.mp hnow).1
    have hnone := (natCast_le_mostDays hnow 0).mpr (by push_cast; linarith)
    refine iff_of_true (Option.some_ne_none none).symm ?_
    rw [← Option.isSome_iff_ne_none, date_isSome_iff hnow hq le_rfl]
    exact_mod_cast hnone
  · rw [ne_eq, Option.some_inj]

/-- A whole number of days is taken off exactly. -/
lemma inactivityThreshold_whole {d : ℕ} (hd : 0 < d) (hd' : d * 86400000 ≤ now + maxTime) :
    inactivityThreshold now (some (numberToString d)) = some (some (now - d * 86400000)) := by
  have hlow := (abs_le.mp hnow).1
  have hhigh := (abs_le.mp hnow).2
  have hmax : maxTime = 8640000000000000 := rfl
  have hread : (some (numberToString d)).bind toNumber = some (.finite d) := by
    rw [Option.bind_some]
    exact (NumberText.toNumber_numberToString (isDouble_natCast (by omega))).2
  have hpos : ¬(d : ℚ) ≤ 0 := not_le.mpr (by exact_mod_cast hd)
  have hclip := NumberText.timeClip_difference (a := now) (b := d * 86400000)
    (abs_le.mpr ⟨by omega, by omega⟩)
  push_cast at hclip
  unfold inactivityThreshold
  rw [hread]
  simp only
  rw [if_neg hpos, milliseconds_whole (by omega)]
  exact congrArg some hclip

/-- The cutoff of the audit logs is a date from thirty days after the first one on. -/
lemma auditCutoff_isSome_iff : (auditCutoff now).isSome ↔ 30 * 86400000 ≤ now + maxTime := by
  have hdays : ((auditRetentionDays : ℤ) : ℚ) = (30 : ℕ) := by norm_num [auditRetentionDays]
  unfold auditCutoff
  rw [hdays, date_isSome_iff hnow (isDouble_natCast (by norm_num)) (by norm_num)]
  exact natCast_le_mostDays hnow 30

end

/-! ## Pruning -/

section
variable {Row : Type} {key : Row → String} {time : Row → ℤ} {expired : Row → Bool}

lemma oldest_perm (time : Row → ℤ) (expired : Row → Bool) (rows : List Row) :
    ((rows.filter expired).mergeSort fun a b => time a ≤ time b).Perm (rows.filter expired) :=
  List.mergeSort_perm _ _

lemma mem_of_mem_oldest {limit : ℕ} {rows : List Row} {row : Row}
    (h : row ∈ oldest time expired limit rows) : row ∈ rows ∧ expired row :=
  List.mem_filter.mp ((oldest_perm time expired rows).mem_iff.mp (List.mem_of_mem_take h))

/-- A row is selected by its key. -/
lemma mem_oldest_of_key {limit : ℕ} {rows : List Row} (hkeys : (rows.map key).Nodup) {row : Row}
    (hrow : row ∈ rows) (h : key row ∈ (oldest time expired limit rows).map key) :
    row ∈ oldest time expired limit rows := by
  obtain ⟨row', hrow', heq⟩ := List.mem_map.mp h
  rwa [← List.inj_on_of_nodup_map hkeys (mem_of_mem_oldest hrow').1 hrow heq]

/-- What deleting rows of a table comes to: expired ones alone are deleted, at most `limit` of
them. -/
structure Pruned (expired : Row → Bool) (limit : ℕ) (rows : List Row) (result : ℕ × List Row) :
    Prop where
  sublist : result.2.Sublist rows
  kept : ∀ row ∈ rows, ¬expired row → row ∈ result.2
  deleted : result.1 = min limit (rows.countP expired)
  rest : result.1 + result.2.countP expired = rows.countP expired

lemma deleteOldest_pruned (time : Row → ℤ) (expired : Row → Bool) (limit : ℕ) {rows : List Row}
    (hkeys : (rows.map key).Nodup) :
    Pruned expired limit rows (deleteOldest key time expired limit rows) := by
  have hselected : (rows.filter fun row => key row ∈ (oldest time expired limit rows).map key).Perm
      (oldest time expired limit rows) := by
    have hrows := hkeys.of_map
    have hnodup : (oldest time expired limit rows).Nodup :=
      ((oldest_perm time expired rows).nodup_iff.mpr (hrows.filter _)).sublist (List.take_sublist _ _)
    refine (List.perm_ext_iff_of_nodup (hrows.filter _) hnodup).mpr fun row => ?_
    rw [List.mem_filter, decide_eq_true_eq]
    exact ⟨fun h => mem_oldest_of_key hkeys h.1 h.2,
      fun h => ⟨(mem_of_mem_oldest h).1, List.mem_map_of_mem h⟩⟩
  have hexpired : ((rows.filter fun row => key row ∈ (oldest time expired limit rows).map key).countP
      expired) = (oldest time expired limit rows).length := by
    rw [hselected.countP_eq, List.countP_eq_length]
    exact fun row h => (mem_of_mem_oldest h).2
  refine ⟨List.filter_sublist, ?_, ?_, ?_⟩
  · intro row hrow hfresh
    refine List.mem_filter.mpr ⟨hrow, decide_eq_true fun h => ?_⟩
    exact hfresh (mem_of_mem_oldest (mem_oldest_of_key hkeys hrow h)).2
  · unfold deleteOldest
    simp only
    rw [hselected.length_eq, oldest, List.length_take, (oldest_perm time expired rows).length_eq,
      List.countP_eq_length_filter]
  · unfold deleteOldest
    simp only
    rw [hselected.length_eq, ← hexpired]
    simp only [decide_not]
    exact (List.countP_eq_countP_filter_add rows expired _).symm

lemma pruneBatches_pruned (time : Row → ℤ) (expired : Row → Bool) (batches : ℕ) {rows : List Row}
    (hkeys : (rows.map key).Nodup) :
    ∃ result, Pruned expired (batches * pruneBatchSize) rows result ∧
      ∀ total, pruneBatches (deleteOldest key time expired pruneBatchSize) batches total rows =
        (total + result.1, result.2) := by
  induction batches generalizing rows with
  | zero =>
    refine ⟨(0, rows), ⟨List.Sublist.refl _, fun _ h _ => h, ?_, ?_⟩, fun _ => rfl⟩
    · rw [Nat.zero_mul, Nat.zero_min]
    · rw [Nat.zero_add]
  | succ batches ih =>
    have hbatch := deleteOldest_pruned time expired pruneBatchSize hkeys
    have hmin := hbatch.deleted
    have hrest := hbatch.rest
    by_cases hshort : (deleteOldest key time expired pruneBatchSize rows).1 < pruneBatchSize
    · -- the set is drained
      refine ⟨_, ⟨hbatch.sublist, hbatch.kept, ?_, hrest⟩, fun total => ?_⟩
      · rw [Nat.succ_mul]
        omega
      · unfold pruneBatches
        simp only [if_pos hshort]
    · have hkeys' := hkeys.sublist (hbatch.sublist.map key)
      obtain ⟨result, hpruned, hresult⟩ := ih hkeys'
      have hmin' := hpruned.deleted
      have hrest' := hpruned.rest
      refine ⟨((deleteOldest key time expired pruneBatchSize rows).1 + result.1, result.2),
        ⟨hpruned.sublist.trans hbatch.sublist, fun row hrow hfresh => ?_, ?_, ?_⟩, fun total => ?_⟩
      · exact hpruned.kept row (hbatch.kept row hrow hfresh) hfresh
      · simp only
        rw [Nat.succ_mul]
        omega
      · simp only
        omega
      · unfold pruneBatches
        simp only [if_neg hshort]
        rw [hresult, Nat.add_assoc]

/-- **A prune deletes expired rows alone**, all of them or as many as its batches hold. -/
theorem pruneBatched_pruned {rows : List Row} (hkeys : (rows.map key).Nodup) :
    Pruned expired (maxPruneBatches * pruneBatchSize) rows
      (pruneBatched (deleteOldest key time expired pruneBatchSize) rows) := by
  obtain ⟨result, hpruned, hresult⟩ := pruneBatches_pruned time expired maxPruneBatches hkeys
  unfold pruneBatched
  rw [hresult, Nat.zero_add]
  exact hpruned

end

/-! ## The run -/

section
variable (call : Surroundings) (clock : Clock) (settings : Table) (db : Database)

/-- The run gets past the keys: it prunes the rate limits, and the audit logs when their cutoff is
a date. -/
structure Prunes : Prop where
  rateLimits : (runMaintenance call clock settings db).1.rateLimits =
    (deleteExpiredRateLimits clock.database db).1.rateLimits
  auditLogs : (runMaintenance call clock settings db).1.auditLogs =
    (pruneOldAuditLogs clock.retention db).1.auditLogs
  report : (auditCutoff clock.retention).isSome →
    ∃ report, (runMaintenance call clock settings db).2 = .ok report

variable {call clock settings db}

lemma runMaintenance_of_invalid
    (h : inactivityThreshold clock.revocation (settings .apiKeyInactivityRevokeDays) = some none) :
    runMaintenance call clock settings db = (db, .error .invalidDate) := by
  unfold runMaintenance revokeInactiveKeys
  rw [h]

/-- The step that revokes keys leaves the other tables alone. -/
lemma revokeInactiveKeys_of_valid (db : Database)
    (h : inactivityThreshold clock.revocation (settings .apiKeyInactivityRevokeDays) ≠ some none) :
    ∃ apiKeys revoked, revokeInactiveKeys clock.revocation settings db =
      ({ db with apiKeys := apiKeys }, .ok revoked) := by
  unfold revokeInactiveKeys
  rcases hthreshold : inactivityThreshold clock.revocation (settings .apiKeyInactivityRevokeDays)
    with _ | _ | threshold
  · exact ⟨db.apiKeys, 0, rfl⟩
  · exact absurd hthreshold h
  · exact ⟨_, _, rfl⟩

lemma prunes_of_valid
    (h : inactivityThreshold clock.revocation (settings .apiKeyInactivityRevokeDays) ≠ some none) :
    Prunes call clock settings db := by
  obtain ⟨apiKeys, revoked, hrevoke⟩ := revokeInactiveKeys_of_valid db h
  refine ⟨?_, ?_, fun hcutoff => ?_⟩
  · unfold runMaintenance pruneOldAuditLogs
    simp only [hrevoke]
    cases auditCutoff clock.retention <;> rfl
  · unfold runMaintenance pruneOldAuditLogs
    simp only [hrevoke]
    cases auditCutoff clock.retention <;> rfl
  · obtain ⟨cutoff, hcutoff⟩ := Option.isSome_iff_exists.mp hcutoff
    unfold runMaintenance pruneOldAuditLogs
    simp only [hrevoke, hcutoff]
    exact ⟨_, rfl⟩

/-- **No run deletes live rows**: a window that is not over stays, and so does every audit log from
the cutoff on. -/
theorem runMaintenance_keeps (call : Surroundings) (clock : Clock) (settings : Table)
    (hkeys : (db.rateLimits.map RateLimitRow.key).Nodup)
    (hids : (db.auditLogs.map AuditLogRow.id).Nodup) :
    (∀ row ∈ db.rateLimits, clock.database ≤ row.resetAt →
      row ∈ (runMaintenance call clock settings db).1.rateLimits) ∧
    ∀ row ∈ db.auditLogs, (∀ cutoff ∈ auditCutoff clock.retention, cutoff ≤ row.createdAt) →
      row ∈ (runMaintenance call clock settings db).1.auditLogs := by
  by_cases hvalid :
    inactivityThreshold clock.revocation (settings .apiKeyInactivityRevokeDays) = some none
  · rw [runMaintenance_of_invalid hvalid]
    exact ⟨fun row hrow _ => hrow, fun row hrow _ => hrow⟩
  · have hprunes : Prunes call clock settings db := prunes_of_valid hvalid
    rw [hprunes.rateLimits, hprunes.auditLogs]
    constructor
    · intro row hrow hlive
      exact (pruneBatched_pruned hkeys).kept row hrow (by simp [expired, hlive])
    · intro row hrow hrecent
      unfold pruneOldAuditLogs
      cases hcutoff : auditCutoff clock.retention with
      | none => exact hrow
      | some cutoff =>
        exact (pruneBatched_pruned hids).kept row hrow (by simp [old, hrecent cutoff hcutoff])

end

lemma settingKey_days : SettingsController.settingKey
    (JsString.lit "api_key_inactivity_revoke_days") = some .apiKeyInactivityRevokeDays := by
  decide

/-- The number of days that a payload leaves in the table when it is accepted. -/
lemma accepted_days {aes : Aes256Gcm} {encryptionKey : String} {ivs : SettingKey → List UInt8}
    {table written : Table} {payload : String} {fields : List (JsString × JsonValue)}
    {answer : List (SettingKey × JsonValue)}
    (hpayload : jsonParse payload = some (.object fields))
    (hupdate : update aes encryptionKey ivs table (.object fields) = (written, .ok answer))
    {raw : JsonValue}
    (hraw : (JsString.lit "api_key_inactivity_revoke_days", raw) ∈ fields) :
    ∃ days, (strictNumber raw).bind finiteValue = some days ∧ IsDouble days ∧ 0 ≤ days ∧
      written .apiKeyInactivityRevokeDays = some (numberToString days) := by
  obtain ⟨⟨key, value, accepted⟩, hname, haccepted, hvalue, hvalid, hwritten⟩ :=
    SettingsController.update_field hpayload hupdate hraw
  obtain rfl : SettingKey.apiKeyInactivityRevokeDays = key :=
    Option.some_inj.mp (settingKey_days.symm.trans hname)
  have hnumber : SettingsController.acceptNumber _ raw = .ok accepted := haccepted
  unfold SettingsController.acceptNumber at hnumber
  split at hnumber
  · rename_i days hdays
    split_ifs at hnumber
    cases hnumber
    cases hvalue
    exact ⟨days, hdays, hvalid.1, hvalid.2, hwritten⟩
  · cases hnumber

/-- **A number of days that is accepted lets the rest of the run happen up to `mostDays`**, a bound
from the clock alone: only up to it the threshold is a date or the step is skipped, so that the
tables after the keys are pruned. With more days the run fails and leaves them as they are. The
cutoff of the audit logs does not depend on the setting; it is a date on all but the first thirty
days. -/
theorem maintenance_prunes_iff {aes : Aes256Gcm} {encryptionKey : String}
    {ivs : SettingKey → List UInt8} {table written : Table} {payload : String}
    {fields : List (JsString × JsonValue)} {answer : List (SettingKey × JsonValue)}
    (hpayload : jsonParse payload = some (.object fields))
    (hupdate : update aes encryptionKey ivs table (.object fields) = (written, .ok answer))
    {raw : JsonValue}
    (hraw : (JsString.lit "api_key_inactivity_revoke_days", raw) ∈ fields)
    (call : Surroundings) {clock : Clock} (hclock : |clock.revocation| ≤ maxTime) (db : Database) :
    ∃ days, (strictNumber raw).bind finiteValue = some days ∧
      (inactivityThreshold clock.revocation (written .apiKeyInactivityRevokeDays) ≠ some none ∧
        Prunes call clock written db ↔ days ≤ mostDays clock.revocation) ∧
      (mostDays clock.revocation < days →
        runMaintenance call clock written db = (db, .error .invalidDate)) ∧
      (∀ d : ℕ, days = d →
        (days ≤ mostDays clock.revocation ↔ d * 86400000 ≤ clock.revocation + maxTime)) ∧
      (|clock.retention| ≤ maxTime →
        ((auditCutoff clock.retention).isSome ↔ 30 * 86400000 ≤ clock.retention + maxTime)) := by
  obtain ⟨days, hdays, hdouble, hnonneg, hwritten⟩ := accepted_days hpayload hupdate hraw
  have hthreshold := inactivityThreshold_stored hclock hdouble hnonneg
  rw [← hwritten] at hthreshold
  refine ⟨days, hdays, ?_, ?_, ?_, auditCutoff_isSome_iff⟩
  · rw [← hthreshold]
    exact and_iff_left_of_imp prunes_of_valid
  · intro hmany
    exact runMaintenance_of_invalid (not_not.mp (mt hthreshold.mp hmany.not_ge))
  · rintro d rfl
    exact natCast_le_mostDays hclock d

/-! ## Two payloads -/

/-- A payload that sets the number of days. -/
def daysField (days : ℕ) : List (JsString × JsonValue) :=
  [(JsString.lit "api_key_inactivity_revoke_days", .number (.finite days))]

lemma jsonParse_daysField {days : ℕ} (h : days < 2 ^ 53) :
    jsonParse (CloudKeySetting.jsonStringify (.object (daysField days))) =
      some (.object (daysField days)) := by
  refine CloudKeySetting.jsonParse_jsonStringify fun n hn => ?_
  have hn : n = .finite days := by
    simpa [daysField, JsonValue.walk, JsonValue.walkMembers] using hn
  rw [hn]
  exact NumberText.writtenBack_double (isDouble_natCast h)

/-- The table after it. -/
def daysTable (days : ℕ) : Table :=
  SettingsController.writeAll (fun _ => none)
    [⟨.apiKeyInactivityRevokeDays, numberToString days, .number days⟩]

lemma update_daysField (days : ℕ) : ∃ answer, update SettingsController.plainAes "" (fun _ => [])
    (fun _ => none) (.object (daysField days)) = (daysTable days, .ok answer) := by
  have haccepted : acceptField .apiKeyInactivityRevokeDays (.number (.finite days)) =
      .ok (.number days) := if_pos (by positivity)
  have hfield : SettingsController.stageField SettingsController.plainAes "" (fun _ => [])
      (JsString.lit "api_key_inactivity_revoke_days", .number (.finite days)) =
        .ok ⟨.apiKeyInactivityRevokeDays, numberToString days, .number days⟩ := by
    unfold SettingsController.stageField
    simp only [settingKey_days, haccepted]
    rfl
  have hstage : (daysField days).mapM (SettingsController.stageField SettingsController.plainAes ""
      (fun _ => [])) = .ok [⟨.apiKeyInactivityRevokeDays, numberToString days, .number days⟩] := by
    unfold daysField
    rw [List.mapM_cons, hfield]
    rfl
  exact ⟨_, (SettingsController.update_stage _ _ _ _ (.object (daysField days))).1 _ hstage⟩

def sampleCall : Surroundings where
  aes := SettingsController.plainAes
  firecrawlKeysEncryptionKey := ""
  iv := []
  refreshCreditUsageForKeys _ := .ok []

def sampleClock : Clock where
  revocation := 1767312000000
  retention := 1767312000000
  database := 1767312000000

/-- A window and an audit row of long ago. -/
def sampleDatabase : Database where
  apiKeys := []
  rateLimits := [⟨"203.0.113.9", 0⟩]
  auditLogs := [⟨"1", 0⟩]

/-- With thirty days the run prunes, and comes to its end. -/
theorem maintenance_prunes_thirty :
    inactivityThreshold sampleClock.revocation (daysTable 30 .apiKeyInactivityRevokeDays) ≠
      some none ∧ Prunes sampleCall sampleClock (daysTable 30) sampleDatabase ∧
    ∃ report, (runMaintenance sampleCall sampleClock (daysTable 30) sampleDatabase).2 =
      .ok report := by
  obtain ⟨answer, hupdate⟩ := update_daysField 30
  have hpayload := jsonParse_daysField (by norm_num : 30 < 2 ^ 53)
  have hclock : |sampleClock.revocation| ≤ maxTime := by decide
  obtain ⟨days, hdays, hiff, -, hwhole, hcutoff⟩ := maintenance_prunes_iff hpayload hupdate
    List.mem_cons_self sampleCall hclock sampleDatabase
  obtain rfl : ((30 : ℕ) : ℚ) = days := Option.some_inj.mp hdays
  obtain ⟨hvalid, hprunes⟩ := hiff.mpr ((hwhole 30 rfl).mpr (by decide))
  exact ⟨hvalid, hprunes, hprunes.report ((hcutoff (by decide)).mpr (by decide))⟩

/-- A billion days are accepted, and no table is pruned from then on. -/
theorem maintenance_stopped : ∃ answer,
    update SettingsController.plainAes "" (fun _ => []) (fun _ => none)
      (.object (daysField 1000000000)) = (daysTable 1000000000, .ok answer) ∧
    inactivityThreshold sampleClock.revocation
      (daysTable 1000000000 .apiKeyInactivityRevokeDays) = some none ∧
    runMaintenance sampleCall sampleClock (daysTable 1000000000) sampleDatabase =
      (sampleDatabase, .error .invalidDate) := by
  obtain ⟨answer, hupdate⟩ := update_daysField 1000000000
  have hclock : |sampleClock.revocation| ≤ maxTime := by decide
  have hthreshold : inactivityThreshold sampleClock.revocation
      (daysTable 1000000000 .apiKeyInactivityRevokeDays) = some none := by
    refine not_not.mp (mt (inactivityThreshold_stored hclock (isDouble_natCast (by norm_num))
      (by positivity)).mp ?_)
    rw [natCast_le_mostDays hclock]
    decide
  exact ⟨answer, hupdate, hthreshold, runMaintenance_of_invalid hthreshold⟩

end CronService
end FirecrawlGateway
