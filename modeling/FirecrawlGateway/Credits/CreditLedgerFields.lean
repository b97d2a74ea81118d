import FirecrawlGateway.Credits.CreditLedgerTheorems

/-!
# The fields `HINCRBY` reads

`HINCRBY` fails on a field that does not hold an integer, in the middle of the scripts that use
it. A pool has such a field only after a refresh that leaves a fractional balance. Without one no
script fails, and no field outgrows the largest balance that was ever reported.
-/

namespace FirecrawlGateway
namespace CreditLedger

open Redis

variable {κ ρ : Type*} [DecidableEq κ] [DecidableEq ρ]

/-! ## Runs without a fractional balance -/

/-- A number that is written with its digits only, as every whole number of at most 17 digits. -/
def HoldsInteger (x : ℚ) : Prop := x.isInt = true ∧ 0 ≤ x ∧ x < 10 ^ 17

/-- A refresh leaves a whole balance of at most 17 digits: the reported one is whole, or all of it
is still reserved. -/
def WholeBalance (s : System κ ρ) : Event κ ρ → Prop
  | .reconcile p remainingCredits sequence _ _ => remainingCredits < 10 ^ 17 ∧
    (remainingCredits.isInt = true ∨ remainingCredits ≤ s.store.pending p sequence)
  | _ => True

/-- The counters hold integers, and no script fails. -/
structure Unbroken (s : Store κ ρ) : Prop where
  credits : ∀ p c, (s.pool p).credits = some c → HoldsInteger c
  reserved : ∀ p, HoldsInteger (s.pool p).reserved
  reserveScript : ∀ keys now amount ttl random,
    (reserveScript s keys now amount ttl random).2 ≠ none
  settleScript : ∀ p r action cooldownUntil, (settleScript s p r action cooldownUntil).2 ≠ none
  actualUsageScript : ∀ p r actual, (actualUsageScript s p r actual).2 ≠ none
  reserves : ∀ keys now amount ttl random, (∃ k ∈ keys, CanReserve (s.pool k.1) now amount) →
    ∃ i sequence r, (reserve s keys now amount ttl random).2 = .reserved i sequence r

/-! ## On whole balances no script fails -/

lemma hincrby_ne_none {pool : Pool} (h : Integral pool) (n : ℤ) :
    hincrby pool.credits (n : ℚ) ≠ none := by
  have hint : (pool.credits.getD 0).isInt = true := by
    cases hcredits : pool.credits with
    | none => rfl
    | some c => exact h c hcredits
  unfold hincrby
  rw [if_pos ⟨hint, isInt_iff.mpr ⟨n, rfl⟩⟩]
  exact Option.some_ne_none _

lemma settleScript_ne_none {s : Store κ ρ} {p : κ} (h : Integral (s.pool p)) (r : ρ)
    (action : SettleAction) (cooldownUntil : ℕ) :
    (settleScript s p r action cooldownUntil).2 ≠ none := by
  unfold settleScript
  cases s.reservation r with
  | none => exact Option.some_ne_none _
  | some reservation =>
    dsimp only
    split_ifs
    · obtain ⟨credits, hcredits⟩ :=
        Option.ne_none_iff_exists'.mp (hincrby_ne_none h reservation.amount)
      rw [Int.cast_natCast] at hcredits
      unfold settleOpen
      dsimp only
      split_ifs
      · exact Option.some_ne_none _
      · rw [hcredits]
        exact Option.some_ne_none _
    · exact Option.some_ne_none _

lemma adjustCredits_ne_none {pool : Pool} (h : Integral pool) (estimated : ℕ) (actual : ℤ) :
    adjustCredits pool.credits estimated actual ≠ none := by
  unfold adjustCredits
  dsimp only
  split_ifs
  · -- the deduction is the whole difference, or all that the pool has
    have hcredits : ∃ n : ℤ, pool.credits.getD 0 = n := by
      cases hc : pool.credits with
      | none => exact ⟨0, rfl⟩
      | some c => exact isInt_iff.mp (h c hc)
    obtain ⟨n, hn⟩ := hcredits
    have hdeduction : -min ((actual - estimated : ℤ) : ℚ) (max 0 (pool.credits.getD 0)) =
        ((-min (actual - estimated) (max 0 n) : ℤ) : ℚ) := by
      rw [hn]
      push_cast
      rfl
    rw [hdeduction]
    exact mt Option.map_eq_none_iff.mp (hincrby_ne_none h _)
  · exact Option.some_ne_none _
  · rw [← Int.cast_neg]
    exact mt Option.map_eq_none_iff.mp (hincrby_ne_none h _)
  · exact Option.some_ne_none _

lemma actualUsageScript_ne_none {s : Store κ ρ} {p : κ} (h : Integral (s.pool p)) (r : ρ)
    (actual : ℤ) : (actualUsageScript s p r actual).2 ≠ none := by
  unfold actualUsageScript
  split_ifs
  · exact Option.some_ne_none _
  · cases s.reservation r with
    | none => exact Option.some_ne_none _
    | some reservation =>
      dsimp only
      split_ifs
      · obtain ⟨credits, hcredits⟩ :=
          Option.ne_none_iff_exists'.mp (adjustCredits_ne_none h reservation.amount actual)
        rw [hcredits]
        exact Option.some_ne_none _
      · exact Option.some_ne_none _

lemma reserveScript_ne_none {s : Store κ ρ} (h : ∀ p, Integral (s.pool p)) (keys : List (κ × ρ))
    (now amount ttl : ℕ) (random : ℚ) : (reserveScript s keys now amount ttl random).2 ≠ none := by
  rw [reserveScript_spec]
  cases selected s keys now amount random with
  | none => exact Option.some_ne_none _
  | some k =>
    obtain ⟨credits, hcredits⟩ :=
      Option.ne_none_iff_exists'.mp (hincrby_ne_none (h k.2.1) (-amount))
    rw [Int.cast_neg, Int.cast_natCast] at hcredits
    dsimp only
    rw [reserveIn_spec, hcredits]
    exact Option.some_ne_none _

/-- A pool that may be charged is charged. -/
lemma reserve_reserved {s : Store κ ρ} (h : ∀ p, Integral (s.pool p)) {keys : List (κ × ρ)}
    {now amount ttl : ℕ} {random : ℚ} (hcan : ∃ k ∈ keys, CanReserve (s.pool k.1) now amount) :
    ∃ i sequence r, (reserve s keys now amount ttl random).2 = .reserved i sequence r := by
  have hreserves := reserves h keys now amount ttl random
  obtain ⟨k, hk, hcan⟩ := hcan
  cases hresult : (reserve s keys now amount ttl random).2 with
  | reserved i sequence r => exact ⟨i, sequence, r, rfl⟩
  | noCapacity => exact absurd hcan ((hreserves.noCapacity.mp hresult).2 k hk)
  | unavailable =>
    obtain ⟨credits, hcredits, -⟩ := hcan
    rw [hreserves.unavailable.mp hresult k hk] at hcredits
    cases hcredits

/-! ## What a pool has and has reserved -/

/-- The balance together with what is reserved. -/
def total (pool : Pool) : ℚ := pool.credits.getD 0 + pool.reserved

omit [DecidableEq ρ] in
lemma total_update {f : κ → Pool} {q : κ} {pool : Pool} (h : total pool ≤ total (f q)) (p : κ) :
    total (Function.update f q pool p) ≤ total (f p) := by
  by_cases hp : p = q
  · subst hp
    rwa [Function.update_self]
  · rw [Function.update_of_ne hp]

lemma getD_nonneg {pool : Pool} (h : ∀ c, pool.credits = some c → 0 ≤ c) :
    0 ≤ pool.credits.getD 0 := by
  cases hcredits : pool.credits with
  | none => exact le_rfl
  | some c => exact h c hcredits

lemma total_applyAction {pool : Pool} (h : 0 ≤ pool.credits.getD 0) (action : SettleAction)
    (cooldownUntil : ℕ) : total (applyAction pool action cooldownUntil) ≤ total pool := by
  obtain ⟨hreserved, -, hcredits⟩ := applyAction_fields pool action cooldownUntil
  unfold total
  rw [hreserved]
  rcases hcredits with hsame | hzero
  · rw [hsame]
  · rw [hzero, Option.getD_some]
    linarith

/-- What an open reservation gives back was reserved. -/
lemma total_released {pool : Pool} {amount : ℕ} {credits : Option ℚ}
    (h : credits.getD 0 ≤ pool.credits.getD 0 + amount) :
    total { releasedPool pool amount with credits := credits } ≤ total pool := by
  unfold total releasedPool
  push_cast
  linarith

lemma adjustCredits_le {pool : Pool} {estimated actual : ℕ} {credits : Option ℚ}
    (hadjust : adjustCredits pool.credits estimated actual = some credits) :
    credits.getD 0 ≤ pool.credits.getD 0 + estimated := by
  have hestimated : (0 : ℚ) ≤ estimated := Nat.cast_nonneg _
  unfold adjustCredits at hadjust
  dsimp only at hadjust
  split_ifs at hadjust with hpos hdeduction hneg
  · obtain ⟨c, hc, rfl⟩ := Option.map_eq_some_iff.mp hadjust
    rw [Option.getD_some, hincrby_eq_some hc]
    linarith
  · cases hadjust
    linarith
  · obtain ⟨c, hc, rfl⟩ := Option.map_eq_some_iff.mp hadjust
    have hactual : (0 : ℚ) ≤ actual := Nat.cast_nonneg _
    rw [Option.getD_some, hincrby_eq_some hc]
    push_cast
    linarith
  · cases hadjust
    linarith

omit [DecidableEq κ] in
lemma recordSettlement_store (s : System κ ρ) (store : Store κ ρ) (r : ρ) (settlement : Settlement)
    (reply : Option Bool) : (recordSettlement s store r settlement reply).store = store := by
  obtain ⟨settlements, heq, -⟩ := recordSettlement_eq (s := s) store r settlement reply
  rw [heq]

/-- Only a refresh can raise what a pool has and has reserved. -/
lemma total_step {s t : System κ ρ} (h : Inv s) {e : Event κ ρ} (hstep : step s e = some t)
    (he : ∀ p x sequence now renewsAt, e ≠ .reconcile p x sequence now renewsAt) (p : κ) :
    total (t.store.pool p) ≤ total (s.store.pool p) := by
  cases e with
  | reserve keys now amount ttl random =>
    rcases reserve_cases hstep with
      rfl | ⟨q, -, rfl⟩ | ⟨q, r, credits, left, -, -, -, hleft, rfl⟩
    · exact le_rfl
    · refine total_update ?_ p
      exact le_refl (total (s.store.pool q))
    · refine total_update ?_ p
      unfold total reservedPool
      rw [Option.getD_some, hincrby_eq_some hleft]
      push_cast
      linarith
  | capture q =>
    cases hstep
    exact le_rfl
  | settle r action cooldownUntil =>
    obtain ⟨issue, hrec, ht⟩ := Option.map_eq_some_iff.mp hstep
    dsimp only at ht
    rw [← ht, recordSettlement_store]
    have hnonneg := getD_nonneg (h.credits issue.pool)
    cases hopen : s.store.isOpen r with
    | false =>
      rw [settleScript_of_not_open hopen]
      exact total_update (total_applyAction hnonneg action cooldownUntil) p
    | true =>
      obtain ⟨reservation, hr, hstate, -, -, hnot⟩ := h.reservation_of_open hrec hopen
      rw [settleScript_of_open hr hstate hnot]
      cases hincr : hincrby (s.store.pool issue.pool).credits reservation.amount with
      | none =>
        refine total_update ?_ p
        have hamount : (0 : ℚ) ≤ reservation.amount := Nat.cast_nonneg _
        exact @total_released (s.store.pool issue.pool) reservation.amount
          (s.store.pool issue.pool).credits (by linarith)
      | some credits =>
        have hcredits := hincrby_eq_some hincr
        have hamount : (0 : ℚ) ≤ reservation.amount := Nat.cast_nonneg _
        refine total_update ((total_applyAction ?_ action cooldownUntil).trans
          (total_released ?_)) p
        · rw [Option.getD_some]
          linarith
        · rw [Option.getD_some, hcredits]
  | settleActualUsage r actual =>
    obtain ⟨issue, hrec, ht⟩ := Option.map_eq_some_iff.mp hstep
    dsimp only at ht
    rw [← ht, recordSettlement_store]
    cases hopen : s.store.isOpen r with
    | false =>
      rw [actualUsageScript_of_not_open hopen]
      exact total_update (le_refl (total (s.store.pool issue.pool))) p
    | true =>
      obtain ⟨reservation, hr, hstate, -, -, -⟩ := h.reservation_of_open hrec hopen
      rw [actualUsageScript_of_open hr hstate]
      cases hadjust : adjustCredits (s.store.pool issue.pool).credits reservation.amount actual with
      | none => exact le_rfl
      | some credits => exact total_update (total_released (adjustCredits_le hadjust)) p
  | reconcile q x sequence now renewsAt => exact absurd rfl (he q x sequence now renewsAt)
  | expire r =>
    cases hstep
    exact le_rfl

/-! ## Refreshes -/

/-- The balance a refresh leaves is whole if the reported one is, or if all of it is reserved, and
in no other case. -/
lemma reconcile_integral_iff (s : Store κ ρ) (p : κ) (x : ℚ) (sequence now renewsAt : ℕ) :
    Integral ((reconcile s p x sequence now renewsAt).pool p) ↔
      x.isInt = true ∨ x ≤ s.pending p sequence := by
  obtain ⟨-, hcredits, -⟩ := reconcileScript_spec s p (max 0 x) sequence now renewsAt
  have hint : Integral ((reconcile s p x sequence now renewsAt).pool p) ↔
      (max 0 (max 0 x - s.pending p sequence)).isInt = true := by
    constructor
    · exact fun h => h _ hcredits
    · intro h c hc
      cases hcredits.symm.trans hc
      exact h
  have hpending : (0 : ℚ) ≤ s.pending p sequence := Nat.cast_nonneg _
  rw [hint]
  constructor
  · intro h
    by_contra hnot
    obtain ⟨hfraction, hlt⟩ := not_or.mp hnot
    have hx : max 0 (max 0 x - s.pending p sequence) = x - s.pending p sequence := by
      rw [max_eq_right (by linarith : 0 ≤ x), max_eq_right (by linarith)]
    rw [hx] at h
    obtain ⟨n, hn⟩ := isInt_iff.mp h
    refine hfraction (isInt_iff.mpr ⟨n + s.pending p sequence, ?_⟩)
    push_cast
    linarith
  · rintro (hwhole | hle)
    · obtain ⟨n, rfl⟩ := isInt_iff.mp hwhole
      refine isInt_iff.mpr ⟨max 0 (max 0 n - s.pending p sequence), ?_⟩
      push_cast
      rfl
    · have hzero : max 0 (max 0 x - s.pending p sequence) = 0 := by
        refine max_eq_left ?_
        have hmax : max 0 x ≤ s.pending p sequence := max_le hpending hle
        linarith
      rw [hzero]
      rfl

omit [DecidableEq κ] in
/-- What is pending in a pool is reserved in it. -/
lemma pending_le_reserved {s : System κ ρ} (h : Inv s) (p : κ) (sequence : ℕ) :
    (s.store.pending p sequence : ℤ) ≤ (s.store.pool p).reserved := by
  rw [h.reserved p]
  unfold Store.pending
  push_cast
  refine Finset.sum_le_sum fun r hr => ?_
  obtain ⟨issue, hrec, -⟩ := h.record_of_mem hr
  unfold Store.outstandingAmount
  cases hres : s.store.reservation r with
  | none => exact Nat.cast_nonneg _
  | some reservation =>
    obtain ⟨issue', hrec', hamount, -⟩ := h.hash r reservation hres
    cases hrec.symm.trans hrec'
    rw [issuedAmount_eq hrec, ← hamount]
    dsimp only
    split_ifs
    · exact le_rfl
    · exact Nat.cast_nonneg _

/-- What a refresh leaves is the larger of what was reported and what is pending. -/
lemma total_reconcile {s : System κ ρ} (h : Inv s) (p : κ) {x : ℚ} (hx : x < 10 ^ 17)
    (hreserved : ((s.store.pool p).reserved : ℚ) < 10 ^ 17) (sequence now renewsAt : ℕ) :
    total ((reconcile s.store p x sequence now renewsAt).pool p) < 10 ^ 17 := by
  obtain ⟨-, hcredits, hafter, -⟩ := reconcileScript_spec s.store p (max 0 x) sequence now renewsAt
  have hpending : (s.store.pending p sequence : ℚ) ≤ (s.store.pool p).reserved := by
    exact_mod_cast pending_le_reserved h p sequence
  have htotal : total ((reconcile s.store p x sequence now renewsAt).pool p) =
      max 0 (max 0 x - s.store.pending p sequence) + s.store.pending p sequence := by
    unfold total
    refine congrArg₂ (· + ·) (congrArg (·.getD 0) hcredits) ?_
    exact (congrArg Int.cast hafter).trans (Int.cast_natCast _)
  rw [htotal]
  rcases le_total (max 0 x - (s.store.pending p sequence : ℚ)) 0 with hle | hle
  · rw [max_eq_left hle]
    linarith
  · rw [max_eq_right hle]
    have hmax : max 0 x < 10 ^ 17 := max_lt (by norm_num) hx
    linarith

/-! ## Runs -/

/-- What holds along the runs without a fractional balance. -/
structure Whole (s : System κ ρ) : Prop where
  inv : Inv s
  integral : ∀ p, Integral (s.store.pool p)
  bounded : ∀ p, total (s.store.pool p) < 10 ^ 17

omit [DecidableEq κ] in
lemma Inv.reserved_nonneg {s : System κ ρ} (h : Inv s) (p : κ) : 0 ≤ (s.store.pool p).reserved := by
  rw [h.reserved p]
  exact Finset.sum_nonneg fun _ _ => Nat.cast_nonneg _

lemma Whole.step {s t : System κ ρ} (h : Whole s) {e : Event κ ρ} (he : WholeBalance s e)
    (hstep : CreditLedger.step s e = some t) : Whole t := by
  refine ⟨h.inv.step hstep, ?_, ?_⟩
  · rcases step_move h.inv hstep with ⟨p, x, sequence, now, renewsAt, rfl, rfl⟩ | hmove
    · obtain ⟨hothers, -⟩ := reconcileScript_spec s.store p (max 0 x) sequence now renewsAt
      intro q
      by_cases hq : q = p
      · subst hq
        exact (reconcile_integral_iff s.store q x sequence now renewsAt).mpr he.2
      · intro c hc
        exact h.integral q c ((congrArg Pool.credits (hothers q hq).1).symm.trans hc)
    · exact hmove.integral h.integral
  · intro q
    by_cases hreconcile : ∃ p x sequence now renewsAt, e = .reconcile p x sequence now renewsAt
    · obtain ⟨p, x, sequence, now, renewsAt, rfl⟩ := hreconcile
      cases hstep
      obtain ⟨hothers, -⟩ := reconcileScript_spec s.store p (max 0 x) sequence now renewsAt
      by_cases hq : q = p
      · subst hq
        have hnonneg := getD_nonneg (h.inv.credits q)
        have hbounded := h.bounded q
        unfold total at hbounded
        exact total_reconcile h.inv q he.1 (by linarith) sequence now renewsAt
      · exact (congrArg total (hothers q hq).1).trans_lt (h.bounded q)
    · refine (total_step h.inv hstep (fun p x sequence now renewsAt heq => ?_) q).trans_lt
        (h.bounded q)
      exact hreconcile ⟨p, x, sequence, now, renewsAt, heq⟩

lemma Whole.unbroken {s : System κ ρ} (h : Whole s) : Unbroken s.store where
  credits p c hc := by
    have hbounded := h.bounded p
    have hreserved : (0 : ℚ) ≤ (s.store.pool p).reserved := by
      exact_mod_cast h.inv.reserved_nonneg p
    unfold total at hbounded
    rw [hc, Option.getD_some] at hbounded
    exact ⟨h.integral p c hc, h.inv.credits p c hc, by linarith⟩
  reserved p := by
    have hbounded := h.bounded p
    have hcredits := getD_nonneg (h.inv.credits p)
    unfold total at hbounded
    refine ⟨isInt_iff.mpr ⟨_, rfl⟩, by exact_mod_cast h.inv.reserved_nonneg p, by linarith⟩
  reserveScript := reserveScript_ne_none h.integral
  settleScript p := settleScript_ne_none (h.integral p)
  actualUsageScript p := actualUsageScript_ne_none (h.integral p)
  reserves _ _ _ _ _ := reserve_reserved h.integral

/-- As long as every refresh leaves a whole balance, the counters hold integers and no script
fails. -/
theorem scripts_complete {es : List (Event κ ρ)} {s : System κ ρ}
    (hes : EventMachine.Along step WholeBalance (System.start fun _ => {}) es)
    (hrun : EventMachine.run step (System.start fun _ => {}) es = some s) : Unbroken s.store := by
  have hstart : Whole (System.start fun _ => {} : System κ ρ) := by
    refine ⟨inv_start fun _ => ⟨rfl, fun _ hc => by cases hc⟩, ?_, ?_⟩
    · intro p c hc
      cases hc
    · intro p
      unfold total System.start
      norm_num
  have hwhole := EventMachine.run_invariant_along (I := Whole) (fun _ _ _ h he => h.step he) hstart
    hes hrun
  exact hwhole.unbroken

theorem scripts_complete_sample :
    ∃ s, EventMachine.run step (System.start fun _ => {}) sampleEvents = some s ∧
      Unbroken s.store := by
  have hwhole : EventMachine.Along step WholeBalance (System.start fun _ => {}) sampleEvents :=
    ⟨⟨by norm_num, Or.inl rfl⟩, fun _ _ => ⟨trivial, fun _ _ => trivial⟩⟩
  obtain ⟨s, hs⟩ := Option.isSome_iff_exists.mp (show (EventMachine.run step
    (System.start fun _ => {}) sampleEvents).isSome = true by decide +kernel)
  exact ⟨s, hs, scripts_complete hwhole hs⟩

/-- A refresh reports a fractional balance. -/
def fractionalRefresh : List (Event ℕ ℕ) := [.reconcile 0 (3 / 2) 0 100 0]

/-- A reservation of one credit then fails once it has taken its sequence number. -/
theorem fractional_refresh_breaks_reserve :
    ∃ s, EventMachine.run step (System.start fun _ => {}) fractionalRefresh = some s ∧
      (s.store.pool 0).credits = some (3 / 2) ∧ CanReserve (s.store.pool 0) 200 1 ∧
      (reserveScript s.store [(0, 7)] 200 1 300 0).2 = none ∧
      ((reserveScript s.store [(0, 7)] 200 1 300 0).1.pool 0).reserveSequence =
        (s.store.pool 0).reserveSequence + 1 ∧
      (reserve s.store [(0, 7)] 200 1 300 0).2 = .unavailable ∧ ¬ Unbroken s.store := by
  have hrun : (EventMachine.run step (System.start fun _ => {}) fractionalRefresh).any (fun s =>
      (s.store.pool 0).credits = some (3 / 2) ∧ (s.store.pool 0).disabled = false ∧
        (s.store.pool 0).cooldownUntil ≤ 200 ∧
        (reserveScript s.store [(0, 7)] 200 1 300 0).2 = none ∧
        ((reserveScript s.store [(0, 7)] 200 1 300 0).1.pool 0).reserveSequence =
          (s.store.pool 0).reserveSequence + 1 ∧
        (reserve s.store [(0, 7)] 200 1 300 0).2 = .unavailable) = true := by
    decide +kernel
  obtain ⟨s, hs, hdata⟩ := (Option.any_eq_true _ _).mp hrun
  obtain ⟨hcredits, hdisabled, hcooldown, hfails, hsequence, hunavailable⟩ :=
    of_decide_eq_true hdata
  refine ⟨s, hs, hcredits, ⟨3 / 2, hcredits, hdisabled, hcooldown, by norm_num⟩, hfails, hsequence,
    hunavailable, fun h => ?_⟩
  exact h.reserveScript _ _ _ _ _ hfails

end CreditLedger
end FirecrawlGateway
