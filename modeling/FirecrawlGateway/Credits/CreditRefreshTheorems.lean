import FirecrawlGateway.Credits.CreditLedgerTheorems

/-!
# Credit refreshes and the usage they run into

A refresh captures the sequence number of a pool, reads a balance from Cloud, and reconciles.
`reconcile_credits` gives the balance it leaves: the snapshot less the reservations issued after
the capture that are still open. The two theorems below say exactly when this covers the usage
of the meantime: `refresh_covers_usage_iff` for one refresh, `refresh_covers_reservation_iff`
for a reservation that another refresh may have taken off the books.
-/

namespace FirecrawlGateway
namespace CreditLedger

open Redis

variable {κ ρ : Type*} [DecidableEq κ] [DecidableEq ρ]

/-! ## Usage after a capture -/

/-- `r` was issued from pool `p` after `sequence` was captured. -/
def System.issuedAfter (s : System κ ρ) (p : κ) (sequence : ℕ) (r : ρ) : Bool :=
  match s.record r with
  | some issue => issue.pool = p && sequence < issue.sequence
  | none => false

/-- The usage `settleActualUsage` reported for `r`. -/
def System.actualUsage (s : System κ ρ) (r : ρ) : ℕ :=
  match s.settlement r with
  | some settlement => settlement.actual.getD 0
  | none => 0

/-- The charge of `r` after `sequence`: its amount while open, then its actual usage. -/
def System.usageAfter (s : System κ ρ) (p : κ) (sequence : ℕ) (r : ρ) : ℕ :=
  if s.issuedAfter p sequence r then
    if s.store.isOpen r then issuedAmount s.record r else s.actualUsage r
  else 0

/-- The amount of `r` after `sequence`, while it is open. -/
def System.openAfter (s : System κ ρ) (p : κ) (sequence : ℕ) (r : ρ) : ℕ :=
  if s.issuedAfter p sequence r then
    if s.store.isOpen r then issuedAmount s.record r else 0
  else 0

/-- `settleActualUsage` reported no usage for the reservations issued after `sequence`. -/
def System.NothingSettledAfter (s : System κ ρ) (p : κ) (sequence : ℕ) : Prop :=
  ∀ r, s.issuedAfter p sequence r = true → s.actualUsage r = 0

omit [DecidableEq ρ] in
lemma issuedAfter_iff {s : System κ ρ} {p : κ} {sequence : ℕ} {r : ρ} :
    s.issuedAfter p sequence r = true ↔
      ∃ issue, s.record r = some issue ∧ issue.pool = p ∧ sequence < issue.sequence := by
  unfold System.issuedAfter
  cases s.record r <;> simp

lemma issued_of_issuedAfter {s : System κ ρ} (h : Inv s) {p : κ} {sequence : ℕ} {r : ρ}
    (hr : s.issuedAfter p sequence r = true) : r ∈ s.issued := by
  obtain ⟨issue, hrec, -⟩ := issuedAfter_iff.mp hr
  exact (h.issued r).mpr ⟨issue, hrec⟩

/-- What a reconciliation still finds outstanding are the open reservations issued after its
sequence. -/
lemma pending_eq {s : System κ ρ} (h : Inv s) (p : κ) (sequence : ℕ) :
    s.store.pending p sequence = ∑ r ∈ s.issued, s.openAfter p sequence r := by
  have hsub : (s.store.reservations p).members ⊆ s.issued := by
    intro r hr
    obtain ⟨issue, hrec, -⟩ := h.record_of_mem hr
    exact (h.issued r).mpr ⟨issue, hrec⟩
  have hopenAfter : ∀ r issue reservation, s.record r = some issue → issue.pool = p →
      s.store.reservation r = some reservation →
      s.store.outstandingAmount sequence r = s.openAfter p sequence r := by
    intro r issue reservation hrec hpool hres
    obtain ⟨issue', hrec', hamount, hseq, -⟩ := h.hash r reservation hres
    obtain rfl : issue = issue' := Option.some.inj (hrec.symm.trans hrec')
    simp [Store.outstandingAmount, Store.outstanding, System.openAfter, System.issuedAfter,
      Store.isOpen, issuedAmount, hres, hrec, hpool, hamount, hseq]
    by_cases hlt : sequence < issue.sequence <;> simp [hlt]
  unfold Store.pending
  rw [← Finset.sum_subset hsub]
  · refine Finset.sum_congr rfl fun r hr => ?_
    obtain ⟨issue, hrec, hpool⟩ := h.record_of_mem hr
    cases hres : s.store.reservation r with
    | none => simp [Store.outstandingAmount, System.openAfter, Store.isOpen, hres]
    | some reservation => exact hopenAfter r issue reservation hrec hpool hres
  · -- an open reservation of `p` is in its sorted set
    intro r _ hr
    unfold System.openAfter
    split_ifs with hafter hopen
    · obtain ⟨issue, hrec, hpool, -⟩ := issuedAfter_iff.mp hafter
      exact absurd (hpool ▸ h.mem_of_open hrec hopen) hr
    · rfl
    · rfl

/-- The balance a refresh leaves. -/
theorem reconcile_credits {s : System κ ρ} (h : Inv s) (p : κ) (S : ℚ)
    (sequence now renewsAt : ℕ) :
    ((reconcile s.store p S sequence now renewsAt).pool p).credits =
      some (max 0 (S - ∑ r ∈ s.issued, (s.openAfter p sequence r : ℚ))) := by
  obtain ⟨-, hcredits, -⟩ := reconcileScript_spec s.store p (max 0 S) sequence now renewsAt
  refine hcredits.trans (congrArg some ?_)
  rw [pending_eq h]
  push_cast
  have hnonneg : 0 ≤ ∑ r ∈ s.issued, (s.openAfter p sequence r : ℚ) :=
    Finset.sum_nonneg fun r _ => Nat.cast_nonneg _
  rcases le_total 0 S with hS | hS
  · rw [max_eq_right hS]
  · rw [max_eq_left hS, max_eq_left (by linarith), max_eq_left (by linarith)]

/-! ## One refresh -/

omit [DecidableEq ρ] in
lemma usageAfter_eq (s : System κ ρ) (p : κ) (sequence : ℕ) (r : ρ) :
    s.usageAfter p sequence r = s.openAfter p sequence r +
      if s.issuedAfter p sequence r && !s.store.isOpen r then s.actualUsage r else 0 := by
  unfold System.usageAfter System.openAfter
  cases s.issuedAfter p sequence r <;> cases s.store.isOpen r <;> simp

omit [DecidableEq κ] in
/-- An open reservation has no reported usage. -/
lemma actualUsage_of_open {s : System κ ρ} (h : Inv s) {r : ρ} (hopen : s.store.isOpen r = true) :
    s.actualUsage r = 0 := by
  simp [System.actualUsage, h.settlement_of_open hopen]

/-- Taking a further amount off a balance changes it unless there is nothing left to take. -/
lemma max_sub_le_iff {S x y : ℚ} (hy : 0 ≤ y) :
    max 0 (S - x) ≤ max 0 (S - (x + y)) ↔ y = 0 ∨ S ≤ x := by
  constructor
  · intro hle
    by_contra hnot
    obtain ⟨hy0, hx⟩ := not_or.mp hnot
    have hpos : 0 < y := lt_of_le_of_ne hy (Ne.symm hy0)
    have hS : 0 < S - x := by linarith [not_le.mp hx]
    rw [max_eq_right hS.le] at hle
    rcases le_max_iff.mp hle with hle | hle <;> linarith
  · rintro (rfl | hx)
    · simp
    · rw [max_eq_left (by linarith)]
      exact le_max_left _ _

/-- However the pool is used between a capture and its reconciliation, the refresh covers the
usage after the capture exactly when `settleActualUsage` reported none of it, or what is still
open uses up the snapshot anyway. -/
theorem refresh_covers_usage_iff {s₀ s₁ s₂ : System κ ρ} (h₀ : Reachable s₀) (p : κ)
    {es : List (Event κ ρ)} (hrun : EventMachine.run step s₀ es = some s₁) (S : ℚ)
    (now renewsAt : ℕ)
    (hstep : step s₁ (.reconcile p S (captureScript s₀.store p) now renewsAt) = some s₂) :
    ∃ c, (s₂.store.pool p).credits = some c ∧
      (c ≤ max 0 (S - ∑ r ∈ s₁.issued, (s₁.usageAfter p (captureScript s₀.store p) r : ℚ)) ↔
        s₁.NothingSettledAfter p (captureScript s₀.store p) ∨
          S ≤ ∑ r ∈ s₁.issued, (s₁.openAfter p (captureScript s₀.store p) r : ℚ)) := by
  have h₁ : Inv s₁ := h₀.inv.run hrun
  set sequence := captureScript s₀.store p with hsequence
  cases hstep
  refine ⟨_, reconcile_credits h₁ p S sequence now renewsAt, ?_⟩
  have hsum : ∑ r ∈ s₁.issued, (s₁.usageAfter p sequence r : ℚ) =
      ∑ r ∈ s₁.issued, (s₁.openAfter p sequence r : ℚ) +
        ((∑ r ∈ s₁.issued, if s₁.issuedAfter p sequence r && !s₁.store.isOpen r then
          s₁.actualUsage r else 0 : ℕ) : ℚ) := by
    push_cast
    rw [← Finset.sum_add_distrib]
    refine Finset.sum_congr rfl fun r _ => ?_
    rw [usageAfter_eq]
    push_cast
    rfl
  rw [hsum, max_sub_le_iff (Nat.cast_nonneg _), Nat.cast_eq_zero, Finset.sum_eq_zero_iff]
  refine or_congr_left ⟨fun hzero r hr => ?_, fun hnothing r _ => ?_⟩
  · -- what is open has no reported usage, what is closed adds its own to the sum
    have := hzero r (issued_of_issuedAfter h₁ hr)
    cases hopen : s₁.store.isOpen r with
    | true => exact actualUsage_of_open h₁ hopen
    | false => simpa [hr, hopen] using this
  · split_ifs with hc
    · exact hnothing r (Bool.and_eq_true_iff.mp hc).1
    · rfl

/-- A pool of fifty credits, as a first refresh leaves it. -/
def firstRefresh : List (Event ℕ ℕ) := [.reconcile 0 50 0 0 0]

/-- A reservation is settled with five credits, and another one of three stays open. -/
def usedMeanwhile : List (Event ℕ ℕ) :=
  [.reserve [(0, 7)] 1 1 300 0, .settleActualUsage 7 5, .reserve [(0, 8)] 2 3 300 0]

/-- What stays open uses up a snapshot of three credits, so that the five are covered, too. -/
theorem refresh_covers_usage_iff_sample :
    ∃ s₀ s₁ s₂ : System ℕ ℕ, ∃ c, EventMachine.run step s₀ usedMeanwhile = some s₁ ∧
      (s₂.store.pool 0).credits = some c ∧
      ∑ r ∈ s₁.issued, (s₁.usageAfter 0 (captureScript s₀.store 0) r : ℚ) = 8 ∧
      c ≤ max 0 (3 - ∑ r ∈ s₁.issued, (s₁.usageAfter 0 (captureScript s₀.store 0) r : ℚ)) := by
  have hrun : ((EventMachine.run step (System.start fun _ => {}) firstRefresh).bind fun s₀ =>
      (EventMachine.run step s₀ usedMeanwhile).map fun s₁ =>
        (∑ r ∈ s₁.issued, s₁.usageAfter 0 (captureScript s₀.store 0) r,
          ∑ r ∈ s₁.issued, s₁.openAfter 0 (captureScript s₀.store 0) r)) = some (8, 3) := by
    decide +kernel
  obtain ⟨s₀, h₀, hrun⟩ := Option.bind_eq_some_iff.mp hrun
  obtain ⟨s₁, h₁, hrun⟩ := Option.map_eq_some_iff.mp hrun
  obtain ⟨husage, hopen⟩ := Prod.mk.inj hrun
  obtain ⟨c, hcredits, hcovers⟩ := refresh_covers_usage_iff ⟨firstRefresh, h₀⟩ 0 h₁ 3 3 0 rfl
  refine ⟨s₀, s₁, _, c, h₁, hcredits, ?_, hcovers.mpr (Or.inr ?_)⟩
  · rw [← Nat.cast_sum, husage]
    norm_num
  · rw [← Nat.cast_sum, hopen]
    norm_num

/-- Five credits used and settled between the capture and the reconciliation: the refresh puts
the balance back to a snapshot that does not know of them. -/
theorem refresh_forgets_settled_usage :
    ∃ s₀ s₁ s₂ : System ℕ ℕ, Reachable s₀ ∧
      EventMachine.run step s₀ [.reserve [(0, 7)] 1 1 300 0, .settleActualUsage 7 5] = some s₁ ∧
      step s₁ (.reconcile 0 100 (captureScript s₀.store 0) 2 0) = some s₂ ∧
      (s₂.store.pool 0).credits = some 100 ∧
      ¬ (100 : ℚ) ≤
        max 0 (100 - ∑ r ∈ s₁.issued, (s₁.usageAfter 0 (captureScript s₀.store 0) r : ℚ)) := by
  have hrun : ((EventMachine.run step (System.start fun _ => {}) firstRefresh).bind fun s₀ =>
      (EventMachine.run step s₀ [.reserve [(0, 7)] 1 1 300 0, .settleActualUsage 7 5]).bind
        fun s₁ => (step s₁ (.reconcile 0 100 (captureScript s₀.store 0) 2 0)).map fun s₂ =>
          ((s₂.store.pool 0).credits,
            ∑ r ∈ s₁.issued, s₁.usageAfter 0 (captureScript s₀.store 0) r)) =
      some (some 100, 5) := by
    decide +kernel
  obtain ⟨s₀, h₀, hrun⟩ := Option.bind_eq_some_iff.mp hrun
  obtain ⟨s₁, h₁, hrun⟩ := Option.bind_eq_some_iff.mp hrun
  obtain ⟨s₂, h₂, hrun⟩ := Option.map_eq_some_iff.mp hrun
  obtain ⟨hcredits, husage⟩ := Prod.mk.inj hrun
  refine ⟨s₀, s₁, s₂, ⟨_, h₀⟩, h₁, h₂, hcredits, ?_⟩
  rw [← Nat.cast_sum, husage]
  norm_num

/-! ## A reservation and another refresh -/

/-- A settlement or the expiry of `r`. -/
def Event.Touches (r : ρ) : Event κ ρ → Prop
  | .settle a _ _ => a = r
  | .settleActualUsage a _ => a = r
  | .expire a => a = r
  | _ => False

/-- Sequence numbers only grow. -/
lemma reserveSequence_mono {s t : System κ ρ} (h : Inv s) {e : Event κ ρ}
    (hstep : step s e = some t) (p : κ) :
    (s.store.pool p).reserveSequence ≤ (t.store.pool p).reserveSequence := by
  have hupdate : ∀ (q : κ) (pool : Pool),
      (s.store.pool q).reserveSequence ≤ pool.reserveSequence →
      (s.store.pool p).reserveSequence ≤ (Function.update s.store.pool q pool p).reserveSequence := by
    intro q pool hle
    by_cases hp : p = q
    · subst hp
      simpa using hle
    · rw [Function.update_of_ne hp]
  rcases step_move h hstep with ⟨q, S, n, now, renewsAt, -, rfl⟩ | hmove
  · obtain ⟨hothers, -, -, hseq, -⟩ := reconcileScript_spec s.store q (max 0 S) n now renewsAt
    by_cases hp : p = q
    · subst hp
      exact hseq.ge
    · exact (congrArg Pool.reserveSequence (hothers p hp).1).ge
  · cases hmove with
    | idle => exact le_rfl
    | skip q => exact hupdate q _ (Nat.le_succ _)
    | issue q r credits now amount ttl _ _ _ => exact hupdate q _ (Nat.le_succ _)
    | forget r issue pool settlement _ _ _ hsequence _ _ _ => exact hupdate _ _ hsequence.ge
    | close r issue pool hash settlement _ _ _ hsequence _ _ _ _ => exact hupdate _ _ hsequence.ge
    | expire r => exact le_rfl

lemma reserveSequence_run {s t : System κ ρ} (h : Inv s) {es : List (Event κ ρ)}
    (hrun : EventMachine.run step s es = some t) (p : κ) :
    (s.store.pool p).reserveSequence ≤ (t.store.pool p).reserveSequence :=
  (EventMachine.run_invariant
    (I := fun t => Inv t ∧ (s.store.pool p).reserveSequence ≤ (t.store.pool p).reserveSequence)
    (fun _ _ _ hi hs => ⟨hi.1.step hs, hi.2.trans (reserveSequence_mono hi.1 hs p)⟩)
    ⟨h, le_rfl⟩ hrun).2

/-- A new reservation is open, and its sequence number is new. -/
lemma reserve_fresh {s t : System κ ρ} (h : Inv s) {keys : List (κ × ρ)} {now amount ttl : ℕ}
    {random : ℚ} (hstep : step s (.reserve keys now amount ttl random) = some t) {r : ρ}
    (hr : r ∉ s.issued) {issue : Record κ} (hrec : t.record r = some issue) :
    t.store.isOpen r = true ∧ (s.store.pool issue.pool).reserveSequence < issue.sequence := by
  have hnone := h.fresh hr
  rcases reserve_cases hstep with rfl | ⟨q, -, rfl⟩ | ⟨q, a, credits, left, ha, -, -, -, rfl⟩
  · rw [hnone] at hrec
    cases hrec
  · cases hnone.symm.trans hrec
  · by_cases har : r = a
    · subst har
      simp only [Function.update_self, Option.some.injEq] at hrec
      subst hrec
      exact ⟨by simp [Store.isOpen, Store.issue], Nat.lt_succ_self _⟩
    · simp only [Function.update_of_ne har] at hrec
      cases hnone.symm.trans hrec

omit [DecidableEq κ] in
/-- Settlements of another reservation leave the hash of `r` alone. -/
lemma recordSettlement_frame (s : System κ ρ) {store : Store κ ρ} {a r : ρ}
    (hr : store.reservation r = s.store.reservation r) (x : Settlement) (reply : Option Bool) :
    (recordSettlement s store a x reply).record = s.record ∧
      (recordSettlement s store a x reply).store.reservation r = s.store.reservation r := by
  obtain ⟨settlements, heq, -, -⟩ := recordSettlement_eq (s := s) store a x reply
  rw [heq]
  exact ⟨rfl, hr⟩

/-- An open reservation stays open until it is settled, expires, or is reconciled. -/
lemma stays_open {s t : System κ ρ} (h : Inv s) {r : ρ} {issue : Record κ}
    (hrec : s.record r = some issue) (hopen : s.store.isOpen r = true) {e : Event κ ρ}
    (he : ¬ e.Touches r)
    (hreconcile : ∀ S n now renewsAt, e = .reconcile issue.pool S n now renewsAt →
      n < issue.sequence)
    (hstep : step s e = some t) : t.record r = some issue ∧ t.store.isOpen r = true := by
  obtain ⟨reservation, hres, hstate, -, hseq, -⟩ := h.reservation_of_open hrec hopen
  have hkeep : t.record r = s.record r ∧ t.store.reservation r = s.store.reservation r →
      t.record r = some issue ∧ t.store.isOpen r = true := fun hk =>
    ⟨hk.1.trans hrec, (Store.isOpen_congr hk.2).trans hopen⟩
  refine hkeep ?_
  cases e with
  | reserve keys now amount ttl random =>
    rcases reserve_cases hstep with rfl | ⟨q, -, rfl⟩ | ⟨q, a, credits, left, ha, -, -, -, rfl⟩
    · exact ⟨rfl, rfl⟩
    · exact ⟨rfl, rfl⟩
    · have har : r ≠ a := by
        rintro rfl
        exact ha ((h.issued r).mpr ⟨issue, hrec⟩)
      exact ⟨Function.update_of_ne har _ _, Function.update_of_ne har _ _⟩
  | capture q =>
    cases hstep
    exact ⟨rfl, rfl⟩
  | settle a action cooldownUntil =>
    have har : r ≠ a := fun hra => he hra.symm
    obtain ⟨issue', hrec', heq⟩ := Option.map_eq_some_iff.mp hstep
    have hframe : (settleScript s.store issue'.pool a action cooldownUntil).1.reservation r =
        s.store.reservation r := by
      cases hopen' : s.store.isOpen a with
      | false =>
        rw [settleScript_of_not_open hopen']
        exact Function.update_of_ne har _ _
      | true =>
        obtain ⟨reservation', hres', hstate', -, -, hnot⟩ := h.reservation_of_open hrec' hopen'
        rw [settleScript_of_open hres' hstate' hnot]
        cases hincrby (s.store.pool issue'.pool).credits reservation'.amount <;>
          exact Function.update_of_ne har _ _
    rw [← heq]
    obtain ⟨hrecords, hhash⟩ := recordSettlement_frame s hframe (a := a) ⟨none, 0⟩
      (settleScript s.store issue'.pool a action cooldownUntil).2
    exact ⟨congrFun hrecords r, hhash⟩
  | settleActualUsage a actual =>
    have har : r ≠ a := fun hra => he hra.symm
    obtain ⟨issue', hrec', heq⟩ := Option.map_eq_some_iff.mp hstep
    have hframe : (actualUsageScript s.store issue'.pool a actual).1.reservation r =
        s.store.reservation r := by
      cases hopen' : s.store.isOpen a with
      | false =>
        rw [actualUsageScript_of_not_open hopen']
        exact Function.update_of_ne har _ _
      | true =>
        obtain ⟨reservation', hres', hstate', -, -, -⟩ := h.reservation_of_open hrec' hopen'
        rw [actualUsageScript_of_open hres' hstate']
        cases adjustCredits (s.store.pool issue'.pool).credits reservation'.amount actual with
        | none => rfl
        | some credits => exact Function.update_of_ne har _ _
    rw [← heq]
    obtain ⟨hrecords, hhash⟩ := recordSettlement_frame s hframe (a := a)
      ⟨some actual, actualCharge (s.store.pool issue'.pool) issue'.amount actual⟩
      (actualUsageScript s.store issue'.pool a actual).2
    exact ⟨congrFun hrecords r, hhash⟩
  | reconcile q S n now renewsAt =>
    cases hstep
    obtain ⟨-, -, -, -, -, hhash⟩ := reconcileScript_spec s.store q (max 0 S) n now renewsAt
    refine ⟨rfl, (hhash r).trans (if_neg ?_)⟩
    rintro ⟨hmem, hout⟩
    -- `r` is swept in its own pool only, and there it is still outstanding
    obtain ⟨issue', hrec', hpool⟩ := h.record_of_mem hmem
    obtain rfl : issue = issue' := Option.some.inj (hrec.symm.trans hrec')
    have hlt := hreconcile S n now renewsAt (by rw [hpool])
    simp [Store.outstanding, hres, hstate, hseq, hlt] at hout
  | expire a =>
    have har : r ≠ a := fun hra => he hra.symm
    cases hstep
    exact ⟨rfl, Function.update_of_ne har _ _⟩

/-- An open reservation over a run that neither touches it nor reconciles it away. -/
lemma stays_open_run {s t : System κ ρ} (h : Inv s) {r : ρ} {issue : Record κ}
    (hrec : s.record r = some issue) (hopen : s.store.isOpen r = true) {es : List (Event κ ρ)}
    (hes : ∀ e ∈ es, ¬ e.Touches r)
    (hreconcile : ∀ S n now renewsAt, Event.reconcile issue.pool S n now renewsAt ∈ es →
      n < issue.sequence)
    (hrun : EventMachine.run step s es = some t) :
    t.record r = some issue ∧ t.store.isOpen r = true := by
  have hguard : ∀ e ∈ es, ¬ e.Touches r ∧ ∀ S n now renewsAt,
      e = .reconcile issue.pool S n now renewsAt → n < issue.sequence :=
    fun e he => ⟨hes e he, fun S n now renewsAt heq => hreconcile S n now renewsAt (heq ▸ he)⟩
  exact (EventMachine.run_invariant_along
    (I := fun t => Inv t ∧ t.record r = some issue ∧ t.store.isOpen r = true)
    (fun _ _ _ hi he hs => ⟨hi.1.step hs, stays_open hi.1 hi.2.1 hi.2.2 he.1 he.2 hs⟩)
    ⟨h, hrec, hopen⟩ (EventMachine.along_of_forall step s hguard) hrun).2

/-- A reconciliation at or above the sequence number of an open reservation deletes its hash. -/
lemma gone_of_reconcile {s t : System κ ρ} (h : Inv s) {r : ρ} {issue : Record κ}
    (hrec : s.record r = some issue) (hopen : s.store.isOpen r = true) {S : ℚ}
    {n now renewsAt : ℕ} (hle : issue.sequence ≤ n)
    (hstep : step s (.reconcile issue.pool S n now renewsAt) = some t) : Gone r t := by
  obtain ⟨reservation, hres, -, -, hseq, -⟩ := h.reservation_of_open hrec hopen
  have hout : s.store.outstanding n r = false := by
    simp [Store.outstanding, hres, hseq, hle]
  cases hstep
  obtain ⟨-, -, -, -, -, hhash⟩ :=
    reconcileScript_spec s.store issue.pool (max 0 S) n now renewsAt
  exact ⟨⟨issue, hrec⟩, (hhash r).trans (if_pos ⟨h.mem_of_open hrec hopen, hout⟩)⟩

/-- A later snapshot reconciled anywhere in a run takes an open reservation off the books. -/
lemma gone_of_late_reconcile {s t : System κ ρ} (h : Inv s) {r : ρ} {issue : Record κ}
    (hrec : s.record r = some issue) (hopen : s.store.isOpen r = true) {es : List (Event κ ρ)}
    (hes : ∀ e ∈ es, ¬ e.Touches r) {S : ℚ} {n now renewsAt : ℕ}
    (hmem : Event.reconcile issue.pool S n now renewsAt ∈ es) (hle : issue.sequence ≤ n)
    (hrun : EventMachine.run step s es = some t) : Gone r t := by
  induction es generalizing s with
  | nil => exact absurd hmem List.not_mem_nil
  | cons e es ih =>
    obtain ⟨s', hs', hrun'⟩ := (EventMachine.run_cons_eq_some step).mp hrun
    obtain ⟨he, hes'⟩ := List.forall_mem_cons.mp hes
    by_cases hlate : ∃ S n now renewsAt, e = .reconcile issue.pool S n now renewsAt ∧
        issue.sequence ≤ n
    · -- the first such reconciliation deletes the hash for good
      obtain ⟨S', n', now', renewsAt', rfl, hle'⟩ := hlate
      exact Gone.run (h.step hs') (gone_of_reconcile h hrec hopen hle' hs') hrun'
    · -- before it, the reservation stays open
      have hearly : ∀ S n now renewsAt, e = .reconcile issue.pool S n now renewsAt →
          n < issue.sequence := fun S n now renewsAt heq =>
        not_le.mp fun hle' => hlate ⟨S, n, now, renewsAt, heq, hle'⟩
      obtain ⟨hrec', hopen'⟩ := stays_open h hrec hopen he hearly hs'
      have hmem' : Event.reconcile issue.pool S n now renewsAt ∈ es :=
        (List.mem_cons.mp hmem).resolve_left fun heq => hlate ⟨S, n, now, renewsAt, heq.symm, hle⟩
      exact ih (h.step hs') hrec' hopen' hes' hmem' hrun'

lemma max_sub_le_max_sub_iff {S x a : ℚ} :
    max 0 (S - x) ≤ max 0 (S - a) ↔ min S a ≤ x := by
  rw [min_le_iff]
  constructor
  · intro hle
    by_contra hnot
    obtain ⟨hS, ha⟩ := not_or.mp hnot
    rw [max_eq_right (by linarith [not_le.mp hS])] at hle
    rcases le_max_iff.mp hle with hle | hle <;> linarith
  · rintro (hS | ha)
    · rw [max_eq_left (by linarith)]
      exact le_max_left _ _
    · exact max_le_max le_rfl (by linarith)

/-- A reservation made after a refresh's capture, and neither settled nor expired since, is
covered by that refresh exactly when no other reconciliation of a later snapshot has taken it
off the books, or other open reservations happen to cover as much. -/
theorem refresh_covers_reservation_iff {s₀ s₁ s₂ s₃ s₄ : System κ ρ} (h₀ : Reachable s₀)
    {es : List (Event κ ρ)} (hes : EventMachine.run step s₀ es = some s₁)
    {keys : List (κ × ρ)} {now amount ttl : ℕ} {random : ℚ}
    (hreserve : step s₁ (.reserve keys now amount ttl random) = some s₂) {r : ρ}
    (hr : r ∉ s₁.issued) {issue : Record κ} (hrec : s₂.record r = some issue)
    {fs : List (Event κ ρ)} (hfs : EventMachine.run step s₂ fs = some s₃)
    (huntouched : ∀ e ∈ fs, ¬ e.Touches r) (S : ℚ) (now' renewsAt : ℕ)
    (hstep : step s₃
      (.reconcile issue.pool S (captureScript s₀.store issue.pool) now' renewsAt) = some s₄) :
    ∃ c, (s₄.store.pool issue.pool).credits = some c ∧
      (c ≤ max 0 (S - issue.amount) ↔
        (∀ S' n now renewsAt, Event.reconcile issue.pool S' n now renewsAt ∈ fs →
          n < issue.sequence) ∨
        min S issue.amount ≤ ∑ a ∈ s₃.issued.erase r,
          (s₃.openAfter issue.pool (captureScript s₀.store issue.pool) a : ℚ)) := by
  have h₁ : Inv s₁ := h₀.inv.run hes
  have h₂ : Inv s₂ := h₁.step hreserve
  have h₃ : Inv s₃ := h₂.run hfs
  obtain ⟨hopen, hnew⟩ := reserve_fresh h₁ hreserve hr hrec
  set sequence := captureScript s₀.store issue.pool with hsequence
  cases hstep
  refine ⟨_, reconcile_credits h₃ issue.pool S sequence now' renewsAt, ?_⟩
  rw [max_sub_le_max_sub_iff]
  have hothers : ∑ a ∈ s₃.issued.erase r, (s₃.openAfter issue.pool sequence a : ℚ) ≤
      ∑ a ∈ s₃.issued, (s₃.openAfter issue.pool sequence a : ℚ) :=
    Finset.sum_le_sum_of_subset_of_nonneg (Finset.erase_subset _ _)
      fun a _ _ => Nat.cast_nonneg _
  by_cases hlate : ∀ S' n now renewsAt, Event.reconcile issue.pool S' n now renewsAt ∈ fs →
      n < issue.sequence
  · -- the reservation is still open, and the reconciliation subtracts it
    refine iff_of_true ?_ (Or.inl hlate)
    obtain ⟨hrec₃, hopen₃⟩ := stays_open_run h₂ hrec hopen huntouched hlate hfs
    have hafter : s₃.issuedAfter issue.pool sequence r = true :=
      issuedAfter_iff.mpr ⟨issue, hrec₃, rfl, (reserveSequence_run h₀.inv hes _).trans_lt hnew⟩
    have hamount : s₃.openAfter issue.pool sequence r = issue.amount := by
      simp [System.openAfter, hafter, hopen₃, issuedAmount_eq hrec₃]
    refine (min_le_right _ _).trans ?_
    rw [← hamount]
    exact Finset.single_le_sum (f := fun a => (s₃.openAfter issue.pool sequence a : ℚ))
      (fun a _ => Nat.cast_nonneg _) (issued_of_issuedAfter h₃ hafter)
  · -- the reservation is off the books, so only the others count
    refine ⟨fun hcovered => Or.inr ?_, fun hcovered => (hcovered.resolve_left hlate).trans hothers⟩
    push Not at hlate
    obtain ⟨S', n, now, renewsAt', hmem, hle⟩ := hlate
    have hgone := gone_of_late_reconcile h₂ hrec hopen huntouched hmem hle hfs
    have hzero : s₃.openAfter issue.pool sequence r = 0 := by
      simp [System.openAfter, Store.isOpen_of_none hgone.2]
    rwa [Finset.sum_erase s₃.issued (by rw [hzero, Nat.cast_zero])]

theorem refresh_covers_reservation_iff_sample :
    ∃ s₃ s₄ : System ℕ ℕ, ∃ c, (s₄.store.pool 0).credits = some c ∧
      (c ≤ max 0 (100 - ((1 : ℕ) : ℚ)) ↔
        (∀ S' n now renewsAt, Event.reconcile 0 S' n now renewsAt ∈ ([] : List (Event ℕ ℕ)) →
          n < 1) ∨
        min 100 ((1 : ℕ) : ℚ) ≤ ∑ a ∈ s₃.issued.erase 7,
          (s₃.openAfter 0 (captureScript (System.start fun _ => {} : System ℕ ℕ).store 0) a : ℚ)) := by
  have hrun : ((EventMachine.run step (System.start fun _ => {}) firstRefresh).bind fun s₁ =>
      (step s₁ (.reserve [(0, 7)] 1 1 300 0)).map fun s₂ => (s₁.issued, s₂.record 7)) =
      some (∅, some ⟨0, 1, 1⟩) := by
    decide +kernel
  obtain ⟨s₁, h₁, hrun⟩ := Option.bind_eq_some_iff.mp hrun
  obtain ⟨s₂, h₂, hrun⟩ := Option.map_eq_some_iff.mp hrun
  obtain ⟨hissued, hrec⟩ := Prod.mk.inj hrun
  exact ⟨s₂, _, refresh_covers_reservation_iff ⟨[], rfl⟩ h₁ h₂ (by simp [hissued]) hrec
    (EventMachine.run_nil step s₂) (by simp) 100 2 0 rfl⟩

/-- Two refreshes around one reservation: the later snapshot is reconciled first and takes the
reservation off the books, then the earlier snapshot overwrites the balance. -/
theorem refresh_overwrites_newer_snapshot :
    ∃ s₀ s₁ s₂ s₃ : System ℕ ℕ, Reachable s₀ ∧
      step s₀ (.reserve [(0, 7)] 1 1 300 0) = some s₁ ∧ s₁.record 7 = some ⟨0, 1, 1⟩ ∧
      EventMachine.run step s₁ [.capture 0, .reconcile 0 99 (captureScript s₁.store 0) 2 0] =
        some s₂ ∧
      step s₂ (.reconcile 0 100 (captureScript s₀.store 0) 3 0) = some s₃ ∧
      (s₃.store.pool 0).credits = some 100 ∧ ¬ (100 : ℚ) ≤ max 0 (100 - 1) := by
  have hrun : ((EventMachine.run step (System.start fun _ => {}) firstRefresh).bind fun s₀ =>
      (step s₀ (.reserve [(0, 7)] 1 1 300 0)).bind fun s₁ =>
        (EventMachine.run step s₁
          [.capture 0, .reconcile 0 99 (captureScript s₁.store 0) 2 0]).bind fun s₂ =>
            (step s₂ (.reconcile 0 100 (captureScript s₀.store 0) 3 0)).map fun s₃ =>
              (s₁.record 7, (s₃.store.pool 0).credits)) =
      some (some ⟨0, 1, 1⟩, some 100) := by
    decide +kernel
  obtain ⟨s₀, h₀, hrun⟩ := Option.bind_eq_some_iff.mp hrun
  obtain ⟨s₁, h₁, hrun⟩ := Option.bind_eq_some_iff.mp hrun
  obtain ⟨s₂, h₂, hrun⟩ := Option.bind_eq_some_iff.mp hrun
  obtain ⟨s₃, h₃, hrun⟩ := Option.map_eq_some_iff.mp hrun
  obtain ⟨hrec, hcredits⟩ := Prod.mk.inj hrun
  exact ⟨s₀, s₁, s₂, s₃, ⟨_, h₀⟩, h₁, hrec, h₂, h₃, hcredits, by norm_num⟩

end CreditLedger
end FirecrawlGateway
