import FirecrawlGateway.Credits.CreditLedgerInvariant

/-!
# Conservation and representation

The two main properties of the ledger. `represented` collects what holds in every state an
empty store can get to, for the store itself and for the next `RESERVE` and `RECONCILE`.
`conserved` follows the credits of one pool: a credit is in the balance, held by an open
reservation, or charged.
-/

namespace FirecrawlGateway
namespace CreditLedger

open Redis

variable {κ ρ : Type*} [DecidableEq κ] [DecidableEq ρ]

/-! ## Settlements that come too late -/

/-- A refund, cooldown or actual-usage settlement of `r`. -/
def Event.Settles (r : ρ) : Event κ ρ → Prop
  | .settle a action _ => a = r ∧ action ≠ .disabled
  | .settleActualUsage a _ => a = r
  | _ => False

/-- `credits` and `reserved` are the same in all pools. -/
def SameBalances (s s' : Store κ ρ) : Prop :=
  ∀ p, (s'.pool p).credits = (s.pool p).credits ∧ (s'.pool p).reserved = (s.pool p).reserved

omit [DecidableEq ρ] in
lemma sameBalances_update (s : Store κ ρ) {s' : Store κ ρ} (p : κ) (pool : Pool)
    (hs' : s'.pool = Function.update s.pool p pool)
    (hcredits : pool.credits = (s.pool p).credits) (hreserved : pool.reserved = (s.pool p).reserved) :
    SameBalances s s' := by
  intro q
  rw [hs']
  by_cases hq : q = p
  · subst hq
    simp [hcredits, hreserved]
  · simp [Function.update_of_ne hq]

lemma applyAction_credits {pool : Pool} {action : SettleAction} (h : action ≠ .disabled)
    (cooldownUntil : ℕ) : (applyAction pool action cooldownUntil).credits = pool.credits := by
  unfold applyAction
  cases action with
  | refund => rfl
  | cooldown => split_ifs <;> rfl
  | disabled => exact absurd rfl h

/-- A settlement that finds no open reservation only deletes its hash. -/
lemma settles_of_not_open {s t : System κ ρ} {r : ρ} (hopen : s.store.isOpen r = false)
    {e : Event κ ρ} (he : e.Settles r) (hstep : step s e = some t) :
    ∃ issue pool settlement, s.record r = some issue ∧
      pool.credits = (s.store.pool issue.pool).credits ∧
      pool.reserved = (s.store.pool issue.pool).reserved ∧
      t = recordSettlement s (s.store.forget issue.pool r pool) r settlement (some false) := by
  cases e with
  | settle a action cooldownUntil =>
    obtain ⟨rfl, haction⟩ := he
    obtain ⟨issue, hrec, ht⟩ := Option.map_eq_some_iff.mp hstep
    rw [settleScript_of_not_open hopen] at ht
    exact ⟨issue, _, _, hrec, applyAction_credits haction cooldownUntil,
      (applyAction_fields _ action cooldownUntil).1, ht.symm⟩
  | settleActualUsage a actual =>
    obtain rfl : a = r := he
    obtain ⟨issue, hrec, ht⟩ := Option.map_eq_some_iff.mp hstep
    rw [actualUsageScript_of_not_open hopen] at ht
    exact ⟨issue, _, _, hrec, rfl, rfl, ht.symm⟩
  | reserve | capture | reconcile | expire => exact he.elim

lemma sameBalances_of_not_open {s t : System κ ρ} {r : ρ} (hopen : s.store.isOpen r = false)
    {e : Event κ ρ} (he : e.Settles r) (hstep : step s e = some t) :
    SameBalances s.store t.store := by
  obtain ⟨issue, pool, settlement, -, hcredits, hreserved, rfl⟩ :=
    settles_of_not_open hopen he hstep
  obtain ⟨settlements, heq, -, -⟩ := recordSettlement_eq (s := s)
    (s.store.forget issue.pool r pool) r settlement (some false)
  rw [heq]
  exact sameBalances_update s.store issue.pool pool rfl hcredits hreserved

/-- An issued reservation whose hash is gone. -/
def Gone (r : ρ) (s : System κ ρ) : Prop :=
  (∃ issue, s.record r = some issue) ∧ s.store.reservation r = none

/-- Hashes do not come back. -/
lemma Gone.step {r : ρ} {s t : System κ ρ} (h : Inv s) (hgone : Gone r s) {e : Event κ ρ}
    (hstep : step s e = some t) : Gone r t := by
  obtain ⟨⟨issue, hrec⟩, hnone⟩ := hgone
  have hissued : r ∈ s.issued := (h.issued r).mpr ⟨issue, hrec⟩
  have hother : ∀ a : ρ, ∀ hash : Option Reservation, (a = r → hash = none) →
      Function.update s.store.reservation a hash r = none := by
    intro a hash hhash
    by_cases ha : r = a
    · rw [ha, Function.update_self]
      exact hhash ha.symm
    · rw [Function.update_of_ne ha]
      exact hnone
  rcases step_move h hstep with ⟨p, x, sequence, now, renewsAt, rfl, rfl⟩ | hmove
  · obtain ⟨-, -, -, -, -, hhash⟩ :=
      reconcileScript_spec s.store p (max 0 x) sequence now renewsAt
    refine ⟨⟨issue, hrec⟩, ?_⟩
    show (reconcileScript s.store p (max 0 x) sequence now renewsAt).1.reservation r = none
    rw [hhash r, hnone, ite_self]
  · cases hmove with
    | idle => exact ⟨⟨issue, hrec⟩, hnone⟩
    | skip p => exact ⟨⟨issue, hrec⟩, hnone⟩
    | issue p a credits now amount ttl ha _ _ =>
      have hne : r ≠ a := by
        rintro rfl
        exact ha hissued
      refine ⟨⟨issue, ?_⟩, hother a _ fun hra => absurd hra.symm hne⟩
      simpa [Function.update_of_ne hne] using hrec
    | forget a _ pool settlement _ _ _ _ _ _ _ =>
      exact ⟨⟨issue, hrec⟩, hother a none fun _ => rfl⟩
    | close a _ pool hash settlement _ hopen _ _ _ _ _ _ =>
      -- the closed reservation was open, so it is another one
      refine ⟨⟨issue, hrec⟩, hother a hash fun har => ?_⟩
      rw [har, Store.isOpen_of_none hnone] at hopen
      cases hopen
    | expire a => exact ⟨⟨issue, hrec⟩, hother a none fun _ => rfl⟩

lemma Gone.run {r : ρ} {s t : System κ ρ} (h : Inv s) (hgone : Gone r s) {es : List (Event κ ρ)}
    (hrun : EventMachine.run CreditLedger.step s es = some t) : Gone r t := by
  have hboth : Inv t ∧ Gone r t := EventMachine.run_invariant (I := fun s => Inv s ∧ Gone r s)
    (fun _ _ _ hi hs => ⟨hi.1.step hs, hi.2.step hi.1 hs⟩) ⟨h, hgone⟩ hrun
  exact hboth.2

/-! ## The representation of a reachable store -/

/-- The counters, sorted sets and hashes agree with each other and with what was issued. -/
structure Balanced (s : System κ ρ) : Prop where
  credits : ∀ p c, (s.store.pool p).credits = some c → 0 ≤ c
  reserved : ∀ p, (s.store.pool p).reserved =
    ∑ r ∈ (s.store.reservations p).members, (issuedAmount s.record r : ℤ)
  opened : ∀ r, s.store.isOpen r = true → ∃! p, r ∈ (s.store.reservations p).members
  distinct : ∀ p r r' q, (r, q) ∈ (s.store.reservations p).entries →
    (r', q) ∈ (s.store.reservations p).entries → r = r'
  bounded : ∀ p r q, (r, q) ∈ (s.store.reservations p).entries →
    q ≤ (s.store.pool p).reserveSequence

/-- No later refund, cooldown or actual-usage settlement of `r` moves credits. -/
def Finalised (s : System κ ρ) (r : ρ) : Prop :=
  ∀ es t, EventMachine.run step s es = some t → ∀ e t', e.Settles r → step t e = some t' →
    SameBalances t.store t'.store

/-- What a `RECONCILE` leaves behind in its pool. -/
def Reconciles (s : System κ ρ) : Prop :=
  ∀ p remainingCredits sequence now renewsAt s',
    step s (.reconcile p remainingCredits sequence now renewsAt) = some s' →
    (∀ r q, (r, q) ∈ (s'.store.reservations p).entries →
      s'.store.isOpen r = true ∧ sequence < q) ∧
    ∀ r ∈ (s.store.reservations p).members, r ∉ (s'.store.reservations p).members →
      Finalised s' r

/-- What `reserve` returns and changes. -/
structure Reserves (s : Store κ ρ) (keys : List (κ × ρ)) (now amount ttl : ℕ) (random : ℚ) :
    Prop where
  reserved : ∀ i sequence r, (reserve s keys now amount ttl random).2 = .reserved i sequence r →
    ∃ p, keys[i]? = some (p, r) ∧ CanReserve (s.pool p) now amount ∧
      (∀ q, q ≠ p → (reserve s keys now amount ttl random).1.pool q = s.pool q ∧
        (reserve s keys now amount ttl random).1.reservations q = s.reservations q) ∧
      ∀ a, a ≠ r → (reserve s keys now amount ttl random).1.reservation a = s.reservation a
  noCapacity : (reserve s keys now amount ttl random).2 = .noCapacity ↔
    (∃ k ∈ keys, (s.pool k.1).credits ≠ none) ∧ ∀ k ∈ keys, ¬ CanReserve (s.pool k.1) now amount
  unavailable : (reserve s keys now amount ttl random).2 = .unavailable ↔
    ∀ k ∈ keys, (s.pool k.1).credits = none
  unchanged : (∀ i sequence r,
    (reserve s keys now amount ttl random).2 ≠ .reserved i sequence r) →
    (reserve s keys now amount ttl random).1 = s

omit [DecidableEq κ] in
lemma Inv.balanced {s : System κ ρ} (h : Inv s) : Balanced s where
  credits := h.credits
  reserved := h.reserved
  opened r hopen := by
    obtain ⟨reservation, hr, -⟩ := Store.isOpen_iff.mp hopen
    obtain ⟨issue, hrec, -⟩ := h.hash r reservation hr
    refine ⟨issue.pool, h.mem_of_open hrec hopen, fun p hp => ?_⟩
    obtain ⟨issue', hrec', hpool⟩ := h.record_of_mem hp
    rw [hrec, Option.some.injEq] at hrec'
    rw [← hpool, hrec']
  distinct p r r' q hr hr' := by
    obtain ⟨issue, hrec, hpool, hseq⟩ := h.member p r q hr
    obtain ⟨issue', hrec', hpool', hseq'⟩ := h.member p r' q hr'
    exact h.distinct r r' issue issue' hrec hrec' (hpool.trans hpool'.symm) (hseq.trans hseq'.symm)
  bounded p r q hr := by
    obtain ⟨issue, hrec, hpool, hseq⟩ := h.member p r q hr
    rw [← hpool, ← hseq]
    exact h.bounded r issue hrec

lemma Inv.reconciles {s : System κ ρ} (h : Inv s) : Reconciles s := by
  intro p x sequence now renewsAt s' hstep
  have h' := h.step hstep
  cases hstep
  obtain ⟨-, -, -, -, hentries, hhash⟩ :=
    reconcileScript_spec s.store p (max 0 x) sequence now renewsAt
  refine ⟨fun r q hr => ?_, fun r hr hnot => ?_⟩
  · -- a reservation that stays is outstanding, and keeps its hash
    obtain ⟨hmem, hout⟩ := (hentries r q).mp hr
    obtain ⟨issue, hrec, -, hseq⟩ := h.member p r q hmem
    have hkept : (reconcile s.store p x sequence now renewsAt).reservation r =
        s.store.reservation r := by
      refine (hhash r).trans (if_neg ?_)
      rw [hout]
      simp
    unfold Store.outstanding at hout
    cases hres : s.store.reservation r with
    | none => simp [hres] at hout
    | some reservation =>
      obtain ⟨issue', hrec', -, hseq', -⟩ := h.hash r reservation hres
      rw [hrec, Option.some.injEq] at hrec'
      simp only [hres, Bool.and_eq_true, decide_eq_true_eq] at hout
      refine ⟨Store.isOpen_iff.mpr ⟨reservation, hkept.trans hres, hout.1⟩, ?_⟩
      rw [← hseq, hrec', ← hseq']
      exact hout.2
  · -- a reservation that goes loses its hash, which never comes back
    obtain ⟨issue, hrec, -⟩ := h.record_of_mem hr
    have hout : s.store.outstanding sequence r = false := by
      by_contra hout
      obtain ⟨q, hq⟩ := SortedSet.mem_members.mp hr
      exact hnot (SortedSet.mem_members.mpr ⟨q, (hentries r q).mpr ⟨hq, by simpa using hout⟩⟩)
    have hgone : Gone r { s with store := reconcile s.store p x sequence now renewsAt } :=
      ⟨⟨issue, hrec⟩, (hhash r).trans (if_pos ⟨hr, hout⟩)⟩
    intro es t hrun e t' he hstep'
    exact sameBalances_of_not_open (Store.isOpen_of_none (Gone.run h' hgone hrun).2) he hstep'

/-- On integer balances `RESERVE_SCRIPT` does not fail. -/
lemma reserves {s : Store κ ρ} (hint : ∀ p, Integral (s.pool p)) (keys : List (κ × ρ))
    (now amount ttl : ℕ) (random : ℚ) : Reserves s keys now amount ttl random := by
  have hspec := selected_spec s keys now amount random
  have hscript := reserveScript_spec s keys now amount ttl random
  cases hkeys : keys.isEmpty with
  | true =>
    have hres : reserve s keys now amount ttl random = (s, .unavailable) := by
      simp [reserve, hkeys]
    obtain rfl := List.isEmpty_iff.mp hkeys
    constructor <;> simp [hres]
  | false =>
    have hres : reserve s keys now amount ttl random =
        ((reserveScript s keys now amount ttl random).1,
          reserveResult (reserveScript s keys now amount ttl random).2) := by
      simp [reserve, hkeys]
    cases hsel : selected s keys now amount random with
    | none =>
      rw [hsel] at hspec
      simp only [hsel] at hscript
      by_cases hany : (keys.any fun k => (s.pool k.1).credits.isSome) = true
      · -- some candidate is initialized, but none may be charged
        rw [if_pos hany] at hscript
        have hsome : ∃ k ∈ keys, (s.pool k.1).credits ≠ none := by
          obtain ⟨k, hk, hc⟩ := List.any_eq_true.mp hany
          exact ⟨k, hk, by simpa [Option.isSome_iff_ne_none] using hc⟩
        refine ⟨?_, ?_, ?_, ?_⟩ <;> rw [hres, hscript]
        · intro i sequence r hr
          cases hr
        · exact iff_of_true rfl ⟨hsome, hspec⟩
        · refine iff_of_false (by simp [reserveResult]) fun hall => ?_
          obtain ⟨k, hk, hc⟩ := hsome
          exact hc (hall k hk)
        · exact fun _ => rfl
      · -- no candidate is initialized
        rw [if_neg hany] at hscript
        have hall : ∀ k ∈ keys, (s.pool k.1).credits = none := by
          intro k hk
          by_contra hc
          exact hany (List.any_eq_true.mpr ⟨k, hk, Option.isSome_iff_ne_none.mpr hc⟩)
        refine ⟨?_, ?_, ?_, ?_⟩ <;> rw [hres, hscript]
        · intro i sequence r hr
          cases hr
        · refine iff_of_false (by simp [reserveResult]) fun hc => ?_
          obtain ⟨⟨k, hk, hc⟩, -⟩ := hc
          exact hc (hall k hk)
        · exact iff_of_true rfl hall
        · exact fun _ => rfl
    | some k =>
      obtain ⟨i, p, r⟩ := k
      rw [hsel] at hspec
      obtain ⟨hk, hcan⟩ := hspec
      obtain ⟨credits, hcredits, -⟩ := id hcan
      obtain ⟨n, rfl⟩ := isInt_iff.mp (hint p credits hcredits)
      have hincr : hincrby (s.pool p).credits (-amount) = some ((n + -amount : ℤ) : ℚ) := by
        rw [hcredits, ← hincrby_int]
        push_cast
        rfl
      simp only [hsel, reserveIn_spec, hincr] at hscript
      have hmem : (p, r) ∈ keys := List.mem_of_getElem? hk
      refine ⟨?_, ?_, ?_, ?_⟩ <;> rw [hres, hscript]
      · intro i' sequence r' hr
        simp only [reserveResult, LedgerReserveResult.reserved.injEq] at hr
        obtain ⟨rfl, -, rfl⟩ := hr
        refine ⟨p, hk, hcan, fun q hq => ?_, fun a ha => ?_⟩
        · simp [Store.issue, Function.update_of_ne hq]
        · simp [Store.issue, Function.update_of_ne ha]
      · exact iff_of_false (by simp [reserveResult]) fun hc => hc.2 _ hmem hcan
      · refine iff_of_false (by simp [reserveResult]) fun hall => ?_
        rw [hall _ hmem] at hcredits
        cases hcredits
      · exact fun hnot => absurd rfl (hnot i _ r)

/-- In every state an empty store gets to by reservations, settlements, expiries and
reconciliations with integer snapshots, over any pools. -/
theorem represented {es : List (Event κ ρ)} (hes : ∀ e ∈ es, e.IntegerSnapshot) {s : System κ ρ}
    (hrun : EventMachine.run step (System.start fun _ => {}) es = some s) :
    Balanced s ∧ Reconciles s ∧
      ∀ keys now amount ttl random, Reserves s.store keys now amount ttl random := by
  have hboth : Inv s ∧ ∀ p, Integral (s.store.pool p) :=
    EventMachine.run_invariant_along (G := fun _ e => e.IntegerSnapshot)
      (I := fun s : System κ ρ => Inv s ∧ ∀ p, Integral (s.store.pool p))
      (fun _ _ _ hi he hs => ⟨hi.1.step hs, step_integral hi.1 hi.2 he hs⟩)
      ⟨inv_start fun _ => ⟨rfl, fun _ hc => by cases hc⟩, fun _ _ hc => by cases hc⟩
      (EventMachine.along_of_forall step _ hes) hrun
  exact ⟨hboth.1.balanced, hboth.1.reconciles, reserves hboth.2⟩

/-- A first credit refresh, then a reservation. -/
def sampleEvents : List (Event ℕ ℕ) :=
  [.reconcile 0 10 0 100 0, .reserve [(0, 7)] 200 3 300 0]

theorem represented_sample :
    ∃ s, EventMachine.run step (System.start fun _ => {}) sampleEvents = some s ∧ Balanced s := by
  obtain ⟨s, hs⟩ := Option.isSome_iff_exists.mp (show (EventMachine.run step
    (System.start fun _ => {}) sampleEvents).isSome = true by decide +kernel)
  exact ⟨s, hs, (represented (by simp [sampleEvents, Event.IntegerSnapshot, Rat.isInt]) hs).1⟩

/-! ## Conservation -/

/-- Reservations, settlements but for `disabled`, and captures. -/
def Event.Conserving : Event κ ρ → Prop
  | .reserve .. => True
  | .capture _ => True
  | .settle _ action _ => action ≠ .disabled
  | .settleActualUsage .. => True
  | .reconcile .. => False
  | .expire _ => False

/-- The amount of `r`, if it is an open reservation of pool `p`. -/
def System.openAmount (s : System κ ρ) (p : κ) (r : ρ) : ℕ :=
  match s.record r with
  | some issue => if issue.pool = p ∧ s.store.isOpen r then issue.amount else 0
  | none => 0

/-- What the first settlement of `r` charged, if it is a settled reservation of pool `p`. -/
def System.charged (s : System κ ρ) (p : κ) (r : ρ) : ℚ :=
  match s.record r, s.settlement r with
  | some issue, some settlement => if issue.pool = p then settlement.charge else 0
  | _, _ => 0

/-- What pool `p` has given to `r`: its amount until it is settled, then its charge. -/
def System.share (s : System κ ρ) (p : κ) (r : ρ) : ℚ :=
  match s.record r with
  | some issue =>
    if issue.pool = p then
      match s.settlement r with
      | none => issue.amount
      | some settlement => settlement.charge
    else 0
  | none => 0

/-- The balance of pool `p` and the shares add up to `C`, and a reservation of `p` is open
until it is settled. -/
structure Conserved (p : κ) (C : ℕ) (s : System κ ρ) : Prop where
  inv : Inv s
  total : ∃ n : ℕ, (s.store.pool p).credits = some (n : ℚ) ∧ n + ∑ r ∈ s.issued, s.share p r = C
  unsettled : ∀ r issue, s.record r = some issue → issue.pool = p → s.settlement r = none →
    s.store.isOpen r = true

lemma conserved_start {pool : κ → Pool} (hpool : ∀ q, Unused (pool q)) {p : κ} {C : ℕ}
    (hp : (pool p).credits = some (C : ℚ)) : Conserved p C (System.start pool : System κ ρ) where
  inv := inv_start hpool
  total := ⟨C, hp, by simp [System.start]⟩
  unsettled := by simp [System.start]

/-- A sum in which one summand changes. -/
lemma sum_change {S : Finset ρ} {f g : ρ → ℚ} {r : ρ} (hr : r ∈ S)
    (h : ∀ a, a ≠ r → g a = f a) : ∑ a ∈ S, g a = ∑ a ∈ S, f a - f r + g r := by
  rw [← Finset.add_sum_erase S g hr, ← Finset.add_sum_erase S f hr,
    Finset.sum_congr rfl fun a ha => h a (Finset.ne_of_mem_erase ha)]
  ring

lemma hincrby_nat (n : ℕ) (m : ℤ) :
    hincrby (some (n : ℚ)) (m : ℚ) = some ((n + m : ℤ) : ℚ) := by
  exact_mod_cast hincrby_int n m

omit [DecidableEq ρ] in
/-- The shares of other reservations do not change in a settlement. -/
lemma share_congr {s t : System κ ρ} {p : κ} {r : ρ} (hrec : t.record r = s.record r)
    (hset : t.settlement r = s.settlement r) : t.share p r = s.share p r := by
  unfold System.share
  rw [hrec, hset]

lemma Conserved.reserve {p : κ} {C : ℕ} {s t : System κ ρ} (h : Conserved p C s)
    {keys : List (κ × ρ)} {now amount ttl : ℕ} {random : ℚ}
    (hstep : step s (.reserve keys now amount ttl random) = some t) : Conserved p C t := by
  have ht := h.inv.step hstep
  obtain ⟨n, hn, htotal⟩ := h.total
  rcases reserve_cases hstep with
    rfl | ⟨q, hincr, rfl⟩ | ⟨q, r, credits, left, hr, hcredits, hamount, hincr, heq⟩
  · exact h
  · -- the pool that failed holds a fraction, so it is not `p`
    have hq : p ≠ q := by
      rintro rfl
      have := hincrby_nat n (-amount)
      rw [← hn] at this
      push_cast at this
      rw [hincr] at this
      cases this
    refine ⟨ht, ⟨n, ?_, htotal⟩, h.unsettled⟩
    simpa [Store.setPool, Function.update_of_ne hq] using hn
  · -- a new reservation of `q`, which need not be `p`
    have hrec := h.inv.fresh hr
    have hset : s.settlement r = none := by
      by_contra hne
      obtain ⟨⟨issue, hissue⟩, -⟩ := h.inv.settled r hne
      rw [hrec] at hissue
      cases hissue
    have hshares : ∀ a ∈ s.issued, t.share p a = s.share p a := by
      intro a ha
      have hne : a ≠ r := by
        rintro rfl
        exact hr ha
      rw [heq]
      exact share_congr (Function.update_of_ne hne _ _) rfl
    have hnew : t.share p r = if q = p then (amount : ℚ) else 0 := by
      simp [System.share, heq, hset]
    have hsum : ∑ a ∈ t.issued, t.share p a =
        (if q = p then (amount : ℚ) else 0) + ∑ a ∈ s.issued, s.share p a := by
      have hissued : t.issued = insert r s.issued := by rw [heq]
      rw [← Finset.sum_congr rfl hshares, ← hnew, hissued, Finset.sum_insert hr]
    refine ⟨ht, ?_, fun a issue hissue hpool hunset => ?_⟩
    · rw [hsum]
      by_cases hq : q = p
      · subst hq
        have hcn : credits = n := by
          rw [hn, Option.some.injEq] at hcredits
          exact hcredits.symm
        have hle : amount ≤ n := by
          rw [hcn] at hamount
          exact_mod_cast hamount
        refine ⟨n - amount, ?_, ?_⟩
        · have := hincrby_eq_some hincr
          simp only [heq, Store.issue, Function.update_self, reservedPool]
          rw [this, hn, Option.getD_some, Nat.cast_sub hle, sub_eq_add_neg]
        · rw [← htotal, if_pos rfl, Nat.cast_sub hle]
          ring
      · refine ⟨n, ?_, by rw [← htotal, if_neg hq, zero_add]⟩
        simpa [heq, Store.issue, Function.update_of_ne (Ne.symm hq)] using hn
    · by_cases ha : a = r
      · simp [heq, ha, Store.isOpen, Store.issue]
      · simp only [heq, Function.update_of_ne ha] at hissue hunset
        have hsame : t.store.reservation a = s.store.reservation a := by
          rw [heq]
          exact Function.update_of_ne ha _ _
        rw [Store.isOpen_congr hsame]
        exact h.unsettled a issue hissue hpool hunset

omit [DecidableEq κ] in
/-- A settlement whose script did not fail is recorded if it is the first one. -/
lemma recordSettlement_some (s : System κ ρ) (store : Store κ ρ) (r : ρ) (x : Settlement)
    (b : Bool) :
    ∃ settlements, recordSettlement s store r x (some b) =
        { s with store := store, settlement := settlements } ∧
      settlements r = some ((s.settlement r).getD x) ∧ ∀ a, a ≠ r → settlements a = s.settlement a := by
  unfold recordSettlement
  dsimp only
  cases hr : s.settlement r with
  | none => exact ⟨_, if_pos rfl, by simp, fun a ha => Function.update_of_ne ha _ _⟩
  | some y => exact ⟨s.settlement, if_neg (by simp), by simp [hr], fun _ _ => rfl⟩

/-- A settlement that comes too late changes no share. -/
lemma Conserved.late {p : κ} {C : ℕ} {s t : System κ ρ} (h : Conserved p C s) {r : ρ}
    (hopen : s.store.isOpen r = false) {e : Event κ ρ} (he : e.Settles r)
    (hstep : step s e = some t) : Conserved p C t := by
  have ht := h.inv.step hstep
  have hsame := sameBalances_of_not_open hopen he hstep
  obtain ⟨issue, pool, x, hrec, -, -, rfl⟩ := settles_of_not_open hopen he hstep
  obtain ⟨settlements, heq, hr, hothers⟩ :=
    recordSettlement_some s (s.store.forget issue.pool r pool) r x false
  rw [heq] at ht hsame ⊢
  obtain ⟨n, hn, htotal⟩ := h.total
  have hshare : ∀ a, System.share { s with
      store := s.store.forget issue.pool r pool, settlement := settlements } p a = s.share p a := by
    intro a
    by_cases ha : a = r
    · subst ha
      cases hset : s.settlement a with
      | some y => exact share_congr rfl (hr.trans (by rw [hset]; rfl))
      | none =>
        -- not open and not settled: not a reservation of `p`
        have hpool : issue.pool ≠ p := by
          intro hp
          rw [h.unsettled a issue hrec hp hset] at hopen
          cases hopen
        simp [System.share, hrec, hpool]
    · exact share_congr rfl (hothers a ha)
  refine ⟨ht, ⟨n, by rw [(hsame p).1, hn], ?_⟩, fun a issue' hrec' hpool hunset => ?_⟩
  · rw [← htotal]
    exact congrArg _ (Finset.sum_congr rfl fun a _ => hshare a)
  · by_cases ha : a = r
    · subst ha
      cases hr.symm.trans hunset
    · rw [Store.isOpen_congr (Function.update_of_ne ha _ _)]
      exact h.unsettled a issue' hrec' hpool ((hothers a ha).symm.trans hunset)

/-- Closing a reservation of `p` turns its amount into a charge and a change of balance. -/
lemma Conserved.close {p : κ} {C : ℕ} {s : System κ ρ} (h : Conserved p C s) {r : ρ}
    {issue : Record κ} {pool : Pool} {hash : Option Reservation}
    {settlements : ρ → Option Settlement} (hrec : s.record r = some issue)
    (hset : s.settlement r = none) (hothers : ∀ a, a ≠ r → settlements a = s.settlement a)
    (hbalance : issue.pool = p → ∀ n : ℕ, (s.store.pool p).credits = some (n : ℚ) →
      ∃ (n' : ℕ) (x : Settlement), pool.credits = some (n' : ℚ) ∧ settlements r = some x ∧
        (n' : ℚ) + x.charge = n + issue.amount)
    (ht : Inv { s with store := s.store.close issue.pool r pool hash, settlement := settlements }) :
    Conserved p C
      { s with store := s.store.close issue.pool r pool hash, settlement := settlements } := by
  obtain ⟨n, hn, htotal⟩ := h.total
  have hissued : r ∈ s.issued := (h.inv.issued r).mpr ⟨issue, hrec⟩
  set t : System κ ρ :=
    { s with store := s.store.close issue.pool r pool hash, settlement := settlements } with htdef
  have hsum := sum_change (f := s.share p) (g := t.share p) hissued fun a ha =>
    share_congr rfl (hothers a ha)
  by_cases hp : issue.pool = p
  · -- the share of `r` was its amount and is now its charge
    obtain ⟨n', x, hcredits, hx, hcharge⟩ := hbalance hp n hn
    have hold : s.share p r = issue.amount := by simp [System.share, hrec, hp, hset]
    have hnew : t.share p r = x.charge := by simp [System.share, htdef, hrec, hp, hx]
    refine ⟨ht, ⟨n', by simp [htdef, Store.close, hp, hcredits], ?_⟩,
      fun a issue' hrec' hpool hunset => ?_⟩
    · show (n' : ℚ) + ∑ a ∈ s.issued, t.share p a = C
      rw [hsum, hold, hnew]
      linarith
    · have ha : a ≠ r := by
        rintro rfl
        simp only [htdef, hx] at hunset
        cases hunset
      rw [Store.isOpen_congr (Function.update_of_ne ha _ _)]
      exact h.unsettled a issue' hrec' hpool ((hothers a ha).symm.trans hunset)
  · -- a reservation of another pool has no share in `p`, settled or not
    have hold : s.share p r = 0 := by simp [System.share, hrec, hp]
    have hnew : t.share p r = 0 := by simp [System.share, htdef, hrec, hp]
    refine ⟨ht, ⟨n, ?_, ?_⟩, fun a issue' hrec' hpool hunset => ?_⟩
    · simpa [htdef, Store.close, Function.update_of_ne (Ne.symm hp)] using hn
    · show (n : ℚ) + ∑ a ∈ s.issued, t.share p a = C
      rw [hsum, hold, hnew, ← htotal]
      ring
    · have ha : a ≠ r := by
        rintro rfl
        have hsame : issue' = issue := by
          rw [htdef] at hrec'
          exact Option.some.inj (hrec'.symm.trans hrec)
        exact hp (hsame ▸ hpool)
      rw [Store.isOpen_congr (Function.update_of_ne ha _ _)]
      exact h.unsettled a issue' hrec' hpool ((hothers a ha).symm.trans hunset)

omit [DecidableEq κ] in
/-- An open reservation has not been settled. -/
lemma Inv.settlement_of_open {s : System κ ρ} (h : Inv s) {r : ρ} (hopen : s.store.isOpen r = true) :
    s.settlement r = none := by
  by_contra hne
  rw [Store.isOpen_of_none (h.settled r hne).2] at hopen
  cases hopen

lemma Conserved.settle {p : κ} {C : ℕ} {s t : System κ ρ} (h : Conserved p C s) {r : ρ}
    {action : SettleAction} {cooldownUntil : ℕ} (haction : action ≠ .disabled)
    (hstep : step s (.settle r action cooldownUntil) = some t) : Conserved p C t := by
  cases hopen : s.store.isOpen r with
  | false =>
    have he : Event.Settles r (.settle (κ := κ) r action cooldownUntil) := ⟨rfl, haction⟩
    exact h.late hopen he hstep
  | true =>
    have ht := h.inv.step hstep
    have hset := h.inv.settlement_of_open hopen
    obtain ⟨issue, hrec, heq⟩ := Option.map_eq_some_iff.mp hstep
    obtain ⟨reservation, hr, hstate, hamount, -, hnot⟩ := h.inv.reservation_of_open hrec hopen
    rw [settleScript_of_open hr hstate hnot] at heq
    cases hincr : hincrby (s.store.pool issue.pool).credits reservation.amount with
    | none =>
      -- `HINCRBY` works on the whole balance of `p`, so this is another pool
      simp only [hincr, recordSettlement] at heq
      subst heq
      refine h.close hrec hset (fun _ _ => rfl) (fun hp n hn => ?_) ht
      have := hincrby_nat n reservation.amount
      rw [← hn, ← hp] at this
      push_cast at this
      rw [hincr] at this
      cases this
    | some credits =>
      simp only [hincr] at heq
      obtain ⟨settlements, hrecord, hx, hothers⟩ := recordSettlement_some s
        (s.store.close issue.pool r (applyAction { releasedPool (s.store.pool issue.pool)
          reservation.amount with credits := some credits } action cooldownUntil) none)
        r ⟨none, 0⟩ true
      rw [hrecord] at heq
      subst heq
      refine h.close hrec hset hothers (fun hp n hn => ⟨n + issue.amount, ⟨none, 0⟩, ?_, ?_, ?_⟩) ht
      · rw [applyAction_credits haction, hincrby_eq_some hincr, hp, hn, hamount]
        push_cast
        rfl
      · rw [hx, hset]
        rfl
      · push_cast
        ring

/-- On a whole balance, what is not charged stays in or returns to the pool. -/
lemma adjustCredits_nat (n amount actual : ℕ) :
    ∃ n' : ℕ, adjustCredits (some (n : ℚ)) amount actual = some (some (n' : ℚ)) ∧
      (n' : ℚ) + min (actual : ℚ) (amount + n) = n + amount := by
  rcases lt_trichotomy amount actual with hlt | rfl | hgt
  · -- the deduction is cut off at the balance
    have hdelta : (0 : ℤ) < (actual : ℤ) - amount := by omega
    have hded : min (((actual : ℤ) - amount : ℤ) : ℚ) (max 0 (n : ℚ)) =
        ((min (actual - amount) n : ℕ) : ℚ) := by
      rw [max_eq_right (Nat.cast_nonneg n)]
      push_cast [Nat.cast_sub hlt.le]
      rfl
    refine ⟨n - min (actual - amount) n, ?_, ?_⟩
    · unfold adjustCredits
      dsimp only
      rw [if_pos hdelta, Option.getD_some, hded]
      split_ifs with hpos
      · have := hincrby_nat n (-(min (actual - amount) n : ℕ))
        push_cast at this
        push_cast [Nat.cast_sub (min_le_right (actual - amount) n)]
        rw [this]
        simp [sub_eq_add_neg]
      · have hzero : min (actual - amount) n = 0 := by
          by_contra hne
          exact hpos (by exact_mod_cast Nat.pos_of_ne_zero hne)
        rw [hzero, Nat.sub_zero]
    · have hnat : n - min (actual - amount) n + min actual (amount + n) = n + amount := by omega
      exact_mod_cast hnat
  · exact ⟨n, by simp [adjustCredits], by rw [min_eq_left (by simp)]⟩
  · -- the rest of the estimate goes back to the pool
    refine ⟨n + (amount - actual), ?_, ?_⟩
    · have hneg : ¬ (0 : ℤ) < (actual : ℤ) - amount := by omega
      have hneg' : (actual : ℤ) - amount < 0 := by omega
      have := hincrby_nat n (-((actual : ℤ) - amount))
      unfold adjustCredits
      dsimp only
      rw [if_neg hneg, if_pos hneg']
      push_cast at this ⊢
      rw [this]
      simp [Nat.cast_sub hgt.le]
    · have hnat : n + (amount - actual) + min actual (amount + n) = n + amount := by omega
      exact_mod_cast hnat

lemma Conserved.settleActualUsage {p : κ} {C : ℕ} {s t : System κ ρ} (h : Conserved p C s)
    {r : ρ} {actual : ℕ} (hstep : step s (.settleActualUsage r actual) = some t) :
    Conserved p C t := by
  cases hopen : s.store.isOpen r with
  | false =>
    have he : Event.Settles r (.settleActualUsage (κ := κ) r actual) := rfl
    exact h.late hopen he hstep
  | true =>
    have ht := h.inv.step hstep
    have hset := h.inv.settlement_of_open hopen
    obtain ⟨issue, hrec, heq⟩ := Option.map_eq_some_iff.mp hstep
    obtain ⟨reservation, hr, hstate, hamount, -, -⟩ := h.inv.reservation_of_open hrec hopen
    rw [actualUsageScript_of_open hr hstate] at heq
    cases hadjust : adjustCredits (s.store.pool issue.pool).credits reservation.amount actual with
    | none =>
      simp only [hadjust, recordSettlement] at heq
      exact heq ▸ h
    | some credits =>
      simp only [hadjust] at heq
      obtain ⟨settlements, hrecord, hx, hothers⟩ := recordSettlement_some s
        (s.store.close issue.pool r { releasedPool (s.store.pool issue.pool) reservation.amount with
          credits := credits } none) r
        ⟨some actual, actualCharge (s.store.pool issue.pool) issue.amount actual⟩ true
      rw [hrecord] at heq
      subst heq
      refine h.close hrec hset hothers (fun hp n hn => ?_) ht
      obtain ⟨n', hn', hcharge⟩ := adjustCredits_nat n issue.amount actual
      rw [hp, hn, hamount, hn', Option.some.injEq] at hadjust
      refine ⟨n', ⟨some actual, actualCharge (s.store.pool p) issue.amount actual⟩, hadjust.symm, ?_, ?_⟩
      · rw [hx, hset, hp]
        rfl
      · rw [actualCharge, hn, Option.getD_some]
        exact hcharge

lemma Conserved.step {p : κ} {C : ℕ} {s t : System κ ρ} (h : Conserved p C s) {e : Event κ ρ}
    (he : e.Conserving) (hstep : CreditLedger.step s e = some t) : Conserved p C t := by
  cases e with
  | reserve keys now amount ttl random => exact h.reserve hstep
  | capture q =>
    cases hstep
    exact h
  | settle r action cooldownUntil => exact h.settle he hstep
  | settleActualUsage r actual => exact h.settleActualUsage hstep
  | reconcile | expire => exact he.elim

/-- The share of a reservation is its amount while it is open, then its charge. -/
lemma Conserved.share_eq {p : κ} {C : ℕ} {s : System κ ρ} (h : Conserved p C s) (r : ρ) :
    s.share p r = s.openAmount p r + s.charged p r := by
  unfold System.share System.openAmount System.charged
  cases hrec : s.record r with
  | none => simp
  | some issue =>
    by_cases hp : issue.pool = p
    · cases hset : s.settlement r with
      | none => simp [hp, h.unsettled r issue hrec hp hset]
      | some x =>
        have hclosed := Store.isOpen_of_none (h.inv.settled r (by simp [hset])).2
        simp [hp, hclosed]
    · cases s.settlement r <;> simp [hp]

/-- The first settlement of a reservation of `p` decides its charge. -/
structure ChargesFirst (p : κ) (s : System κ ρ) (r : ρ) (issue : Record κ) : Prop where
  settle : ∀ action cooldownUntil t, action ≠ .disabled →
    step s (.settle r action cooldownUntil) = some t → t.settlement r = some ⟨none, 0⟩
  settleActualUsage : ∀ actual t, step s (.settleActualUsage r actual) = some t →
    t.settlement r =
      some ⟨some actual, min (actual : ℚ) (issue.amount + (s.store.pool p).credits.getD 0)⟩

lemma Conserved.chargesFirst {p : κ} {C : ℕ} {s : System κ ρ} (h : Conserved p C s) {r : ρ}
    {issue : Record κ} (hrec : s.record r = some issue) (hp : issue.pool = p)
    (hset : s.settlement r = none) : ChargesFirst p s r issue := by
  have hopen := h.unsettled r issue hrec hp hset
  obtain ⟨n, hn, -⟩ := h.total
  obtain ⟨reservation, hr, hstate, hamount, -, hnot⟩ := h.inv.reservation_of_open hrec hopen
  refine ⟨fun action cooldownUntil t _ hstep => ?_, fun actual t hstep => ?_⟩
  · obtain ⟨issue', hrec', heq⟩ := Option.map_eq_some_iff.mp hstep
    obtain rfl : issue = issue' := Option.some.inj (hrec.symm.trans hrec')
    have hincr := hincrby_nat n reservation.amount
    rw [← hn, ← hp] at hincr
    push_cast at hincr
    simp only [settleScript_of_open hr hstate hnot, hincr] at heq
    obtain ⟨settlements, hrecord, hx, -⟩ := recordSettlement_some s _ r ⟨none, 0⟩ true
    rw [hrecord] at heq
    rw [← heq]
    exact hx.trans (by rw [hset]; rfl)
  · obtain ⟨issue', hrec', heq⟩ := Option.map_eq_some_iff.mp hstep
    obtain rfl : issue = issue' := Option.some.inj (hrec.symm.trans hrec')
    obtain ⟨n', hn', -⟩ := adjustCredits_nat n reservation.amount actual
    rw [← hn, ← hp] at hn'
    simp only [actualUsageScript_of_open hr hstate, hn'] at heq
    obtain ⟨settlements, hrecord, hx, -⟩ := recordSettlement_some s _ r
      ⟨some actual, actualCharge (s.store.pool issue.pool) issue.amount actual⟩ true
    rw [hrecord] at heq
    rw [← heq]
    exact hx.trans (by rw [hset, hp]; rfl)

/-- In every run of reservations, refunds, cooldowns and actual-usage settlements: the
balance, the open amounts and the charges add up to the first balance; the first settlement
decides the charge, and every later one moves nothing. -/
theorem conserved {pool : κ → Pool} (hpool : ∀ q, Unused (pool q)) {p : κ} {C : ℕ}
    (hp : (pool p).credits = some (C : ℚ)) {es : List (Event κ ρ)}
    (hes : ∀ e ∈ es, e.Conserving) {s : System κ ρ}
    (hrun : EventMachine.run step (System.start pool) es = some s) :
    (∃ n : ℕ, (s.store.pool p).credits = some (n : ℚ) ∧
      (n : ℚ) + ∑ r ∈ s.issued, (s.openAmount p r : ℚ) + ∑ r ∈ s.issued, s.charged p r = C) ∧
    (∀ r issue, s.record r = some issue → issue.pool = p → s.settlement r = none →
      ChargesFirst p s r issue) ∧
    ∀ r, s.settlement r ≠ none → ∀ e t, e.Settles r → step s e = some t →
      SameBalances s.store t.store ∧ t.settlement r = s.settlement r := by
  have h : Conserved p C s := EventMachine.run_invariant_along (G := fun _ e => e.Conserving)
    (fun _ _ _ hi he hs => hi.step he hs) (conserved_start hpool hp)
    (EventMachine.along_of_forall step _ hes) hrun
  refine ⟨?_, fun r issue hrec hpool' hset => h.chargesFirst hrec hpool' hset,
    fun r hset e t he hstep => ?_⟩
  · obtain ⟨n, hn, htotal⟩ := h.total
    refine ⟨n, hn, ?_⟩
    rw [add_assoc, ← Finset.sum_add_distrib, ← htotal]
    exact congrArg _ (Finset.sum_congr rfl fun r _ => (h.share_eq r).symm)
  · have hclosed := Store.isOpen_of_none (h.inv.settled r hset).2
    refine ⟨sameBalances_of_not_open hclosed he hstep, ?_⟩
    obtain ⟨issue, pool', x, -, -, -, rfl⟩ := settles_of_not_open hclosed he hstep
    obtain ⟨settlements, heq, hr, -⟩ :=
      recordSettlement_some s (s.store.forget issue.pool r pool') r x false
    rw [heq]
    obtain ⟨y, hy⟩ := Option.ne_none_iff_exists'.mp hset
    exact hr.trans (by rw [hy]; rfl)

/-- A pool of ten credits, a reservation of three, reported as five, then refunded too late. -/
def samplePool : ℕ → Pool := fun _ => { credits := some 10 }

def sampleSettlements : List (Event ℕ ℕ) :=
  [.reserve [(0, 7)] 200 3 300 0, .settleActualUsage 7 5, .settle 7 .refund 0]

theorem conserved_sample :
    ∃ s, EventMachine.run step (System.start samplePool) sampleSettlements = some s ∧
      ∃ n : ℕ, (s.store.pool 0).credits = some (n : ℚ) ∧
        (n : ℚ) + ∑ r ∈ s.issued, (s.openAmount 0 r : ℚ) + ∑ r ∈ s.issued, s.charged 0 r =
          (10 : ℕ) := by
  obtain ⟨s, hs⟩ := Option.isSome_iff_exists.mp (show (EventMachine.run step
    (System.start samplePool) sampleSettlements).isSome = true by decide +kernel)
  refine ⟨s, hs, (conserved (C := 10) (fun _ => ⟨rfl, ?_⟩) rfl ?_ hs).1⟩
  · rintro c ⟨⟩
    norm_num
  · simp [sampleSettlements, Event.Conserving]

end CreditLedger
end FirecrawlGateway
