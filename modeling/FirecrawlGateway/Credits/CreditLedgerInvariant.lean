import FirecrawlGateway.Credits.CreditLedgerScripts

/-!
# The representation invariant of the ledger

`Move` lists the few ways an event can change the ledger, with what is needed of the new pool
in each; `step_move` shows that every event is one of them or a reconciliation. `Inv` is kept by
all of them, so it holds in every reachable state.
-/

namespace FirecrawlGateway
namespace CreditLedger

open Redis

variable {κ ρ : Type*}

/-! ## The invariant -/

/-- The amount `r` was issued for. -/
def issuedAmount (record : ρ → Option (Record κ)) (r : ρ) : ℕ :=
  ((record r).map Record.amount).getD 0

lemma issuedAmount_eq {record : ρ → Option (Record κ)} {r : ρ} {issue : Record κ}
    (h : record r = some issue) : issuedAmount record r = issue.amount := by
  simp [issuedAmount, h]

variable [DecidableEq ρ]

/-- The representation invariant of the store, together with what the records say of it. -/
structure Inv (s : System κ ρ) : Prop where
  issued : ∀ r, r ∈ s.issued ↔ ∃ issue, s.record r = some issue
  member : ∀ p r q, (r, q) ∈ (s.store.reservations p).entries →
    ∃ issue, s.record r = some issue ∧ issue.pool = p ∧ issue.sequence = q
  hash : ∀ r reservation, s.store.reservation r = some reservation →
    ∃ issue, s.record r = some issue ∧ reservation.amount = issue.amount ∧
      reservation.sequence = issue.sequence ∧ reservation.reconciled = false
  opened : ∀ r issue, s.record r = some issue → s.store.isOpen r = true →
    (r, issue.sequence) ∈ (s.store.reservations issue.pool).entries
  bounded : ∀ r issue, s.record r = some issue →
    issue.sequence ≤ (s.store.pool issue.pool).reserveSequence
  distinct : ∀ r r' issue issue', s.record r = some issue → s.record r' = some issue' →
    issue.pool = issue'.pool → issue.sequence = issue'.sequence → r = r'
  settled : ∀ r, s.settlement r ≠ none →
    (∃ issue, s.record r = some issue) ∧ s.store.reservation r = none
  reserved : ∀ p, (s.store.pool p).reserved =
    ∑ r ∈ (s.store.reservations p).members, (issuedAmount s.record r : ℤ)
  credits : ∀ p c, (s.store.pool p).credits = some c → 0 ≤ c

/-- The balance is an integer, as `HINCRBY` needs it. -/
def Integral (pool : Pool) : Prop := ∀ c, pool.credits = some c → c.isInt = true

/-- A pool before its first reservation. -/
def Unused (pool : Pool) : Prop := pool.reserved = 0 ∧ ∀ c, pool.credits = some c → 0 ≤ c

lemma inv_start {pool : κ → Pool} (h : ∀ p, Unused (pool p)) :
    Inv (System.start pool : System κ ρ) where
  issued := by simp [System.start]
  member := by simp [System.start]
  hash := by simp [System.start]
  opened := by simp [System.start]
  bounded := by simp [System.start]
  distinct := by simp [System.start]
  settled := by simp [System.start]
  reserved p := by simp [System.start, (h p).1]
  credits p := (h p).2

namespace Inv

variable {s : System κ ρ}

lemma fresh (h : Inv s) {r : ρ} (hr : r ∉ s.issued) : s.record r = none := by
  rw [h.issued] at hr
  cases hrec : s.record r with
  | none => rfl
  | some issue => exact absurd ⟨issue, hrec⟩ hr

/-- Members of a pool's sorted set were issued from it. -/
lemma record_of_mem (h : Inv s) {p : κ} {r : ρ} (hr : r ∈ (s.store.reservations p).members) :
    ∃ issue, s.record r = some issue ∧ issue.pool = p := by
  obtain ⟨q, hq⟩ := SortedSet.mem_members.mp hr
  obtain ⟨issue, hrec, hpool, -⟩ := h.member p r q hq
  exact ⟨issue, hrec, hpool⟩

lemma mem_of_open (h : Inv s) {r : ρ} {issue : Record κ} (hrec : s.record r = some issue)
    (hopen : s.store.isOpen r = true) : r ∈ (s.store.reservations issue.pool).members :=
  SortedSet.mem_members.mpr ⟨_, h.opened r issue hrec hopen⟩

/-- An open reservation, by its record. -/
lemma reservation_of_open (h : Inv s) {r : ρ} {issue : Record κ} (hrec : s.record r = some issue)
    (hopen : s.store.isOpen r = true) :
    ∃ reservation, s.store.reservation r = some reservation ∧ reservation.state = .opened ∧
      reservation.amount = issue.amount ∧ reservation.sequence = issue.sequence ∧
      reservation.reconciled = false := by
  obtain ⟨reservation, hr, hstate⟩ := Store.isOpen_iff.mp hopen
  obtain ⟨issue', hrec', hfields⟩ := h.hash r reservation hr
  rw [hrec, Option.some.injEq] at hrec'
  subst hrec'
  exact ⟨reservation, hr, hstate, hfields⟩

end Inv

/-! ## Moves -/

variable [DecidableEq κ]

/-- The changes an event other than a reconciliation can make. -/
inductive Move (s : System κ ρ) : System κ ρ → Prop
  /-- Nothing changes. -/
  | idle : Move s s
  /-- A reservation that failed on fractional credits took a sequence number. -/
  | skip (p : κ) : Move s { s with store := s.store.setPool p { s.store.pool p with
      reserveSequence := (s.store.pool p).reserveSequence + 1 } }
  /-- A reservation. -/
  | issue (p : κ) (r : ρ) (credits : ℚ) (now amount ttl : ℕ) (hr : r ∉ s.issued)
      (hcredits : 0 ≤ credits) (hint : credits.isInt = true) :
      Move s { s with
        store := s.store.issue p r (reservedPool (s.store.pool p) credits now amount)
          { amount := amount, sequence := (s.store.pool p).reserveSequence + 1, ttlSeconds := ttl }
        issued := insert r s.issued
        record := Function.update s.record r
          (some ⟨p, amount, (s.store.pool p).reserveSequence + 1⟩) }
  /-- A settlement of a reservation that is not open. -/
  | forget (r : ρ) (issue : Record κ) (pool : Pool) (settlement : ρ → Option Settlement)
      (hrec : s.record r = some issue) (hopen : s.store.isOpen r = false)
      (hreserved : pool.reserved = (s.store.pool issue.pool).reserved)
      (hsequence : pool.reserveSequence = (s.store.pool issue.pool).reserveSequence)
      (hcredits : ∀ c, pool.credits = some c → 0 ≤ c)
      (hint : Integral (s.store.pool issue.pool) → Integral pool)
      (hothers : ∀ a, a ≠ r → settlement a = s.settlement a) :
      Move s { s with store := s.store.forget issue.pool r pool, settlement := settlement }
  /-- A settlement of an open reservation; it keeps a hash when `HINCRBY` fails. -/
  | close (r : ρ) (issue : Record κ) (pool : Pool) (hash : Option Reservation)
      (settlement : ρ → Option Settlement) (hrec : s.record r = some issue)
      (hopen : s.store.isOpen r = true)
      (hreserved : pool.reserved = (s.store.pool issue.pool).reserved - issue.amount)
      (hsequence : pool.reserveSequence = (s.store.pool issue.pool).reserveSequence)
      (hcredits : ∀ c, pool.credits = some c → 0 ≤ c)
      (hint : Integral (s.store.pool issue.pool) → Integral pool)
      (hhash : hash = none ∨ (settlement r = none ∧ ∃ reservation action,
        s.store.reservation r = some reservation ∧
        hash = some { reservation with state := .settled action }))
      (hothers : ∀ a, a ≠ r → settlement a = s.settlement a) :
      Move s { s with store := s.store.close issue.pool r pool hash, settlement := settlement }
  /-- The expiry of a hash. -/
  | expire (r : ρ) : Move s { s with store := s.store.del r }

/-! ## Every event is a move -/

section Steps

variable {s s' : System κ ρ}

/-- What `RESERVE_SCRIPT` can do: nothing, fail on fractional credits, or issue a reservation. -/
lemma reserve_cases {keys : List (κ × ρ)} {now amount ttl : ℕ} {random : ℚ}
    (hstep : step s (.reserve keys now amount ttl random) = some s') :
    s' = s ∨
    (∃ p, hincrby (s.store.pool p).credits (-amount) = none ∧
      s' = { s with store := s.store.setPool p { s.store.pool p with
        reserveSequence := (s.store.pool p).reserveSequence + 1 } }) ∨
    ∃ p r credits left, r ∉ s.issued ∧ (s.store.pool p).credits = some credits ∧
      (amount : ℚ) ≤ credits ∧ hincrby (s.store.pool p).credits (-amount) = some left ∧
      s' = { s with
        store := s.store.issue p r (reservedPool (s.store.pool p) left now amount)
          { amount := amount, sequence := (s.store.pool p).reserveSequence + 1, ttlSeconds := ttl }
        issued := insert r s.issued
        record := Function.update s.record r
          (some ⟨p, amount, (s.store.pool p).reserveSequence + 1⟩) } := by
  simp only [step] at hstep
  split at hstep
  · rename_i hfresh
    have hspec := selected_spec s.store keys now amount random
    rw [Option.some.injEq, reserveScript_spec] at hstep
    cases hsel : selected s.store keys now amount random with
    | none =>
      rw [hsel] at hstep
      refine Or.inl (hstep.symm.trans ?_)
      cases keys.any fun k => (s.store.pool k.1).credits.isSome <;> rfl
    | some k =>
      obtain ⟨i, p, r⟩ := k
      rw [hsel] at hspec
      obtain ⟨hk, credits, hcredits, -, -, hamount⟩ := hspec
      simp only [hsel, reserveIn_spec] at hstep
      cases hincr : hincrby (s.store.pool p).credits (-amount) with
      | none =>
        simp only [hincr, recordReserve] at hstep
        exact Or.inr (Or.inl ⟨p, hincr, hstep.symm⟩)
      | some left =>
        simp only [hincr, recordReserve, hk] at hstep
        exact Or.inr (Or.inr ⟨p, r, credits, left, hfresh _ (List.mem_of_getElem? hk), hcredits,
          hamount, hincr, hstep.symm⟩)
  · cases hstep

lemma reserve_move {keys : List (κ × ρ)} {now amount ttl : ℕ} {random : ℚ}
    (hstep : step s (.reserve keys now amount ttl random) = some s') : Move s s' := by
  rcases reserve_cases hstep with
    rfl | ⟨p, -, rfl⟩ | ⟨p, r, credits, left, hr, hcredits, hamount, hincr, rfl⟩
  · exact Move.idle
  · exact Move.skip p
  · refine Move.issue p r left now amount ttl hr ?_ (hincrby_isInt hincr)
    have := hincrby_eq_some hincr
    rw [hcredits, Option.getD_some] at this
    linarith

omit [DecidableEq κ] in
/-- A recorded settlement changes nothing but the settlement of its reservation. -/
lemma recordSettlement_eq (store : Store κ ρ) (r : ρ) (settlement : Settlement)
    (reply : Option Bool) :
    ∃ settlements, recordSettlement s store r settlement reply =
        { s with store := store, settlement := settlements } ∧
      (∀ a, a ≠ r → settlements a = s.settlement a) ∧
      (reply = none → settlements = s.settlement) := by
  unfold recordSettlement
  cases reply with
  | none => exact ⟨s.settlement, rfl, fun _ _ => rfl, fun _ => rfl⟩
  | some _ =>
    dsimp only
    split
    · exact ⟨_, rfl, fun a ha => Function.update_of_ne ha _ _, fun h => by cases h⟩
    · exact ⟨s.settlement, rfl, fun _ _ => rfl, fun _ => rfl⟩

lemma applyAction_fields (pool : Pool) (action : SettleAction) (cooldownUntil : ℕ) :
    (applyAction pool action cooldownUntil).reserved = pool.reserved ∧
      (applyAction pool action cooldownUntil).reserveSequence = pool.reserveSequence ∧
      ((applyAction pool action cooldownUntil).credits = pool.credits ∨
        (applyAction pool action cooldownUntil).credits = some 0) := by
  unfold applyAction
  cases action with
  | refund => exact ⟨rfl, rfl, Or.inl rfl⟩
  | cooldown => split_ifs <;> exact ⟨rfl, rfl, Or.inl rfl⟩
  | disabled => exact ⟨rfl, rfl, Or.inr rfl⟩

lemma applyAction_credits_nonneg {pool : Pool} (h : ∀ c, pool.credits = some c → 0 ≤ c)
    (action : SettleAction) (cooldownUntil : ℕ) :
    ∀ c, (applyAction pool action cooldownUntil).credits = some c → 0 ≤ c := by
  intro c hc
  obtain ⟨-, -, hsame | hzero⟩ := applyAction_fields pool action cooldownUntil
  · exact h c (hsame ▸ hc)
  · rw [hzero, Option.some.injEq] at hc
    exact hc ▸ le_rfl

lemma applyAction_integral {pool : Pool} (h : Integral pool) (action : SettleAction)
    (cooldownUntil : ℕ) : Integral (applyAction pool action cooldownUntil) := by
  intro c hc
  obtain ⟨-, -, hsame | hzero⟩ := applyAction_fields pool action cooldownUntil
  · exact h c (hsame ▸ hc)
  · rw [hzero, Option.some.injEq] at hc
    exact isInt_iff.mpr ⟨0, by rw [← hc]; rfl⟩

lemma settle_move (h : Inv s) {r : ρ} {action : SettleAction} {cooldownUntil : ℕ}
    (hstep : step s (.settle r action cooldownUntil) = some s') : Move s s' := by
  obtain ⟨issue, hrec, hs'⟩ := Option.map_eq_some_iff.mp hstep
  dsimp only at hs'
  obtain ⟨hres, hseq, -⟩ := applyAction_fields (s.store.pool issue.pool) action cooldownUntil
  cases hopen : s.store.isOpen r with
  | false =>
    rw [settleScript_of_not_open hopen] at hs'
    obtain ⟨settlements, heq, hothers, -⟩ := recordSettlement_eq (s := s)
      (s.store.forget issue.pool r (applyAction (s.store.pool issue.pool) action cooldownUntil))
      r ⟨none, 0⟩ (some false)
    rw [← hs', heq]
    exact Move.forget r issue _ settlements hrec hopen hres hseq
      (applyAction_credits_nonneg (h.credits issue.pool) action cooldownUntil)
      (fun hint => applyAction_integral hint action cooldownUntil) hothers
  | true =>
    obtain ⟨reservation, hr, hstate, hamount, -, hnot⟩ := h.reservation_of_open hrec hopen
    rw [settleScript_of_open hr hstate hnot] at hs'
    cases hincr : hincrby (s.store.pool issue.pool).credits reservation.amount with
    | none =>
      -- the script stops before its `DEL`: the hash stays, but is no longer open
      rw [hincr] at hs'
      have hsettlement : s.settlement r = none := by
        by_contra hne
        rw [(h.settled r hne).2] at hr
        cases hr
      rw [← hs']
      exact Move.close r issue _ _ s.settlement hrec hopen (by simp [releasedPool, hamount]) rfl
        (h.credits issue.pool) id (Or.inr ⟨hsettlement, reservation, action, hr, rfl⟩) fun _ _ => rfl
    | some credits =>
      rw [hincr] at hs'
      have hnonneg : 0 ≤ credits := by
        rw [hincrby_eq_some hincr]
        refine add_nonneg ?_ (Nat.cast_nonneg _)
        cases hc : (s.store.pool issue.pool).credits with
        | none => exact le_rfl
        | some c => exact h.credits issue.pool c hc
      set pool := { releasedPool (s.store.pool issue.pool) reservation.amount with
        credits := some credits } with hpool
      obtain ⟨hres, hseq, -⟩ := applyAction_fields pool action cooldownUntil
      obtain ⟨settlements, heq, hothers, -⟩ := recordSettlement_eq (s := s)
        (s.store.close issue.pool r (applyAction pool action cooldownUntil) none)
        r ⟨none, 0⟩ (some true)
      rw [← hs', heq]
      refine Move.close r issue _ none settlements hrec hopen ?_ hseq
        (applyAction_credits_nonneg (fun c hc => ?_) action cooldownUntil)
        (fun _ => applyAction_integral (fun c hc => ?_) action cooldownUntil) (Or.inl rfl) hothers
      · rw [hres, hpool]
        simp [releasedPool, hamount]
      · rw [hpool, Option.some.injEq] at hc
        exact hc ▸ hnonneg
      · rw [hpool, Option.some.injEq] at hc
        exact hc ▸ hincrby_isInt hincr

/-- The deduction never takes credits below zero. -/
lemma adjustCredits_nonneg {credits adjusted : Option ℚ} {estimated : ℕ} {actual : ℤ}
    (h : ∀ c, credits = some c → 0 ≤ c)
    (hadjust : adjustCredits credits estimated actual = some adjusted) :
    ∀ c, adjusted = some c → 0 ≤ c := by
  have hbefore : 0 ≤ credits.getD 0 := by
    cases credits with
    | none => exact le_rfl
    | some c => exact h c rfl
  unfold adjustCredits at hadjust
  dsimp only at hadjust
  split_ifs at hadjust with hpos hded hneg
  · obtain ⟨c, hc, rfl⟩ := Option.map_eq_some_iff.mp hadjust
    have hle : min (((actual - estimated : ℤ)) : ℚ) (max 0 (credits.getD 0)) ≤ credits.getD 0 := by
      rw [max_eq_right hbefore]
      exact min_le_right _ _
    intro c' hc'
    rw [Option.some.injEq] at hc'
    have := hincrby_eq_some hc
    linarith
  · rw [Option.some.injEq] at hadjust
    exact hadjust ▸ h
  · obtain ⟨c, hc, rfl⟩ := Option.map_eq_some_iff.mp hadjust
    have hdelta : ((actual - estimated : ℤ) : ℚ) ≤ 0 := by exact_mod_cast hneg.le
    intro c' hc'
    rw [Option.some.injEq] at hc'
    have := hincrby_eq_some hc
    linarith
  · rw [Option.some.injEq] at hadjust
    exact hadjust ▸ h

lemma adjustCredits_integral {credits adjusted : Option ℚ} {estimated : ℕ} {actual : ℤ}
    (h : ∀ c, credits = some c → c.isInt = true)
    (hadjust : adjustCredits credits estimated actual = some adjusted) :
    ∀ c, adjusted = some c → c.isInt = true := by
  unfold adjustCredits at hadjust
  dsimp only at hadjust
  split_ifs at hadjust
  · obtain ⟨c, hc, rfl⟩ := Option.map_eq_some_iff.mp hadjust
    rintro c' ⟨⟩
    exact hincrby_isInt hc
  · rw [Option.some.injEq] at hadjust
    exact hadjust ▸ h
  · obtain ⟨c, hc, rfl⟩ := Option.map_eq_some_iff.mp hadjust
    rintro c' ⟨⟩
    exact hincrby_isInt hc
  · rw [Option.some.injEq] at hadjust
    exact hadjust ▸ h

lemma settleActualUsage_move (h : Inv s) {r : ρ} {actual : ℕ}
    (hstep : step s (.settleActualUsage r actual) = some s') : Move s s' := by
  obtain ⟨issue, hrec, hs'⟩ := Option.map_eq_some_iff.mp hstep
  dsimp only at hs'
  set settlement : Settlement :=
    ⟨some actual, actualCharge (s.store.pool issue.pool) issue.amount actual⟩ with hsettlement
  cases hopen : s.store.isOpen r with
  | false =>
    rw [actualUsageScript_of_not_open hopen] at hs'
    obtain ⟨settlements, heq, hothers, -⟩ := recordSettlement_eq (s := s)
      (s.store.forget issue.pool r (s.store.pool issue.pool)) r settlement (some false)
    rw [← hs', heq]
    exact Move.forget r issue _ settlements hrec hopen rfl rfl (h.credits issue.pool) id hothers
  | true =>
    obtain ⟨reservation, hr, hstate, hamount, -, -⟩ := h.reservation_of_open hrec hopen
    rw [actualUsageScript_of_open hr hstate] at hs'
    cases hadjust : adjustCredits (s.store.pool issue.pool).credits reservation.amount actual with
    | none =>
      -- here the failing `HINCRBY` is the first write
      rw [hadjust] at hs'
      rw [← hs']
      exact Move.idle
    | some credits =>
      rw [hadjust] at hs'
      obtain ⟨settlements, heq, hothers, -⟩ := recordSettlement_eq (s := s)
        (s.store.close issue.pool r { releasedPool (s.store.pool issue.pool) reservation.amount with
          credits := credits } none) r settlement (some true)
      rw [← hs', heq]
      exact Move.close r issue _ none settlements hrec hopen (by simp [releasedPool, hamount]) rfl
        (adjustCredits_nonneg (h.credits issue.pool) hadjust)
        (fun hint => adjustCredits_integral hint hadjust) (Or.inl rfl) hothers

/-- Every event is a reconciliation or a move. -/
theorem step_move (h : Inv s) {e : Event κ ρ} (hstep : step s e = some s') :
    (∃ p remainingCredits sequence now renewsAt,
      e = .reconcile p remainingCredits sequence now renewsAt ∧
      s' = { s with store := reconcile s.store p remainingCredits sequence now renewsAt }) ∨
    Move s s' := by
  cases e with
  | reserve keys now amount ttl random => exact Or.inr (reserve_move hstep)
  | capture p =>
    cases hstep
    exact Or.inr Move.idle
  | settle r action cooldownUntil => exact Or.inr (settle_move h hstep)
  | settleActualUsage r actual => exact Or.inr (settleActualUsage_move h hstep)
  | reconcile p remainingCredits sequence now renewsAt =>
    cases hstep
    exact Or.inl ⟨p, remainingCredits, sequence, now, renewsAt, rfl, rfl⟩
  | expire r =>
    cases hstep
    exact Or.inr (Move.expire r)

end Steps

/-! ## Every move keeps the invariant -/

namespace Inv

variable {s : System κ ρ}

/-- Issued sequence numbers stay below a counter that only grows. -/
lemma bounded_update (h : Inv s) {p : κ} {pool : Pool}
    (hsequence : (s.store.pool p).reserveSequence ≤ pool.reserveSequence) {r : ρ}
    {issue : Record κ} (hrec : s.record r = some issue) :
    issue.sequence ≤ (Function.update s.store.pool p pool issue.pool).reserveSequence := by
  have hold := h.bounded r issue hrec
  by_cases hp : issue.pool = p
  · rw [hp] at hold ⊢
    rw [Function.update_self]
    exact hold.trans hsequence
  · rwa [Function.update_of_ne hp]

/-- A pool may be replaced by one whose balance is not negative. -/
lemma credits_update (h : Inv s) (p : κ) {pool : Pool}
    (hcredits : ∀ c, pool.credits = some c → 0 ≤ c) :
    ∀ q c, (Function.update s.store.pool p pool q).credits = some c → 0 ≤ c :=
  (Function.forall_update_iff s.store.pool fun _ x => ∀ c, x.credits = some c → 0 ≤ c).mpr
    ⟨hcredits, fun q _ => h.credits q⟩

/-- A pool may be replaced by one that has as much reserved. -/
lemma reserved_update (h : Inv s) (p : κ) {pool : Pool}
    (hreserved : pool.reserved = (s.store.pool p).reserved) :
    ∀ q, (Function.update s.store.pool p pool q).reserved =
      ∑ r ∈ (s.store.reservations q).members, (issuedAmount s.record r : ℤ) :=
  (Function.forall_update_iff s.store.pool fun q x =>
    x.reserved = ∑ r ∈ (s.store.reservations q).members, (issuedAmount s.record r : ℤ)).mpr
    ⟨hreserved.trans (h.reserved p), fun q _ => h.reserved q⟩

lemma skip (h : Inv s) (p : κ) :
    Inv { s with store := s.store.setPool p { s.store.pool p with
      reserveSequence := (s.store.pool p).reserveSequence + 1 } } where
  issued := h.issued
  member := h.member
  hash := h.hash
  opened := h.opened
  bounded _ _ hrec := h.bounded_update (Nat.le_succ _) hrec
  distinct := h.distinct
  settled := h.settled
  reserved := h.reserved_update p rfl
  credits := h.credits_update p (h.credits p)

omit [DecidableEq κ] in
/-- What has a record was issued. -/
lemma ne_of_record (h : Inv s) {r a : ρ} {issue : Record κ} (hr : r ∉ s.issued)
    (hrec : s.record a = some issue) : a ≠ r := by
  rintro rfl
  rw [h.fresh hr] at hrec
  cases hrec

omit [DecidableEq κ] in
/-- The next sequence number of a pool is larger than all the old ones. -/
lemma sequence_ne_next (h : Inv s) {a : ρ} {issue : Record κ} {p : κ}
    (hrec : s.record a = some issue) (hpool : issue.pool = p) :
    issue.sequence ≠ (s.store.pool p).reserveSequence + 1 := by
  have hold := h.bounded a issue hrec
  rw [hpool] at hold
  omega

omit [DecidableEq κ] in
/-- A new record leaves the old amounts alone. -/
lemma sum_update (h : Inv s) {r : ρ} (hr : r ∉ s.issued) (new : Record κ) (q : κ) :
    ∑ a ∈ (s.store.reservations q).members,
      (issuedAmount (Function.update s.record r (some new)) a : ℤ) = (s.store.pool q).reserved := by
  rw [h.reserved q]
  apply Finset.sum_congr rfl
  intro a ha
  obtain ⟨issue, hrec, -⟩ := h.record_of_mem ha
  rw [issuedAmount, issuedAmount, Function.update_of_ne (h.ne_of_record hr hrec)]

lemma issue (h : Inv s) (p : κ) {r : ρ} {credits : ℚ} (now amount ttl : ℕ) (hr : r ∉ s.issued)
    (hcredits : 0 ≤ credits) :
    Inv { s with
      store := s.store.issue p r (reservedPool (s.store.pool p) credits now amount)
        { amount := amount, sequence := (s.store.pool p).reserveSequence + 1, ttlSeconds := ttl }
      issued := insert r s.issued
      record := Function.update s.record r
        (some ⟨p, amount, (s.store.pool p).reserveSequence + 1⟩) } := by
  have hne : ∀ a issue, s.record a = some issue → a ≠ r := fun _ _ => h.ne_of_record hr
  refine ⟨fun a => ?_, fun q a k hmem => ?_, fun a reservation hres => ?_,
    fun a issue hrec hopen => ?_, fun a issue hrec => ?_, fun a a' issue issue' hrec hrec' => ?_,
    fun a hset => ?_, fun q => ?_, fun q c hc => ?_⟩
  · by_cases ha : a = r
    · simp [ha]
    · simp [ha, h.issued]
  · by_cases hq : q = p
    · subst hq
      simp only [Store.issue, Function.update_self, SortedSet.mem_zadd] at hmem
      rcases hmem with ⟨rfl, rfl⟩ | ⟨hmem, ha⟩
      · exact ⟨_, Function.update_self .., rfl, rfl⟩
      · simpa [Function.update_of_ne ha] using h.member q a k hmem
    · simp only [Store.issue, Function.update_of_ne hq] at hmem
      obtain ⟨issue, hrec, hfields⟩ := h.member q a k hmem
      exact ⟨issue, by simpa [Function.update_of_ne (hne a issue hrec)] using hrec, hfields⟩
  · by_cases ha : a = r
    · subst ha
      simp only [Store.issue, Function.update_self, Option.some.injEq] at hres
      subst hres
      exact ⟨_, Function.update_self .., rfl, rfl, rfl⟩
    · simp only [Store.issue, Function.update_of_ne ha] at hres
      simpa [Function.update_of_ne ha] using h.hash a reservation hres
  · by_cases ha : a = r
    · subst ha
      simp only [Function.update_self, Option.some.injEq] at hrec
      subst hrec
      simp [Store.issue, SortedSet.mem_zadd]
    · simp only [Function.update_of_ne ha] at hrec
      have hopen' : s.store.isOpen a = true := by
        rwa [Store.isOpen_congr (Function.update_of_ne ha _ _)] at hopen
      have hold := h.opened a issue hrec hopen'
      by_cases hp : issue.pool = p
      · rw [hp] at hold ⊢
        simp [Store.issue, SortedSet.mem_zadd, hold, ha]
      · simpa [Store.issue, Function.update_of_ne hp] using hold
  · by_cases ha : a = r
    · subst ha
      simp only [Function.update_self, Option.some.injEq] at hrec
      subst hrec
      simp [Store.issue, reservedPool]
    · simp only [Function.update_of_ne ha] at hrec
      exact h.bounded_update (Nat.le_succ _) hrec
  · intro hpool hseq
    by_cases ha : a = r <;> by_cases ha' : a' = r
    · rw [ha, ha']
    · subst ha
      simp only [Function.update_self, Option.some.injEq] at hrec
      simp only [Function.update_of_ne ha'] at hrec'
      subst hrec
      exact absurd hseq.symm (h.sequence_ne_next hrec' hpool.symm)
    · subst ha'
      simp only [Function.update_self, Option.some.injEq] at hrec'
      simp only [Function.update_of_ne ha] at hrec
      subst hrec'
      exact absurd hseq (h.sequence_ne_next hrec hpool)
    · simp only [Function.update_of_ne ha] at hrec
      simp only [Function.update_of_ne ha'] at hrec'
      exact h.distinct a a' issue issue' hrec hrec' hpool hseq
  · obtain ⟨⟨issue, hrec⟩, hnone⟩ := h.settled a hset
    have ha := hne a issue hrec
    exact ⟨⟨issue, by simpa [Function.update_of_ne ha] using hrec⟩,
      by simpa [Store.issue, Function.update_of_ne ha] using hnone⟩
  · -- the sum over the sorted set of `p` gains the new amount, the others stay
    by_cases hq : q = p
    · subst hq
      have hnot : r ∉ (s.store.reservations q).members := by
        intro hmem
        obtain ⟨issue, hrec, -⟩ := h.record_of_mem hmem
        exact hne r issue hrec rfl
      simp only [Store.issue, Function.update_self, SortedSet.members_zadd, reservedPool]
      rw [Finset.sum_insert hnot, h.sum_update hr, add_comm]
      simp [issuedAmount]
    · simp only [Store.issue, Function.update_of_ne hq]
      exact (h.sum_update hr _ q).symm
  · refine h.credits_update p (fun c' hc' => ?_) q c hc
    exact Option.some.inj hc' ▸ hcredits

/-- A pool may change as long as its sequence and what it has reserved do not. -/
lemma forget (h : Inv s) {r : ρ} {issue : Record κ} {pool : Pool}
    {settlement : ρ → Option Settlement} (hrec : s.record r = some issue)
    (hreserved : pool.reserved = (s.store.pool issue.pool).reserved)
    (hsequence : pool.reserveSequence = (s.store.pool issue.pool).reserveSequence)
    (hcredits : ∀ c, pool.credits = some c → 0 ≤ c)
    (hothers : ∀ a, a ≠ r → settlement a = s.settlement a) :
    Inv { s with store := s.store.forget issue.pool r pool, settlement := settlement } := by
  refine ⟨h.issued, h.member, fun a reservation hres => ?_, fun a issue' hrec' hopen => ?_,
    fun a issue' hrec' => ?_, h.distinct, fun a hset => ?_, fun q => ?_, fun q c hc => ?_⟩
  · by_cases ha : a = r
    · simp [Store.forget, ha] at hres
    · exact h.hash a reservation (by simpa [Store.forget, Function.update_of_ne ha] using hres)
  · by_cases ha : a = r
    · simp [Store.isOpen, Store.forget, ha] at hopen
    · refine h.opened a issue' hrec' ?_
      rwa [Store.isOpen_congr (Function.update_of_ne ha _ _)] at hopen
  · exact h.bounded_update hsequence.ge hrec'
  · by_cases ha : a = r
    · exact ⟨⟨issue, ha ▸ hrec⟩, by simp [Store.forget, ha]⟩
    · simp only [hothers a ha] at hset
      obtain ⟨hissue, hnone⟩ := h.settled a hset
      exact ⟨hissue, by simpa [Store.forget, Function.update_of_ne ha] using hnone⟩
  · exact h.reserved_update issue.pool hreserved q
  · exact h.credits_update issue.pool hcredits q c hc

/-- A reservation leaves its pool with its amount. -/
lemma close (h : Inv s) {r : ρ} {issue : Record κ} {pool : Pool} {hash : Option Reservation}
    {settlement : ρ → Option Settlement} (hrec : s.record r = some issue)
    (hopen : s.store.isOpen r = true)
    (hreserved : pool.reserved = (s.store.pool issue.pool).reserved - issue.amount)
    (hsequence : pool.reserveSequence = (s.store.pool issue.pool).reserveSequence)
    (hcredits : ∀ c, pool.credits = some c → 0 ≤ c)
    (hhash : hash = none ∨ (settlement r = none ∧ ∃ reservation action,
      s.store.reservation r = some reservation ∧
      hash = some { reservation with state := .settled action }))
    (hothers : ∀ a, a ≠ r → settlement a = s.settlement a) :
    Inv { s with store := s.store.close issue.pool r pool hash, settlement := settlement } := by
  have hmem := h.mem_of_open hrec hopen
  refine ⟨h.issued, fun q a k hm => ?_, fun a reservation hres => ?_,
    fun a issue' hrec' hopen' => ?_, fun a issue' hrec' => ?_, h.distinct, fun a hset => ?_,
    fun q => ?_, fun q c hc => ?_⟩
  · by_cases hq : q = issue.pool
    · subst hq
      simp only [Store.close, Function.update_self, SortedSet.mem_zrem] at hm
      exact h.member issue.pool a k hm.1
    · exact h.member q a k (by simpa [Store.close, Function.update_of_ne hq] using hm)
  · by_cases ha : a = r
    · subst ha
      rcases hhash with rfl | ⟨-, reservation', action, hold, rfl⟩
      · simp [Store.close] at hres
      · simp only [Store.close, Function.update_self, Option.some.injEq] at hres
        subst hres
        exact h.hash a reservation' hold
    · exact h.hash a reservation (by simpa [Store.close, Function.update_of_ne ha] using hres)
  · by_cases ha : a = r
    · -- the hash that is left is not open
      subst ha
      rcases hhash with rfl | ⟨-, reservation', action, -, rfl⟩ <;>
        simp [Store.isOpen, Store.close] at hopen'
    · have hold := h.opened a issue' hrec' (by
        rwa [Store.isOpen_congr (Function.update_of_ne ha _ _)] at hopen')
      by_cases hp : issue'.pool = issue.pool
      · rw [hp] at hold ⊢
        simp [Store.close, SortedSet.mem_zrem, hold, ha]
      · simpa [Store.close, Function.update_of_ne hp] using hold
  · exact h.bounded_update hsequence.ge hrec'
  · by_cases ha : a = r
    · subst ha
      refine ⟨⟨issue, hrec⟩, ?_⟩
      rcases hhash with rfl | ⟨hnone, -⟩
      · simp [Store.close]
      · exact absurd hnone hset
    · simp only [hothers a ha] at hset
      obtain ⟨hissue, hnone⟩ := h.settled a hset
      exact ⟨hissue, by simpa [Store.close, Function.update_of_ne ha] using hnone⟩
  · by_cases hq : q = issue.pool
    · subst hq
      have hsum := Finset.add_sum_erase _ (fun a => (issuedAmount s.record a : ℤ)) hmem
      have hold := h.reserved issue.pool
      simp only [Store.close, Function.update_self, SortedSet.members_zrem]
      rw [hreserved, hold, ← hsum, issuedAmount_eq hrec]
      ring
    · simpa [Store.close, Function.update_of_ne hq] using h.reserved q
  · exact h.credits_update issue.pool hcredits q c hc

omit [DecidableEq κ] in
/-- A hash may expire at any time. -/
lemma expire (h : Inv s) (r : ρ) : Inv { s with store := s.store.del r } := by
  refine ⟨h.issued, h.member, fun a reservation hres => ?_, fun a issue hrec hopen => ?_,
    h.bounded, h.distinct, fun a hset => ?_, h.reserved, h.credits⟩
  · by_cases ha : a = r
    · simp [Store.del, ha] at hres
    · exact h.hash a reservation (by simpa [Store.del, Function.update_of_ne ha] using hres)
  · by_cases ha : a = r
    · simp [Store.isOpen, Store.del, ha] at hopen
    · refine h.opened a issue hrec ?_
      rwa [Store.isOpen_congr (Function.update_of_ne ha _ _)] at hopen
  · obtain ⟨hissue, hnone⟩ := h.settled a hset
    refine ⟨hissue, ?_⟩
    by_cases ha : a = r
    · simp [Store.del, ha]
    · simpa [Store.del, Function.update_of_ne ha] using hnone

omit [DecidableEq κ] in
/-- Of a member of a sorted set, what is outstanding is all or nothing of its amount. -/
lemma outstandingAmount_eq (h : Inv s) (sequence : ℕ) (r : ρ) :
    s.store.outstandingAmount sequence r =
      if s.store.outstanding sequence r then issuedAmount s.record r else 0 := by
  unfold Store.outstandingAmount
  cases hr : s.store.reservation r with
  | none => simp [Store.outstanding, hr]
  | some reservation =>
    obtain ⟨issue, hrec, hamount, -⟩ := h.hash r reservation hr
    simp only [issuedAmount_eq hrec, hamount]

/-- A reconciliation leaves exactly what is outstanding reserved. -/
lemma sweep (h : Inv s) (p : κ) (remainingCredits : ℚ) (sequence now renewsAt : ℕ) :
    Inv { s with store := reconcile s.store p remainingCredits sequence now renewsAt } := by
  obtain ⟨hothers, hcredits, hreserved, hseq, hentries, hhash⟩ :=
    reconcileScript_spec s.store p (max 0 remainingCredits) sequence now renewsAt
  set s' := (reconcileScript s.store p (max 0 remainingCredits) sequence now renewsAt).1 with hs'
  have hstore : reconcile s.store p remainingCredits sequence now renewsAt = s' := rfl
  rw [hstore]
  -- a hash that is left was there before, and outstanding if it belongs to `p`
  have hkept : ∀ a reservation, s'.reservation a = some reservation →
      s.store.reservation a = some reservation ∧
        (a ∈ (s.store.reservations p).members → s.store.outstanding sequence a = true) := by
    intro a reservation ha
    rw [hhash a] at ha
    split_ifs at ha with hc
    refine ⟨ha, fun hmem => ?_⟩
    by_contra hout
    exact hc ⟨hmem, by simpa using hout⟩
  have hentries' : ∀ q a k, (a, k) ∈ (s'.reservations q).entries →
      (a, k) ∈ (s.store.reservations q).entries := by
    intro q a k hm
    by_cases hq : q = p
    · subst hq
      exact ((hentries a k).mp hm).1
    · rwa [(hothers q hq).2] at hm
  refine ⟨h.issued, fun q a k hm => h.member q a k (hentries' q a k hm), fun a reservation hres => ?_,
    fun a issue hrec hopen => ?_, fun a issue hrec => ?_, h.distinct, fun a hset => ?_, fun q => ?_,
    fun q c hc => ?_⟩
  · exact h.hash a reservation (hkept a reservation hres).1
  · obtain ⟨reservation, hres, hstate⟩ := Store.isOpen_iff.mp hopen
    obtain ⟨hres', hout⟩ := hkept a reservation hres
    have hold := h.opened a issue hrec (Store.isOpen_iff.mpr ⟨reservation, hres', hstate⟩)
    by_cases hp : issue.pool = p
    · rw [hp] at hold ⊢
      exact (hentries a _).mpr ⟨hold, hout (SortedSet.mem_members.mpr ⟨_, hold⟩)⟩
    · rwa [← (hothers issue.pool hp).2] at hold
  · have hold := h.bounded a issue hrec
    by_cases hp : issue.pool = p
    · rw [hp] at hold ⊢
      simpa [hseq] using hold
    · simpa [(hothers issue.pool hp).1] using hold
  · obtain ⟨hissue, hnone⟩ := h.settled a hset
    refine ⟨hissue, ?_⟩
    simp only [hhash a, hnone, ite_self]
  · by_cases hq : q = p
    · -- both sides are the sum over what is outstanding
      subst hq
      have hmembers : (s'.reservations q).members =
          (s.store.reservations q).members.filter fun a => s.store.outstanding sequence a = true := by
        ext a
        simp only [SortedSet.mem_members, hentries, Finset.mem_filter]
        exact ⟨fun ⟨k, hk, hout⟩ => ⟨⟨k, hk⟩, hout⟩, fun ⟨⟨k, hk⟩, hout⟩ => ⟨k, hk, hout⟩⟩
      simp only [hreserved, hmembers, Store.pending, Finset.sum_filter]
      push_cast
      refine Finset.sum_congr rfl fun a _ => ?_
      rw [h.outstandingAmount_eq]
      split_ifs <;> rfl
    · simpa [(hothers q hq)] using h.reserved q
  · by_cases hq : q = p
    · subst hq
      rw [hcredits, Option.some.injEq] at hc
      exact hc ▸ le_max_left _ _
    · simp only [(hothers q hq).1] at hc
      exact h.credits q c hc

/-- Every move keeps the invariant. -/
theorem move {s' : System κ ρ} (h : Inv s) (hmove : Move s s') : Inv s' := by
  cases hmove with
  | idle => exact h
  | skip p => exact h.skip p
  | issue p r credits now amount ttl hr hcredits _ => exact h.issue p now amount ttl hr hcredits
  | forget r issue pool settlement hrec _ hreserved hsequence hcredits _ hothers =>
    exact h.forget hrec hreserved hsequence hcredits hothers
  | close r issue pool hash settlement hrec hopen hreserved hsequence hcredits _ hhash hothers =>
    exact h.close hrec hopen hreserved hsequence hcredits hhash hothers
  | expire r => exact h.expire r

lemma step {s' : System κ ρ} (h : Inv s) {e : Event κ ρ}
    (hstep : CreditLedger.step s e = some s') : Inv s' := by
  rcases step_move h hstep with ⟨p, remainingCredits, sequence, now, renewsAt, -, rfl⟩ | hmove
  · exact h.sweep p remainingCredits sequence now renewsAt
  · exact h.move hmove

lemma run {s' : System κ ρ} (h : Inv s) {es : List (Event κ ρ)}
    (hrun : EventMachine.run CreditLedger.step s es = some s') : Inv s' :=
  EventMachine.run_invariant (fun _ _ _ hi hs => hi.step hs) h hrun

end Inv

/-! ## Integer balances -/

/-- A reconciliation, if it is one, takes an integer snapshot. -/
def Event.IntegerSnapshot : Event κ ρ → Prop
  | .reconcile _ remainingCredits .. => remainingCredits.isInt = true
  | _ => True

lemma Move.integral {s s' : System κ ρ} (hmove : Move s s')
    (hint : ∀ p, Integral (s.store.pool p)) : ∀ p, Integral (s'.store.pool p) := by
  have hupdate : ∀ p pool, Integral pool →
      ∀ q, Integral (Function.update s.store.pool p pool q) := fun p pool hpool =>
    (Function.forall_update_iff s.store.pool fun _ x => Integral x).mpr
      ⟨hpool, fun q _ => hint q⟩
  cases hmove with
  | idle => exact hint
  | skip p => exact hupdate p _ (hint p)
  | issue p r credits now amount ttl _ _ hcredits =>
    exact hupdate p _ fun c hc => Option.some.inj hc ▸ hcredits
  | forget r issue pool settlement _ _ _ _ _ hpool _ =>
    exact hupdate issue.pool pool (hpool (hint issue.pool))
  | close r issue pool hash settlement _ _ _ _ _ hpool _ _ =>
    exact hupdate issue.pool pool (hpool (hint issue.pool))
  | expire r => exact hint

/-- With integer snapshots, balances stay integers. -/
theorem step_integral {s s' : System κ ρ} (h : Inv s) (hint : ∀ p, Integral (s.store.pool p))
    {e : Event κ ρ} (he : e.IntegerSnapshot) (hstep : CreditLedger.step s e = some s') :
    ∀ p, Integral (s'.store.pool p) := by
  rcases step_move h hstep with ⟨p, x, sequence, now, renewsAt, rfl, rfl⟩ | hmove
  · obtain ⟨hothers, hcredits, -⟩ :=
      reconcileScript_spec s.store p (max 0 x) sequence now renewsAt
    obtain ⟨n, rfl⟩ := isInt_iff.mp he
    intro q c hc
    by_cases hq : q = p
    · subst hq
      replace hc := hcredits.symm.trans hc
      rw [Option.some.injEq] at hc
      refine isInt_iff.mpr ⟨max 0 (max 0 n - s.store.pending q sequence), ?_⟩
      rw [← hc]
      push_cast
      rfl
    · replace hc := (congrArg Pool.credits (hothers q hq).1).symm.trans hc
      exact hint q c hc
  · exact hmove.integral hint

/-- The invariant holds in every state an empty store can get to. -/
theorem Reachable.inv {s : System κ ρ} (h : Reachable s) : Inv s :=
  EventMachine.Reachable.invariant h (inv_start fun _ => ⟨rfl, fun _ hc => by cases hc⟩)
    fun _ _ _ hi hs => hi.step hs

end CreditLedger
end FirecrawlGateway
