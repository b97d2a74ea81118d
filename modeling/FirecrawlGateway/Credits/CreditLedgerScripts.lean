import FirecrawlGateway.Credits.CreditLedger

/-!
# What the ledger scripts do

One lemma for each script, in terms of three changes of the store: `issue` (a reservation is
made), `close` (an open one leaves its pool) and `forget` (a settlement finds no open
reservation). Later modules never unfold a script again.
-/

namespace FirecrawlGateway
namespace CreditLedger

open Redis

variable {κ ρ : Type*}

namespace Store

/-! ## Open reservations -/

lemma isOpen_iff {s : Store κ ρ} {r : ρ} :
    s.isOpen r = true ↔ ∃ reservation, s.reservation r = some reservation ∧
      reservation.state = .opened := by
  unfold isOpen
  cases s.reservation r <;> simp

lemma isOpen_congr {s s' : Store κ ρ} {r : ρ} (h : s'.reservation r = s.reservation r) :
    s'.isOpen r = s.isOpen r := by
  unfold isOpen
  rw [h]

lemma state_ne_opened {s : Store κ ρ} {r : ρ} {reservation : Reservation}
    (h : s.isOpen r = false) (hr : s.reservation r = some reservation) :
    reservation.state ≠ .opened := by
  simpa [isOpen, hr] using h

lemma isOpen_of_none {s : Store κ ρ} {r : ρ} (h : s.reservation r = none) :
    s.isOpen r = false := by
  unfold isOpen
  rw [h]

/-! ## Changes of the store -/

variable [DecidableEq κ] [DecidableEq ρ]

/-- A reservation `r` in pool `p`. -/
def issue (s : Store κ ρ) (p : κ) (r : ρ) (pool : Pool) (reservation : Reservation) :
    Store κ ρ where
  pool := Function.update s.pool p pool
  reservations := Function.update s.reservations p
    ((s.reservations p).zadd reservation.sequence r)
  reservation := Function.update s.reservation r (some reservation)

/-- `r` leaves pool `p`, and its hash becomes `hash`. -/
def close (s : Store κ ρ) (p : κ) (r : ρ) (pool : Pool) (hash : Option Reservation) :
    Store κ ρ where
  pool := Function.update s.pool p pool
  reservations := Function.update s.reservations p ((s.reservations p).zrem r)
  reservation := Function.update s.reservation r hash

/-- The hash of `r` is deleted. -/
def forget (s : Store κ ρ) (p : κ) (r : ρ) (pool : Pool) : Store κ ρ where
  pool := Function.update s.pool p pool
  reservations := s.reservations
  reservation := Function.update s.reservation r none

end Store

/-! ## `RESERVE_SCRIPT` -/

/-- A pool `RESERVE_SCRIPT` may select: known, not disabled, not cooling down, with enough
credits. -/
def CanReserve (pool : Pool) (now amount : ℕ) : Prop :=
  ∃ credits, pool.credits = some credits ∧ pool.disabled = false ∧ pool.cooldownUntil ≤ now ∧
    (amount : ℚ) ≤ credits

lemma eligible_iff {pool : Pool} {credits : ℚ} {now amount : ℕ} :
    eligible pool credits now amount = true ↔
      pool.disabled = false ∧ pool.cooldownUntil ≤ now ∧ (amount : ℚ) ≤ credits := by
  simp [eligible, and_assoc]

/-- What the loop knows about the candidates it has seen. -/
structure Seen (now amount : ℕ) (sel : Selection) (seen : List Pool) : Prop where
  initialized : sel.initialized = true ↔ ∃ pool ∈ seen, pool.credits ≠ none
  ties : ∀ i ∈ sel.ties, ∃ pool, seen[i]? = some pool ∧ CanReserve pool now amount
  complete : sel.ties = [] → ∀ pool ∈ seen, ¬ CanReserve pool now amount
  bestDay : sel.ties = [] → sel.bestDay = none

lemma seen_nil (now amount : ℕ) : Seen now amount {} [] :=
  ⟨by simp, by simp, by simp, fun _ => rfl⟩

/-- Candidates already seen keep their numbers. -/
lemma Seen.ties_append {now amount : ℕ} {sel : Selection} {seen : List Pool}
    (h : Seen now amount sel seen) (pool : Pool) :
    ∀ i ∈ sel.ties, ∃ p, (seen ++ [pool])[i]? = some p ∧ CanReserve p now amount := by
  intro i hi
  obtain ⟨p, hp, hcan⟩ := h.ties i hi
  exact ⟨p, (List.getElem?_append_left (List.getElem?_eq_some_iff.mp hp).1).trans hp, hcan⟩

lemma Seen.consider {now amount : ℕ} {sel : Selection} {seen : List Pool}
    (h : Seen now amount sel seen) (pool : Pool) :
    Seen now amount (consider now amount sel seen.length pool) (seen ++ [pool]) := by
  have hmem : ∀ P : Pool → Prop, (∃ p ∈ seen ++ [pool], P p) ↔ (∃ p ∈ seen, P p) ∨ P pool := by
    intro P
    simp [or_and_right, exists_or]
  have hlast : (seen ++ [pool])[seen.length]? = some pool := by simp
  unfold CreditLedger.consider
  cases hc : pool.credits with
  | none =>
    -- a pool no refresh has filled yet is passed over
    have hcannot : ¬ CanReserve pool now amount := by
      rintro ⟨credits, hcredits, -⟩
      rw [hc] at hcredits
      cases hcredits
    refine ⟨?_, h.ties_append pool, fun hties p hp => ?_, h.bestDay⟩
    · rw [h.initialized, hmem]
      simp [hc]
    · rcases List.mem_append.mp hp with hp | hp
      · exact h.complete hties p hp
      · rw [List.mem_singleton.mp hp]
        exact hcannot
  | some credits =>
    have hinit : ∃ p ∈ seen ++ [pool], p.credits ≠ none := ⟨pool, by simp, by simp [hc]⟩
    dsimp only
    by_cases helig : eligible pool credits now amount = true
    · have hcan : CanReserve pool now amount := ⟨credits, hc, eligible_iff.mp helig⟩
      rw [if_pos helig]
      split_ifs with hbeaten htie
      · -- the best so far
        refine ⟨iff_of_true rfl hinit, fun i hi => ?_, fun hties => ?_, fun hties => ?_⟩
        · rw [List.mem_singleton.mp hi]
          exact ⟨pool, hlast, hcan⟩
        · cases hties
        · cases hties
      · -- as good as the best so far
        refine ⟨iff_of_true rfl hinit, fun i hi => ?_, fun hties => ?_, fun hties => ?_⟩
        · rcases List.mem_append.mp hi with hi | hi
          · exact h.ties_append pool i hi
          · rw [List.mem_singleton.mp hi]
            exact ⟨pool, hlast, hcan⟩
        · simp at hties
        · simp at hties
      · -- a candidate that is neither better nor a tie comes after another one
        have hne : sel.ties ≠ [] := by
          intro hties
          have := h.bestDay hties
          simp [Selection.beatenBy, this] at hbeaten
        exact ⟨iff_of_true rfl hinit, h.ties_append pool, fun hties => absurd hties hne,
          fun hties => absurd hties hne⟩
    · have hcannot : ¬ CanReserve pool now amount := by
        rintro ⟨credits', hcredits, hcan⟩
        rw [hc, Option.some.injEq] at hcredits
        subst hcredits
        exact helig (eligible_iff.mpr hcan)
      rw [if_neg helig]
      refine ⟨iff_of_true rfl hinit, h.ties_append pool, fun hties p hp => ?_, h.bestDay⟩
      rcases List.mem_append.mp hp with hp | hp
      · exact h.complete hties p hp
      · rw [List.mem_singleton.mp hp]
        exact hcannot

lemma Seen.selectFrom {now amount : ℕ} {sel : Selection} {seen : List Pool}
    (h : Seen now amount sel seen) (pools : List Pool) :
    Seen now amount (selectFrom now amount sel seen.length pools) (seen ++ pools) := by
  induction pools generalizing sel seen with
  | nil => simpa [CreditLedger.selectFrom] using h
  | cons pool pools ih =>
    have := ih (h.consider pool)
    rw [List.length_append, List.length_singleton, List.append_assoc, List.singleton_append] at this
    exact this

/-- The loop over all candidates. -/
lemma seen_all (now amount : ℕ) (pools : List Pool) :
    Seen now amount (selectFrom now amount {} 0 pools) pools :=
  (seen_nil now amount).selectFrom pools

/-- The random pick is one of the ties, and fails only without ties. -/
lemma pick_mem {ties : List ℕ} {random : ℚ} {i : ℕ} (h : pick ties random = some i) :
    i ∈ ties := by
  unfold pick luaIndex at h
  split_ifs at h
  · rcases Option.or_eq_some_iff.mp h with h | ⟨-, h⟩
    · exact List.mem_of_getElem? h
    · exact List.mem_of_mem_head? h
  · exact List.mem_of_mem_head? h

lemma pick_eq_none {ties : List ℕ} {random : ℚ} (h : pick ties random = none) : ties = [] := by
  unfold pick at h
  exact List.head?_eq_none_iff.mp (Option.or_eq_none_iff.mp h).2

/-- The selected candidate may be charged; nothing is selected only if no candidate may. -/
theorem selected_spec (s : Store κ ρ) (keys : List (κ × ρ)) (now amount : ℕ) (random : ℚ) :
    match selected s keys now amount random with
    | some (i, p, r) => keys[i]? = some (p, r) ∧ CanReserve (s.pool p) now amount
    | none => ∀ k ∈ keys, ¬ CanReserve (s.pool k.1) now amount := by
  have hseen := seen_all now amount (keys.map fun k => s.pool k.1)
  have hsel : selected s keys now amount random =
      (pick (selectFrom now amount {} 0 (keys.map fun k => s.pool k.1)).ties random).bind
        fun i => keys[i]?.map fun k => (i, k) := rfl
  cases hpick : pick (selectFrom now amount {} 0 (keys.map fun k => s.pool k.1)).ties random with
  | none =>
    rw [hsel, hpick]
    intro k hk
    exact hseen.complete (pick_eq_none hpick) _ (List.mem_map_of_mem hk)
  | some i =>
    obtain ⟨pool, hpool, hcan⟩ := hseen.ties i (pick_mem hpick)
    rw [List.getElem?_map, Option.map_eq_some_iff] at hpool
    obtain ⟨⟨p, r⟩, hk, rfl⟩ := hpool
    rw [hsel, hpick, Option.bind_some, hk]
    exact ⟨hk, hcan⟩

variable [DecidableEq κ] [DecidableEq ρ]

/-- The pool after a reservation. -/
def reservedPool (pool : Pool) (credits : ℚ) (now amount : ℕ) : Pool :=
  { pool with reserveSequence := pool.reserveSequence + 1, credits := some credits,
              reserved := pool.reserved + amount, updatedAt := now }

/-- On the selected pool, a reservation is issued, or `HINCRBY` fails on fractional credits. -/
lemma reserveIn_spec (s : Store κ ρ) (i : ℕ) (p : κ) (r : ρ) (now amount ttl : ℕ) :
    reserveIn s i p r now amount ttl =
      match hincrby (s.pool p).credits (-amount) with
      | none => (s.setPool p { s.pool p with
          reserveSequence := (s.pool p).reserveSequence + 1 }, none)
      | some credits =>
        (s.issue p r (reservedPool (s.pool p) credits now amount)
          { amount := amount, sequence := (s.pool p).reserveSequence + 1, ttlSeconds := ttl },
         some (.selected i ((s.pool p).reserveSequence + 1) r)) := by
  unfold reserveIn
  dsimp only
  cases hincrby (s.pool p).credits (-amount) <;> rfl

/-- `RESERVE_SCRIPT` by what it selects. -/
theorem reserveScript_spec (s : Store κ ρ) (keys : List (κ × ρ)) (now amount ttl : ℕ)
    (random : ℚ) :
    reserveScript s keys now amount ttl random =
      match selected s keys now amount random with
      | some (i, p, r) => reserveIn s i p r now amount ttl
      | none => (s, some (if keys.any fun k => (s.pool k.1).credits.isSome then .noCapacity
          else .uninitialized)) := by
  have hseen := seen_all now amount (keys.map fun k => s.pool k.1)
  have hspec := selected_spec s keys now amount random
  have hinit : (selectFrom now amount {} 0 (keys.map fun k => s.pool k.1)).initialized =
      keys.any fun k => (s.pool k.1).credits.isSome := by
    rw [Bool.eq_iff_iff, hseen.initialized, List.any_eq_true]
    simp [Option.isSome_iff_ne_none]
  unfold reserveScript
  dsimp only
  rw [hinit]
  by_cases hany : (keys.any fun k => (s.pool k.1).credits.isSome) = true
  · rw [if_neg (by simp [hany])]
    cases selected s keys now amount random <;> simp [hany]
  · rw [if_pos (by simp [hany])]
    cases hsel : selected s keys now amount random with
    | none => simp [hany]
    | some k =>
      -- a selected candidate is initialized
      obtain ⟨i, p, r⟩ := k
      rw [hsel] at hspec
      obtain ⟨hk, credits, hcredits, -⟩ := hspec
      refine absurd (List.any_eq_true.mpr ⟨(p, r), List.mem_of_getElem? hk, ?_⟩) hany
      simp [hcredits]

/-! ## Settlements -/

/-- A settlement of a reservation that is not open only deletes its hash, and applies its
action to the pool. -/
lemma settleScript_of_not_open {s : Store κ ρ} {r : ρ} (h : s.isOpen r = false) (p : κ)
    (action : SettleAction) (cooldownUntil : ℕ) :
    settleScript s p r action cooldownUntil =
      (s.forget p r (applyAction (s.pool p) action cooldownUntil), some false) := by
  unfold settleScript
  cases hr : s.reservation r with
  | none => rfl
  | some reservation =>
    simp only [if_neg (Store.state_ne_opened h hr)]
    rfl

/-- The pool once `amount` left its `reserved` counter. -/
def releasedPool (pool : Pool) (amount : ℕ) : Pool :=
  { pool with reserved := pool.reserved - amount }

/-- A settlement of an open reservation returns its amount and closes it. -/
lemma settleScript_of_open {s : Store κ ρ} {r : ρ} {reservation : Reservation}
    (h : s.reservation r = some reservation) (hopen : reservation.state = .opened)
    (hrec : reservation.reconciled = false) (p : κ) (action : SettleAction) (cooldownUntil : ℕ) :
    settleScript s p r action cooldownUntil =
      match hincrby (s.pool p).credits reservation.amount with
      | none => (s.close p r (releasedPool (s.pool p) reservation.amount)
          (some { reservation with state := .settled action }), none)
      | some credits =>
        (s.close p r (applyAction { releasedPool (s.pool p) reservation.amount with
          credits := some credits } action cooldownUntil) none, some true) := by
  have hopened : settleOpen s p r reservation action =
      match hincrby (s.pool p).credits reservation.amount with
      | none => (s.close p r (releasedPool (s.pool p) reservation.amount)
          (some { reservation with state := .settled action }), none)
      | some credits => (s.close p r { releasedPool (s.pool p) reservation.amount with
          credits := some credits } (some { reservation with state := .settled action }),
          some ()) := by
    unfold settleOpen
    rw [if_neg (by simp [hrec])]
    dsimp only
    cases hincrby (s.pool p).credits reservation.amount with
    | none => rfl
    | some credits =>
      simp [Store.setPool, Store.setReservations, Store.setReservation, Store.close, releasedPool]
  unfold settleScript
  rw [h]
  simp only [hopen, if_true, hopened]
  cases hincrby (s.pool p).credits reservation.amount with
  | none => rfl
  | some credits =>
    simp [settleFinish, Store.setPool, Store.del, Store.close]

lemma actualUsageScript_of_not_open {s : Store κ ρ} {r : ρ} (h : s.isOpen r = false) (p : κ)
    (actual : ℕ) :
    actualUsageScript s p r actual = (s.forget p r (s.pool p), some false) := by
  have hforget : s.forget p r (s.pool p) = s.del r := by
    simp [Store.forget, Store.del]
  unfold actualUsageScript
  rw [if_neg (by omega), hforget]
  cases hr : s.reservation r with
  | none => rfl
  | some reservation =>
    simp only [if_neg (Store.state_ne_opened h hr)]

/-- The actual usage of an open reservation replaces its estimate and closes it. -/
lemma actualUsageScript_of_open {s : Store κ ρ} {r : ρ} {reservation : Reservation}
    (h : s.reservation r = some reservation) (hopen : reservation.state = .opened) (p : κ)
    (actual : ℕ) :
    actualUsageScript s p r actual =
      match adjustCredits (s.pool p).credits reservation.amount actual with
      | none => (s, none)
      | some credits =>
        (s.close p r { releasedPool (s.pool p) reservation.amount with credits := credits } none,
          some true) := by
  unfold actualUsageScript
  rw [if_neg (by omega), h]
  simp only [hopen, if_true]
  cases adjustCredits (s.pool p).credits reservation.amount actual <;> rfl

/-! ## `RECONCILE_SCRIPT` -/

/-- `r` stays outstanding over a snapshot taken at `sequence`. -/
def Store.outstanding (s : Store κ ρ) (sequence : ℕ) (r : ρ) : Bool :=
  match s.reservation r with
  | some reservation => reservation.state = .opened && sequence < reservation.sequence
  | none => false

/-- The amount `r` keeps outstanding. -/
def Store.outstandingAmount (s : Store κ ρ) (sequence : ℕ) (r : ρ) : ℕ :=
  match s.reservation r with
  | some reservation => if s.outstanding sequence r then reservation.amount else 0
  | none => 0

/-- The credits still reserved in pool `p` after the snapshot taken at `sequence`. -/
def Store.pending (s : Store κ ρ) (p : κ) (sequence : ℕ) : ℕ :=
  ∑ r ∈ (s.reservations p).members, s.outstandingAmount sequence r

omit [DecidableEq κ] in
/-- A round of the loop keeps an outstanding reservation, and drops any other. -/
lemma sweepOne_eq (s : Store κ ρ) (sequence : ℕ) (w : Sweep ρ) (r : ρ)
    (h : w.reservation r = s.reservation r ∨
      (w.reservation r = none ∧ s.outstanding sequence r = false)) :
    sweepOne sequence w r =
      if s.outstanding sequence r then
        { w with pending := w.pending + s.outstandingAmount sequence r,
                 outstanding := w.outstanding + s.outstandingAmount sequence r }
      else w.drop r := by
  unfold sweepOne
  rcases h with h | ⟨h, hout⟩
  · rw [h]
    unfold Store.outstandingAmount Store.outstanding
    cases s.reservation r with
    | none => rfl
    | some reservation =>
      by_cases hstate : reservation.state = .opened
      · by_cases hseq : sequence < reservation.sequence
        · simp [hstate, hseq]
        · simp [hstate, hseq, Sweep.drop]
      · simp [hstate]
  · rw [h, hout]
    rfl

/-- What the loop has done after the reservations `ids`. -/
structure Swept (s : Store κ ρ) (p : κ) (sequence : ℕ) (ids : List ρ) (w : Sweep ρ) : Prop where
  reservation : ∀ r, w.reservation r =
    if r ∈ ids ∧ s.outstanding sequence r = false then none else s.reservation r
  entries : ∀ r q, (r, q) ∈ w.reservations.entries ↔
    (r, q) ∈ (s.reservations p).entries ∧ ¬ (r ∈ ids ∧ s.outstanding sequence r = false)
  pending : w.pending = (ids.map (s.outstandingAmount sequence)).sum
  outstanding : w.outstanding = w.pending

omit [DecidableEq κ] in
lemma Swept.sweepOne {s : Store κ ρ} {p : κ} {sequence : ℕ} {ids : List ρ} {w : Sweep ρ}
    (h : Swept s p sequence ids w) (r : ρ) :
    Swept s p sequence (ids ++ [r]) (sweepOne sequence w r) := by
  have hr : w.reservation r = s.reservation r ∨
      (w.reservation r = none ∧ s.outstanding sequence r = false) := by
    rw [h.reservation r]
    split_ifs with hc
    · exact Or.inr ⟨rfl, hc.2⟩
    · exact Or.inl rfl
  rw [sweepOne_eq s sequence w r hr]
  have hmem : ∀ a, a ∈ ids ++ [r] ↔ a ∈ ids ∨ a = r := by simp
  have hsum : ((ids ++ [r]).map (s.outstandingAmount sequence)).sum =
      w.pending + s.outstandingAmount sequence r := by
    simp [h.pending]
  by_cases hout : s.outstanding sequence r = true
  · -- `r` stays, so the loop has dropped the same reservations as before
    have hkeep : ∀ a, (a ∈ ids ++ [r] ∧ s.outstanding sequence a = false) ↔
        (a ∈ ids ∧ s.outstanding sequence a = false) := by
      intro a
      rw [hmem]
      refine ⟨?_, fun hc => ⟨Or.inl hc.1, hc.2⟩⟩
      rintro ⟨ha | rfl, hf⟩
      · exact ⟨ha, hf⟩
      · rw [hout] at hf
        cases hf
    rw [if_pos hout]
    refine ⟨fun a => ?_, fun a q => ?_, hsum.symm, ?_⟩
    · simp only [hkeep]
      exact h.reservation a
    · simp only [hkeep]
      exact h.entries a q
    · simp [h.outstanding]
  · -- `r` is dropped, and adds nothing to what is pending
    have hfalse : s.outstanding sequence r = false := by simpa using hout
    have hzero : s.outstandingAmount sequence r = 0 := by
      unfold Store.outstandingAmount
      cases s.reservation r <;> simp [hfalse]
    rw [if_neg hout]
    refine ⟨fun a => ?_, fun a q => ?_, by rw [hsum, hzero]; rfl, h.outstanding⟩
    · by_cases ha : a = r
      · subst ha
        rw [if_pos ⟨by simp, hfalse⟩]
        simp [Sweep.drop]
      · simp only [Sweep.drop, Function.update_of_ne ha, h.reservation a, hmem, ha, or_false]
    · simp only [Sweep.drop, SortedSet.mem_zrem, h.entries, hmem]
      by_cases ha : a = r
      · subst ha
        simp [hfalse]
      · simp [ha]

omit [DecidableEq κ] in
lemma swept_foldl (s : Store κ ρ) (p : κ) (sequence : ℕ) (ids rest : List ρ) (w : Sweep ρ)
    (h : Swept s p sequence ids w) :
    Swept s p sequence (ids ++ rest) (rest.foldl (sweepOne sequence) w) := by
  induction rest generalizing ids w with
  | nil => simpa using h
  | cons r rest ih =>
    have := ih (ids ++ [r]) _ (h.sweepOne r)
    rwa [List.append_assoc, List.singleton_append] at this

/-- After `RECONCILE_SCRIPT` the balance is the snapshot less what is still outstanding. -/
theorem reconcileScript_spec (s : Store κ ρ) (p : κ) (snapshot : ℚ) (sequence now renewsAt : ℕ) :
    let s' := (reconcileScript s p snapshot sequence now renewsAt).1
    (∀ q, q ≠ p → s'.pool q = s.pool q ∧ s'.reservations q = s.reservations q) ∧
      (s'.pool p).credits = some (max 0 (snapshot - s.pending p sequence)) ∧
      (s'.pool p).reserved = s.pending p sequence ∧
      (s'.pool p).reserveSequence = (s.pool p).reserveSequence ∧
      (∀ r q, (r, q) ∈ (s'.reservations p).entries ↔
        (r, q) ∈ (s.reservations p).entries ∧ s.outstanding sequence r = true) ∧
      ∀ r, s'.reservation r =
        if r ∈ (s.reservations p).members ∧ s.outstanding sequence r = false then none
        else s.reservation r := by
  have hstart : Swept s p sequence []
      { reservations := s.reservations p, reservation := s.reservation } :=
    ⟨by simp, by simp, rfl, rfl⟩
  have hswept := swept_foldl s p sequence [] (s.reservations p).zrange _ hstart
  rw [List.nil_append] at hswept
  set w := (s.reservations p).zrange.foldl (sweepOne sequence)
    { reservations := s.reservations p, reservation := s.reservation } with hw
  have hpending : w.pending = s.pending p sequence := by
    rw [hswept.pending, Store.pending, SortedSet.sum_zrange]
  have hmembers : ∀ r, r ∈ (s.reservations p).zrange ↔ r ∈ (s.reservations p).members := by
    intro r
    simp [SortedSet.members]
  unfold reconcileScript
  dsimp only
  rw [← hw]
  refine ⟨fun q hq => ?_, ?_, ?_, ?_, fun r q => ?_, fun r => ?_⟩
  · simp [Function.update_of_ne hq]
  · simp only [Function.update_self, hpending, Option.some.injEq]
    split_ifs with hneg
    · rw [max_eq_left hneg.le]
    · rw [max_eq_right (not_lt.mp hneg)]
  · simp [hswept.outstanding, hpending]
  · simp
  · simp only [Function.update_self, hswept.entries]
    refine and_congr_right fun hmem => ?_
    have : r ∈ (s.reservations p).zrange := (hmembers r).mpr (SortedSet.mem_members.mpr ⟨q, hmem⟩)
    simp [this]
  · rw [hswept.reservation r]
    simp only [hmembers]

end CreditLedger
end FirecrawlGateway
