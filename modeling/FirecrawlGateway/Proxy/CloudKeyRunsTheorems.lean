import FirecrawlGateway.Credits.CreditRoutingTheorems
import FirecrawlGateway.Proxy.CloudKeyRuns

/-!
# Exhausted and cooling keys

An onlooker of an instance keeps `Notes`: which keys Cloud has refused and not been heard of
since, and how long each key has to cool down; from them it bars keys from every call of
`reserve` that starts. `Inv` compares the notes with the local sets the source decides by. The
one gap is a balance that was received before a refusal and is learnt after it.
-/

namespace FirecrawlGateway
namespace CloudKeys

open EventMachine
open CreditRouting
open Proxy (CloudResponse recording_of_error)

variable {c : Config}

/-! ## What an onlooker sees -/

/-- The status that Cloud answers with, or that is recorded, with the key it is about. -/
def recorded (s : System) : Event → Option (String × ℕ)
  | .recordResponse reservation status _ => some (reservation.keyId, status)
  | .proxied call response =>
    match s.reserves call with
    | some (.returned (some reservation)) => some (reservation.keyId, response.status)
    | _ => none
  | _ => none

/-- The balance that a step receives from Cloud, with the key it is about. -/
def received (c : Config) (s : System) : Event → Option (String × ℚ)
  | .balance call details =>
    match s.refreshes call with
    | some ⟨apiKey, .fetching _⟩ => details.remainingCredits.map fun r => (c.keyId apiKey, r)
    | _ => none
  | _ => none

/-- What an onlooker has written down. -/
structure Notes where
  /-- A 402 was recorded, and no positive balance has been received since. -/
  exhausted : String → Bool := fun _ => false
  /-- When the key has cooled down, as far as 429s were recorded that nothing has lifted. -/
  coolUntil : String → ℕ := fun _ => 0
  /-- A 402 was recorded after the last 429. -/
  spent : String → Bool := fun _ => false
  /-- The keys that a call of `reserve` may not return. -/
  barred : ℕ → String → Bool := fun _ _ => false

/-- Cloud answered with this status, for the key. -/
def Notes.onRecorded (n : Notes) (clock : ℕ) (keyId : String) (status : ℕ) : Notes :=
  if status = 402 then
    { n with
      exhausted := Function.update n.exhausted keyId true
      spent := Function.update n.spent keyId true }
  else if status = 429 then
    { n with
      coolUntil := Function.update n.coolUntil keyId (clock + 30000)
      spent := Function.update n.spent keyId false }
  else n

/-- A balance was received for the key: a positive one lifts what a 402 has ended. -/
def Notes.onReceived (n : Notes) (keyId : String) (remainingCredits : ℚ) : Notes :=
  if remainingCredits > 0 then
    { n with
      exhausted := Function.update n.exhausted keyId false
      coolUntil := if n.spent keyId then Function.update n.coolUntil keyId 0 else n.coolUntil }
  else n

/-- The onlooker sees a step. -/
def Notes.note (c : Config) (n : Notes) (s : System) (e : Event) (_ : System) : Notes :=
  match e with
  | .reserve call _ _ _ _ =>
    { n with barred := Function.update n.barred call fun keyId =>
        n.exhausted keyId || s.clock < n.coolUntil keyId }
  | _ =>
    match recorded s e, received c s e with
    | some (keyId, status), _ => n.onRecorded s.clock keyId status
    | none, some (keyId, remainingCredits) => n.onReceived keyId remainingCredits
    | none, none => n

/-- No call of `reserve` has returned a key that was barred when the call started. -/
def Respected (s : System) (n : Notes) : Prop :=
  ∀ call reservation, s.reserves call = some (.returned (some reservation)) →
    n.barred call reservation.keyId = false

/-- The states an instance gets to over a Redis with some pools, with what an onlooker wrote
down. -/
def Watched (c : Config) (redis : CreditLedger.Store String String) (es : List Event) (s : System)
    (n : Notes) : Prop :=
  run (watched (step c) (Notes.note c)) ({ redis := redis }, {}) es = some (s, n)

/-- The key of a refresh has a positive balance that the fields have yet to learn. -/
def Refresh.Pending (c : Config) (keyId : String) (f : Refresh) : Prop :=
  c.keyId f.apiKey = keyId ∧ ∃ details r, f.stage = .reconciling details r ∧ r > 0

/-- No 402 is recorded for a key while such a balance of the key is pending. -/
def NoStaleBalance (c : Config) (s : System) (e : Event) : Prop :=
  ∀ keyId, recorded s e = some (keyId, 402) →
    ∀ call f, s.refreshes call = some f → ¬ f.Pending c keyId

/-! ## The local sets -/

lemma usable_of_mem_candidates {keyId : String → String} {r : Routing} {now : ℤ}
    {apiKeys : List String} {excludedKeyIds : Finset String} {cand : Candidate}
    (h : cand ∈ candidates keyId r now apiKeys excludedKeyIds) : r.usable now cand.keyId = true :=
  (List.mem_filter.mp h).2

/-- Local reservations charge a pool at most. -/
lemma reserveLocally_sets (r : Routing) (now : ℤ) (random : ℚ) (cs : List Candidate) (amount : ℤ) :
    (reserveLocally r now random cs amount).1.localDisabled = r.localDisabled ∧
    (reserveLocally r now random cs amount).1.localCooldownUntil = r.localCooldownUntil := by
  unfold reserveLocally
  dsimp only
  split
  · exact ⟨rfl, rfl⟩
  · unfold charge
    split <;> exact ⟨rfl, rfl⟩

lemma reserveResume_sets (r : Routing) (now : ℤ) (random : ℚ) (cs : List Candidate) (amount : ℤ)
    (result : CreditLedger.LedgerReserveResult String) :
    (reserveResume r now random cs amount result).1.localDisabled = r.localDisabled ∧
    (reserveResume r now random cs amount result).1.localCooldownUntil = r.localCooldownUntil := by
  unfold reserveResume
  cases result with
  | reserved index sequence key =>
    dsimp only
    cases cs[index]? with
    | some selected => exact ⟨rfl, rfl⟩
    | none => exact reserveLocally_sets _ now random cs amount
  | noCapacity => exact ⟨rfl, rfl⟩
  | unavailable => exact reserveLocally_sets _ now random cs amount

/-- What comes out of a call was one of its candidates. -/
lemma reserveResume_mem {r : Routing} {now : ℤ} {random : ℚ} {cs : List Candidate} {amount : ℤ}
    {result : CreditLedger.LedgerReserveResult String} {reservation : CreditReservation}
    (h : (reserveResume r now random cs amount result).2 = some reservation) :
    reservation.toCandidate ∈ cs := by
  unfold reserveResume at h
  cases result with
  | reserved index sequence key =>
    dsimp only at h
    cases hget : cs[index]? with
    | some selected =>
      rw [hget] at h
      cases h
      exact List.mem_of_getElem? hget
    | none =>
      rw [hget] at h
      exact reserveLocally_mem h
  | noCapacity => cases h
  | unavailable => exact reserveLocally_mem h

/-! ## The invariant -/

/-- A call of `reserve` can return, or has returned, only keys it may. -/
def CallOk (barred : String → Bool) : ReserveCall → Prop
  | .waiting _ cs _ => ∀ cand ∈ cs, barred cand.keyId = false
  | .returned reservation => ∀ r ∈ reservation, barred r.keyId = false

/-- What the local sets owe to the notes. -/
structure Inv (c : Config) (s : System) (n : Notes) : Prop where
  disabled : ∀ k, n.exhausted k = true → k ∈ s.routing.localDisabled
  pending : ∀ k, n.exhausted k = true → ∀ call f, s.refreshes call = some f → ¬ f.Pending c k
  cooling : ∀ k, s.clock < n.coolUntil k →
    (∃ u, s.routing.localCooldownUntil k = some u ∧ n.coolUntil k ≤ u) ∨
      (n.spent k = true ∧ n.exhausted k = true)
  calls : ∀ call r, s.reserves call = some r → CallOk (n.barred call) r

lemma inv_init (redis : CreditLedger.Store String String) : Inv c { redis := redis } {} where
  disabled k h := by cases h
  pending k h := by cases h
  cooling k h := by simp at h
  calls call r h := by cases h

/-- A key that the fields let through is not barred. -/
lemma Inv.not_barred {s : System} {n : Notes} (h : Inv c s n) {k : String}
    (hk : s.routing.usable s.clock k = true) :
    (n.exhausted k || decide (s.clock < n.coolUntil k)) = false := by
  simp only [Routing.usable, Bool.and_eq_true, decide_eq_true_eq] at hk
  obtain ⟨hdisabled, hcool⟩ := hk
  rw [Bool.or_eq_false_iff, decide_eq_false_iff_not]
  have hexhausted : n.exhausted k = false :=
    Bool.eq_false_of_not_eq_true fun he => hdisabled (h.disabled k he)
  refine ⟨hexhausted, fun hlt => ?_⟩
  rcases h.cooling k hlt with ⟨u, hu, hle⟩ | ⟨-, he⟩
  · rw [hu, Option.getD_some] at hcool
    omega
  · rw [hexhausted] at he
    cases he

/-- A step that leaves the local sets, the calls and the notes alone. -/
lemma Inv.frame {s s' : System} {n : Notes} (h : Inv c s n)
    (hd : s'.routing.localDisabled = s.routing.localDisabled)
    (hcool : s'.routing.localCooldownUntil = s.routing.localCooldownUntil)
    (hclock : s.clock ≤ s'.clock) (hreserves : s'.reserves = s.reserves)
    (hpending : ∀ k call f, s'.refreshes call = some f → f.Pending c k →
      n.exhausted k = false ∨ s.refreshes call = some f) : Inv c s' n where
  disabled k hk := hd ▸ h.disabled k hk
  pending k hk call f hf hp := by
    rcases hpending k call f hf hp with hnot | hold
    · rw [hk] at hnot
      cases hnot
    · exact h.pending k hk call f hold hp
  cooling k hk := by
    rw [hcool]
    exact h.cooling k (hclock.trans_lt hk)
  calls call r hr := h.calls call r (hreserves ▸ hr)

/-- Fields that block no key may change. -/
lemma Inv.setRouting {s : System} {n : Notes} (h : Inv c s n) {routing : Routing}
    (hd : routing.localDisabled = s.routing.localDisabled)
    (hcool : routing.localCooldownUntil = s.routing.localCooldownUntil) :
    Inv c { s with routing := routing } n :=
  h.frame hd hcool le_rfl rfl fun _ _ _ hf _ => Or.inr hf

/-- A refresh that goes on without a positive balance to learn. -/
lemma Inv.setRefresh {s : System} {n : Notes} (h : Inv c s n) {call : ℕ} {f : Refresh}
    (hf : ∀ k, f.Pending c k → n.exhausted k = false) : Inv c (setRefresh s call f) n := by
  refine h.frame rfl rfl le_rfl rfl fun k call' f' hf' hp => ?_
  by_cases hcall : call' = call
  · subst hcall
    obtain rfl : f = f' := by simpa [CloudKeys.setRefresh] using hf'
    exact Or.inl (hf k hp)
  · exact Or.inr (by simpa [CloudKeys.setRefresh, hcall] using hf')

lemma Inv.advance {s : System} {n : Notes} (h : Inv c s n) {call : ℕ} {f : Refresh}
    (hf : ∀ details r, f.stage ≠ .reconciling details r) : Inv c (CloudKeys.setRefresh s call f) n :=
  h.setRefresh fun _ ⟨_, details, r, hstage, _⟩ => absurd hstage (hf details r)

/-- A call of `reserve` goes on. -/
lemma Inv.setReserve {s : System} {n : Notes} (h : Inv c s n) {call : ℕ} {r : ReserveCall}
    (hr : CallOk (n.barred call) r) : Inv c (setReserve s call r) n where
  disabled := h.disabled
  pending := h.pending
  cooling := h.cooling
  calls call' r' hr' := by
    by_cases hcall : call' = call
    · subst hcall
      obtain rfl : r = r' := by simpa [CloudKeys.setReserve] using hr'
      exact hr
    · exact h.calls call' r' (by simpa [CloudKeys.setReserve, hcall] using hr')

/-- Sending a script changes nothing that the notes speak of. -/
lemma Inv.send {s : System} {n : Notes} (h : Inv c s n) (script : Script) :
    Inv c (send s script) n :=
  h.frame rfl rfl le_rfl rfl fun _ _ _ hf _ => Or.inr hf

/-- Keys are barred from a call as it starts. -/
lemma Inv.bar {s : System} {n : Notes} (h : Inv c s n) {call : ℕ} (hcall : s.reserves call = none)
    (keys : String → Bool) : Inv c s { n with barred := Function.update n.barred call keys } where
  disabled := h.disabled
  pending := h.pending
  cooling := h.cooling
  calls call' r hr := by
    have hne : call' ≠ call := by
      rintro rfl
      rw [hcall] at hr
      cases hr
    show CallOk (Function.update n.barred call keys call') r
    rw [Function.update_of_ne hne]
    exact h.calls call' r hr

lemma inv_reserve {s s' : System} {n : Notes} {call : ℕ} {apiKeys : List String} {amount : ℚ}
    {excludedKeyIds : Finset String} {random : ℚ} (h : Inv c s n)
    (hstep : step c s (.reserve call apiKeys amount excludedKeyIds random) = some s') :
    Inv c s' (n.note c s (.reserve call apiKeys amount excludedKeyIds random) s') := by
  simp only [step] at hstep
  split_ifs at hstep with hcall
  have hbar := h.bar (not_not.mp hcall) fun keyId =>
    n.exhausted keyId || decide (s.clock < n.coolUntil keyId)
  have hfree : ∀ cand ∈ candidates c.keyId s.routing s.clock apiKeys excludedKeyIds,
      Function.update n.barred call (fun keyId => n.exhausted keyId ||
        decide (s.clock < n.coolUntil keyId)) call cand.keyId = false := by
    intro cand hcand
    rw [Function.update_self]
    exact h.not_barred (usable_of_mem_candidates hcand)
  unfold reserveStart at hstep
  dsimp only at hstep
  split_ifs at hstep with hnone hask
  · -- no candidate
    cases hstep
    exact hbar.setReserve fun r hr => by cases hr
  · cases hstep
    refine Inv.send (Inv.setReserve hbar ?_) _
    exact hfree
  · -- Redis is known to be away
    cases hstep
    have hsets := reserveLocally_sets s.routing s.clock random
      (candidates c.keyId s.routing s.clock apiKeys excludedKeyIds) (normalizedAmount amount)
    refine (hbar.setRouting hsets.1 hsets.2).setReserve fun r hr => ?_
    exact hfree _ (reserveLocally_mem hr)

lemma inv_reserveAnswered {s s' : System} {n : Notes} {call : ℕ} {available : Bool} {random : ℚ}
    (h : Inv c s n) (hstep : step c s (.reserveAnswered call available random) = some s') :
    Inv c s' n := by
  simp only [step] at hstep
  split at hstep
  · rename_i script cs amount hcall
    obtain ⟨result, -, rfl⟩ := Option.map_eq_some_iff.mp hstep
    have hsets := reserveResume_sets s.routing s.clock random cs amount result
    refine (h.setRouting hsets.1 hsets.2).setReserve fun r hr => ?_
    exact h.calls call _ hcall _ (reserveResume_mem hr)
  · cases hstep

/-- A response is recorded; a 402 finds no positive balance to be learnt. -/
lemma inv_record {s : System} {n : Notes} (h : Inv c s n) (reservation : CreditReservation)
    (status : ℕ) (actualCreditsUsed : Option ℕ)
    (hpending : status = 402 → ∀ call f, s.refreshes call = some f →
      ¬ f.Pending c reservation.keyId) :
    Inv c (record s reservation status actualCreditsUsed)
      (n.onRecorded s.clock reservation.keyId status) := by
  -- the script that is sent does not matter
  suffices hrouting : Inv c { s with routing :=
      (recordResponse s.routing s.clock reservation status actualCreditsUsed).1 }
      (n.onRecorded s.clock reservation.keyId status) by
    unfold record sendAll
    dsimp only
    cases (recordResponse s.routing s.clock reservation status actualCreditsUsed).2 with
    | none => exact hrouting
    | some script => exact hrouting.send script
  unfold recordResponse Notes.onRecorded
  dsimp only
  split_ifs with hspent hlimited
  · refine ⟨fun k hk => ?_, fun k hk => ?_, fun k hk => ?_, h.calls⟩
    · by_cases hkey : k = reservation.keyId
      · rw [hkey]
        exact Finset.mem_insert_self _ _
      · simp only [Function.update_of_ne hkey] at hk
        exact Finset.mem_insert_of_mem (h.disabled k hk)
    · by_cases hkey : k = reservation.keyId
      · rw [hkey]
        exact hpending hspent
      · simp only [Function.update_of_ne hkey] at hk
        exact h.pending k hk
    · by_cases hkey : k = reservation.keyId
      · rw [hkey]
        exact Or.inr ⟨Function.update_self _ _ _, Function.update_self _ _ _⟩
      · simp only [Function.update_of_ne hkey] at hk ⊢
        exact h.cooling k hk
  · refine ⟨h.disabled, h.pending, fun k hk => ?_, h.calls⟩
    by_cases hkey : k = reservation.keyId
    · subst hkey
      refine Or.inl ⟨s.clock + creditKeyCooldownMs, Function.update_self _ _ _, ?_⟩
      simp [creditKeyCooldownMs]
    · simp only [Function.update_of_ne hkey] at hk ⊢
      exact h.cooling k hk
  all_goals exact h.frame rfl rfl le_rfl rfl fun _ _ _ hf _ => Or.inr hf

/-- The fields learn a balance; a positive one is of a key that is not exhausted. -/
lemma inv_learnBalance {s : System} {n : Notes} (h : Inv c s n) (call : ℕ) (apiKey : String)
    (details : CreditUsageDetails) {r : ℚ} (hr : r > 0 → n.exhausted (c.keyId apiKey) = false) :
    Inv c (learnBalance c s call apiKey details r) n := by
  unfold learnBalance
  dsimp only
  refine Inv.setRefresh ?_ fun k hp => by obtain ⟨-, d, r', hstage, -⟩ := hp; cases hstage
  refine ⟨fun k hk => ?_, h.pending, fun k hk => ?_, h.calls⟩
  · have hold := h.disabled k hk
    -- a key that is revived is not barred
    have hne : r > 0 → k ≠ c.keyId apiKey := by
      rintro hpos rfl
      rw [hr hpos] at hk
      cases hk
    unfold learn
    dsimp only
    split_ifs with hpos
    · exact Finset.mem_erase.mpr ⟨hne hpos, hold⟩
    · exact Finset.mem_erase.mpr ⟨hne hpos, hold⟩
    · exact Finset.mem_insert_of_mem hold
  · refine (h.cooling k hk).imp_left fun ⟨u, hu, hle⟩ => ⟨u, ?_, hle⟩
    unfold learn
    dsimp only
    split_ifs with hpos hexpired
    · -- only a cooldown that is over is dropped
      have hne : k ≠ c.keyId apiKey := by
        rintro rfl
        rw [hu, Option.getD_some] at hexpired
        have hlt : s.clock < n.coolUntil (c.keyId apiKey) := hk
        omega
      exact (Function.update_of_ne hne _ _).trans hu
    · exact hu
    · exact hu

/-- A positive balance is received: the key may be handed out again. -/
lemma inv_onReceived {s : System} {n : Notes} (h : Inv c s n) (keyId : String) (r : ℚ) :
    Inv c s (n.onReceived keyId r) ∧ (r > 0 → (n.onReceived keyId r).exhausted keyId = false) := by
  unfold Notes.onReceived
  by_cases hpos : r > 0
  · rw [if_pos hpos]
    have hsub : ∀ k, Function.update n.exhausted keyId false k = true → n.exhausted k = true := by
      intro k hk
      by_cases hkey : k = keyId
      · rw [hkey, Function.update_self] at hk
        cases hk
      · rwa [Function.update_of_ne hkey] at hk
    refine ⟨⟨fun k hk => h.disabled k (hsub k hk), fun k hk => h.pending k (hsub k hk),
      fun k hk => ?_, h.calls⟩, fun _ => Function.update_self _ _ _⟩
    by_cases hkey : k = keyId
    · subst hkey
      -- a cooldown that a 402 has ended is no longer noted
      cases hspent : n.spent k with
      | true => simp [hspent] at hk
      | false =>
        simp only [hspent] at hk
        rcases h.cooling k hk with hcool | ⟨hs, -⟩
        · exact Or.inl (by simpa [hspent] using hcool)
        · rw [hspent] at hs
          cases hs
    · have hcool : (if n.spent keyId = true then Function.update n.coolUntil keyId 0
          else n.coolUntil) k = n.coolUntil k := by
        split_ifs
        · exact Function.update_of_ne hkey _ _
        · rfl
      simp only [hcool, Function.update_of_ne hkey] at hk ⊢
      exact h.cooling k hk
  · rw [if_neg hpos]
    exact ⟨h, fun hpos' => absurd hpos' hpos⟩

lemma inv_balance {s s' : System} {n : Notes} {call : ℕ} {details : CreditUsageDetails}
    (h : Inv c s n) (hstep : step c s (.balance call details) = some s') :
    Inv c s' (n.note c s (.balance call details) s') := by
  simp only [step] at hstep
  split at hstep
  · rename_i apiKey snapshot hcall
    cases hstep
    unfold receiveBalance
    cases hremaining : details.remainingCredits with
    | none =>
      have hnote : ∀ s', n.note c s (.balance call details) s' = n := fun s' => by
        simp [Notes.note, recorded, received, hcall, hremaining]
      rw [hnote]
      exact h.advance fun _ _ => by simp
    | some r =>
      have hnote : ∀ s', n.note c s (.balance call details) s' =
          n.onReceived (c.keyId apiKey) r := fun s' => by
        simp [Notes.note, recorded, received, hcall, hremaining]
      rw [hnote]
      obtain ⟨hinv, hfree⟩ := inv_onReceived h (c.keyId apiKey) r
      dsimp only
      split_ifs with havailable
      · refine Inv.send (hinv.setRefresh fun k hp => ?_) _
        obtain ⟨rfl, d, r', hstage, hpos⟩ := hp
        obtain ⟨-, rfl⟩ : details = d ∧ r = r' := by simpa using hstage
        exact hfree hpos
      · exact inv_learnBalance hinv call apiKey details hfree
  · cases hstep

/-- Entries of the credit usage cache and of the calls in flight come and go. -/
lemma Inv.startRefresh {s : System} {n : Notes} (h : Inv c s n) (call : ℕ) (apiKey keyId : String) :
    Inv c (startRefresh s call apiKey keyId) n := by
  unfold CloudKeys.startRefresh
  dsimp only
  split_ifs
  · exact h
  · exact h.frame rfl rfl le_rfl rfl fun _ _ _ hf _ => Or.inr hf
  · refine Inv.send ?_ _
    have hcapturing : Inv c (CloudKeys.setRefresh s call ⟨apiKey, .capturing s.sent.length⟩) n :=
      h.advance fun _ _ => by simp
    exact hcapturing.frame rfl rfl le_rfl rfl fun _ _ _ hf _ => Or.inr hf

lemma Inv.endRefresh {s : System} {n : Notes} (h : Inv c s n) (call : ℕ) (apiKey : String)
    (details : CreditUsageDetails) : Inv c (endRefresh s call apiKey details) n := by
  refine h.frame ?_ ?_ ?_ ?_ fun k call' f hf _ => Or.inr ?_
  iterate 4
    unfold CloudKeys.endRefresh
    dsimp only
    split_ifs <;> rfl
  · have hf' : Function.update s.refreshes call none call' = some f := by
      unfold CloudKeys.endRefresh at hf
      dsimp only at hf
      split_ifs at hf <;> exact hf
    by_cases hcall : call' = call
    · subst hcall
      simp at hf'
    · simpa [hcall] using hf'

/-- Every step keeps the invariant, unless it records a 402 while a positive balance is pending. -/
lemma inv_step {s s' : System} {n : Notes} {e : Event} (h : Inv c s n)
    (hstale : NoStaleBalance c s e) (hstep : step c s e = some s') :
    Inv c s' (n.note c s e s') := by
  cases e with
  | tick ms =>
    cases hstep
    exact h.frame rfl rfl (Nat.le_add_right _ _) rfl fun _ _ _ hf _ => Or.inr hf
  | reserve call apiKeys amount excludedKeyIds random => exact inv_reserve h hstep
  | reserveAnswered call available random => exact inv_reserveAnswered h hstep
  | proxied call response =>
    simp only [step] at hstep
    split at hstep
    · rename_i reservation hcall
      have hrecorded : recorded s (.proxied call response) =
          some (reservation.keyId, response.status) := by
        simp [recorded, hcall]
      have hnote : ∀ s', n.note c s (.proxied call response) s' =
          n.onRecorded s.clock reservation.keyId response.status := fun s' => by
        simp [Notes.note, hrecorded]
      rw [hnote]
      split at hstep
      · rename_i actual hrecording
        cases hstep
        exact inv_record h reservation response.status actual fun hstatus =>
          hstale reservation.keyId (hstatus ▸ hrecorded)
      · -- only a response without an error status may go unrecorded
        rename_i hrecording
        cases hstep
        have hlt : response.status < 400 := by
          by_contra hge
          obtain ⟨actual, hactual⟩ := recording_of_error (not_lt.mp hge)
          exact hrecording actual hactual
        have hne : response.status ≠ 402 ∧ response.status ≠ 429 := by omega
        rwa [Notes.onRecorded, if_neg hne.1, if_neg hne.2]
    · cases hstep
  | recordResponse reservation status actual =>
    cases hstep
    exact inv_record h reservation status actual fun hstatus =>
      hstale reservation.keyId (by rw [recorded, hstatus])
  | refresh call apiKey =>
    simp only [step] at hstep
    split_ifs at hstep
    cases hstep
    exact h.startRefresh call apiKey _
  | captured call available =>
    simp only [step] at hstep
    split at hstep
    · obtain ⟨snapshot, -, rfl⟩ := Option.map_eq_some_iff.mp hstep
      exact h.advance fun _ _ => by simp
    · cases hstep
  | balance call details => exact inv_balance h hstep
  | failed call message =>
    simp only [step] at hstep
    split at hstep
    · cases hstep
      exact h.advance fun _ _ => by simp
    · cases hstep
  | reconciled call =>
    simp only [step] at hstep
    split at hstep
    · rename_i apiKey details r hcall
      cases hstep
      refine inv_learnBalance h call apiKey details fun hpos => ?_
      -- an exhausted key has no positive balance pending
      refine Bool.eq_false_of_not_eq_true fun hexhausted => ?_
      exact h.pending _ hexhausted call _ hcall ⟨rfl, details, r, rfl, hpos⟩
    · cases hstep
  | refreshed call =>
    simp only [step] at hstep
    split at hstep
    · cases hstep
      exact h.endRefresh call _ _
    · cases hstep
  | redis script reservationKeys random =>
    simp only [step] at hstep
    split at hstep
    · cases hstep
      exact h.frame rfl rfl le_rfl rfl fun _ _ _ hf _ => Or.inr hf
    · cases hstep
  | elsewhere redis =>
    cases hstep
    exact h.frame rfl rfl le_rfl rfl fun _ _ _ hf _ => Or.inr hf

/-! ## Exhausted and cooling keys are not handed out -/

/-- In every run in which no 402 is recorded while a positive balance of the key is pending, no
call of `reserve` returns a key that was exhausted or cooling down when the call started. -/
theorem exhausted_not_handed_out (c : Config) (redis : CreditLedger.Store String String)
    (es : List Event) (s : System) (n : Notes) (h : Watched c redis es s n)
    (hstale : Along (step c) (NoStaleBalance c) { redis := redis } es) : Respected s n := by
  unfold Watched at h
  have hinv : Inv c s n := by
    refine run_invariant_along (I := fun w => Inv c w.1 w.2) (fun w e w' hw he hstep => ?_)
      (inv_init redis : Inv c { redis := redis } {}) (along_watched {} hstale) h
    obtain ⟨hstep, hnote⟩ := watched_eq_some.mp hstep
    rw [hnote]
    exact inv_step hw he hstep
  intro call reservation hreturned
  exact hinv.calls call _ hreturned reservation rfl

/-- A Redis that has just started. -/
def emptyRedis : CreditLedger.Store String String where
  pool _ := {}
  reservations _ := .empty
  reservation _ := none

def sampleConfig : Config := ⟨id, fun _ => none, 300⟩

/-- A key is refused, and the next call of `reserve` has no key to return. -/
theorem exhausted_not_handed_out_after_refusal : ∃ s n, n.barred 0 "k" = true ∧
    s.reserves 0 = some (.returned none) ∧ Respected s n := by
  refine ⟨_, _, ?_, ?_, exhausted_not_handed_out sampleConfig emptyRedis
    [.recordResponse ⟨⟨"k", "k"⟩, 1, .local, none⟩ 402 none, .reserve 0 ["k"] 1 ∅ 0] _ _ rfl ?_⟩
  · rfl
  · rfl
  · exact ⟨fun _ _ _ _ h => (by cases h), fun _ _ => ⟨fun _ h => (by cases h), fun _ _ => trivial⟩⟩

/-- A key is reserved while Redis is away, and a refresh of it receives a positive balance. -/
def balanceReceived : List Event :=
  [.reserve 0 ["k"] 1 ∅ 0, .reserveAnswered 0 false 0, .refresh 0 "k", .redis 1 [] 0,
    .captured 0 true, .balance 0 { remainingCredits := some 5 }]

/-- Cloud refuses the key before the refresh has reconciled the ledger. -/
def refusedBeforeReconciled : List Event :=
  balanceReceived ++ [.proxied 0 ⟨402, none, true, none⟩, .redis 2 [] 0, .reconciled 0,
    .reserve 1 ["k"] 1 ∅ 0]

/-- The exhausted key is handed out. -/
theorem exhausted_handed_out :
    ¬ ∀ c redis es s n, Watched c redis es s n → Respected s n := by
  intro h
  have hrun : (run (watched (step sampleConfig) (Notes.note sampleConfig))
      ({ redis := emptyRedis }, {}) refusedBeforeReconciled).map
        (fun w => (w.1.reserves 1, w.2.barred 1 "k")) =
      some (some (.returned (some ⟨⟨"k", "k"⟩, 1, .local, none⟩)), true) := by
    decide +kernel
  obtain ⟨⟨s, n⟩, hsn, hval⟩ := Option.map_eq_some_iff.mp hrun
  obtain ⟨hreserves, hbarred⟩ := Prod.mk.inj hval
  have := h sampleConfig emptyRedis refusedBeforeReconciled s n hsn 1 _ hreserves
  rw [show n.barred 1 "k" = true from hbarred] at this
  cases this

/-! ## Stale balances -/

/-- The refresh has issued its request to Cloud, and has not learnt the answer. -/
def Refresh.Issued (f : Refresh) : Prop :=
  (∃ snapshot, f.stage = .fetching snapshot) ∨ ∃ details r, f.stage = .reconciling details r

/-- The step is the last section of a refresh of the key, with this balance. -/
inductive Completes (c : Config) (s : System) (call : ℕ) (keyId : String) (r : ℚ) : Event → Prop
  | reconciled {apiKey details} (hkey : c.keyId apiKey = keyId)
      (hcall : s.refreshes call = some ⟨apiKey, .reconciling details r⟩) :
      Completes c s call keyId r (.reconciled call)
  | balance {apiKey details sequence} (hkey : c.keyId apiKey = keyId)
      (hcall : s.refreshes call = some ⟨apiKey, .fetching ⟨false, sequence⟩⟩)
      (hremaining : details.remainingCredits = some r) :
      Completes c s call keyId r (.balance call details)

/-- A run in which a refresh issues its request, then a 402 on its key is recorded, and then the
refresh completes with a positive balance. -/
structure StaleRefresh (c : Config) (redis : CreditLedger.Store String String) (pre : List Event)
    (refusal : Event) (mid : List Event) (last : Event) (keyId : String) (r : ℚ) (after : System) :
    Prop where
  positive : r > 0
  states : ∃ before refused done call f,
    run (step c) { redis := redis } pre = some before ∧
    before.refreshes call = some f ∧ c.keyId f.apiKey = keyId ∧ f.Issued ∧
    recorded before refusal = some (keyId, 402) ∧ step c before refusal = some refused ∧
    run (step c) refused mid = some done ∧
    Completes c done call keyId r last ∧ step c done last = some after

/-- A positive balance revives the key in the local sets. -/
lemma not_mem_learn {r : Routing} {now : ℤ} {keyId : String} {renewsAt : Option ℤ} {remaining : ℚ}
    (hpos : remaining > 0) : keyId ∉ (learn r now keyId renewsAt remaining).localDisabled := by
  unfold learn
  dsimp only
  rw [if_pos hpos]
  split_ifs <;> exact Finset.notMem_erase _ _

lemma Completes.not_disabled {s s' : System} {call : ℕ} {keyId : String} {r : ℚ} {e : Event}
    (h : Completes c s call keyId r e) (hpos : r > 0) (hstep : step c s e = some s') :
    keyId ∉ s'.routing.localDisabled := by
  cases h with
  | reconciled hkey hcall =>
    simp only [step, hcall, Option.some.injEq] at hstep
    rw [← hstep, ← hkey]
    exact not_mem_learn hpos
  | balance hkey hcall hremaining =>
    simp only [step, hcall, receiveBalance, hremaining, Option.some.injEq] at hstep
    rw [← hstep, ← hkey]
    exact not_mem_learn hpos

/-- Whenever Redis runs the script of a positive balance, it revives the pool too. -/
lemma runScript_reconcile_disabled (redis : CreditLedger.Store String String) (keys : List String)
    (random : ℚ) (keyId : String) {r : ℚ} (hpos : r > 0) (sequence : ℕ) (now : ℤ)
    (renewsAt : Option ℤ) :
    ((runScript c redis keys random
      (.reconcile keyId r sequence now renewsAt)).1.pool keyId).disabled = false := by
  simp [runScript, CreditLedger.reconcile, CreditLedger.reconcileScript, hpos]

/-- A refresh that asked Cloud before Cloud refused the key, and completes with a positive balance
after it, never leaves the key disabled; Redis revives the pool when it runs the script of that
balance. -/
theorem stale_refresh_revives (c : Config) (redis : CreditLedger.Store String String)
    (pre : List Event) (refusal : Event) (mid : List Event) (last : Event) (keyId : String) (r : ℚ)
    (after : System) (h : StaleRefresh c redis pre refusal mid last keyId r after) :
    ¬ (keyId ∈ after.routing.localDisabled ∧ (after.redis.pool keyId).disabled = true) ∧
      ∀ redis keys random sequence now renewsAt, ((runScript c redis keys random
        (.reconcile keyId r sequence now renewsAt)).1.pool keyId).disabled = false := by
  obtain ⟨-, -, done, call, -, -, -, -, -, -, -, -, hcompletes, hstep⟩ := h.states
  refine ⟨fun hkept => hcompletes.not_disabled h.positive hstep hkept.1, ?_⟩
  intro redis keys random sequence now renewsAt
  exact runScript_reconcile_disabled redis keys random keyId h.positive sequence now renewsAt

/-- A refresh waits for the ledger while Cloud refuses the key. -/
def RefusedWhileReconciling (after : System) : Prop :=
  StaleRefresh sampleConfig emptyRedis
    [.refresh 0 "k", .redis 0 [] 0, .captured 0 true, .balance 0 { remainingCredits := some 5 }]
    (.recordResponse ⟨⟨"k", "k"⟩, 1, .redis, some "r"⟩ 402 none) [.redis 2 [] 0, .redis 1 [] 0]
    (.reconciled 0) "k" 5 after

lemma refusedWhileReconciling : ∃ after, RefusedWhileReconciling after :=
  ⟨_, ⟨by norm_num, _, _, _, 0, _, rfl, rfl, rfl, Or.inr ⟨_, _, rfl⟩, rfl, rfl, rfl,
    .reconciled rfl rfl, rfl⟩⟩

theorem stale_refresh_revives_reconciling : ∃ after, RefusedWhileReconciling after ∧
    ¬ ("k" ∈ after.routing.localDisabled ∧ (after.redis.pool "k").disabled = true) := by
  obtain ⟨after, hafter⟩ := refusedWhileReconciling
  exact ⟨after, hafter, (stale_refresh_revives _ _ _ _ _ _ _ _ _ hafter).1⟩

/-- So a stale balance does revive an exhausted key. -/
theorem not_stale_refresh_keeps_disabled : ¬ ∀ c redis pre refusal mid last keyId r after,
    StaleRefresh c redis pre refusal mid last keyId r after →
      keyId ∈ after.routing.localDisabled ∧ (after.redis.pool keyId).disabled = true := by
  intro h
  obtain ⟨after, hafter⟩ := refusedWhileReconciling
  have hkept := h _ _ _ _ _ _ _ _ _ hafter
  obtain ⟨-, -, done, call, -, -, -, -, -, -, -, -, hcompletes, hstep⟩ := hafter.states
  exact hcompletes.not_disabled hafter.positive hstep hkept.1

end CloudKeys
end FirecrawlGateway
