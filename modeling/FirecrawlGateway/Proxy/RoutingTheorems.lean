import FirecrawlGateway.Proxy.ProxyServiceTheorems

/-!
# Routing terminates, and by the rules

The loop of `rotateCloudKeys` ends because every round tries a key id that was not tried before.
With one unit of fuel more than there are configured keys a request is always answered, and more
fuel changes nothing; what it did on the way follows the policy.
-/

namespace FirecrawlGateway
namespace Proxy

open GuardedLog
open CreditRouting (CreditReservation)

variable {env : Environment} {req : Request}

/-! ## Termination -/

/-- How many of the configured keys were not tried. -/
def untried (env : Environment) (req : Request) (run : Run) : ℕ :=
  (configuredIds env req \ run.plan.attemptedCloudKeyIds).card

lemma untried_le (env : Environment) (req : Request) (run : Run) :
    untried env req run ≤ req.entries.length := calc
  untried env req run ≤ (configuredIds env req).card := Finset.card_le_card Finset.sdiff_subset
  _ ≤ (req.entries.map fun e => env.keyId e.key).length := List.toFinset_card_le _
  _ = req.entries.length := List.length_map _

/-- A Cloud call tries one key more. -/
lemma untried_calledCloud {run : Run} {reservation : CreditReservation} {result : ProxyResult}
    (hknown : reservation.keyId ∈ configuredIds env req)
    (hfresh : reservation.keyId ∉ run.plan.attemptedCloudKeyIds) :
    untried env req (run.calledCloud reservation result) < untried env req run := by
  refine Finset.card_lt_card (Finset.ssubset_iff_of_subset ?_ |>.mpr ⟨reservation.keyId, ?_, ?_⟩)
  · exact Finset.sdiff_subset_sdiff (Finset.Subset.refl _) (Finset.subset_insert _ _)
  · exact Finset.mem_sdiff.mpr ⟨hknown, hfresh⟩
  · intro hmem
    exact (Finset.mem_sdiff.mp hmem).2 (Finset.mem_insert_self _ _)

/-- The loop ends within as many rounds as there are untried keys, and one. -/
lemma rotateLoop_terminates {firstStatus fuel attempts quotaAttempts : ℕ} {run : Run}
    {outcome : Outcome}
    (hknown : ∀ key ∈ run.plan.cloudApiKeys, env.keyId key ∈ configuredIds env req)
    (hfuel : untried env req run < fuel) :
    ∃ r, rotateLoop env firstStatus fuel run outcome attempts quotaAttempts = some r := by
  induction fuel generalizing run outcome attempts quotaAttempts with
  | zero => omega
  | succ fuel ih =>
    rcases proxyCloud_cases env run with heq | ⟨reservation, result, heq, -, hkey, hid, hfresh⟩
    · simp only [rotateLoop, heq]
      exact ⟨_, rfl⟩
    · -- whatever the key answers, one key id fewer is left for the rounds to come
      simp only [rotateLoop, heq]
      have hless : untried env req (run.calledCloud reservation result) < untried env req run :=
        untried_calledCloud (hid ▸ hknown _ hkey) hfresh
      have hrest : ∀ outcome attempts quotaAttempts, ∃ r, rotateLoop env firstStatus fuel
          (run.calledCloud reservation result) outcome attempts quotaAttempts = some r :=
        fun _ _ _ => ih hknown (by omega)
      split
      · exact hrest _ _ _
      · split_ifs
        all_goals first | exact hrest _ _ _ | exact ⟨_, rfl⟩

/-- More fuel changes nothing. -/
lemma rotateLoop_mono {firstStatus fuel fuel' attempts quotaAttempts : ℕ} {run : Run}
    {outcome : Outcome} {r : Run × Outcome × Bool} (hle : fuel ≤ fuel')
    (h : rotateLoop env firstStatus fuel run outcome attempts quotaAttempts = some r) :
    rotateLoop env firstStatus fuel' run outcome attempts quotaAttempts = some r := by
  induction fuel generalizing fuel' run outcome attempts quotaAttempts with
  | zero => cases h
  | succ fuel ih =>
    obtain ⟨fuel', rfl⟩ := Nat.exists_eq_add_of_le' (Nat.one_le_of_lt hle)
    have hle' : fuel ≤ fuel' := by omega
    rcases proxyCloud_cases env run with heq | ⟨reservation, result, heq, -⟩
    · simp only [rotateLoop, heq] at h ⊢
      exact h
    · simp only [rotateLoop, heq] at h ⊢
      split at h
      · exact ih hle' h
      · split_ifs at h ⊢
        all_goals first | exact ih hle' h | exact h

lemma rotateCloudKeys_terminates {fuel : ℕ} {run : Run} (h : Sound env req run)
    (outcome : Outcome) (hfuel : req.entries.length < fuel) :
    ∃ r, rotateCloudKeys env fuel run outcome = some r := by
  unfold rotateCloudKeys
  split
  · exact ⟨_, rfl⟩
  · rename_i status _
    by_cases hretry : status ∉ retryableCloudStatus
    · exact ⟨_, if_pos hretry⟩
    · rw [if_neg hretry]
      exact rotateLoop_terminates (fun key hkey => h.known key (List.mem_append_left _ hkey))
        ((untried_le env req run).trans_lt hfuel)

lemma rotateCloudKeys_mono {fuel fuel' : ℕ} {run : Run} {outcome : Outcome}
    {r : Run × Outcome × Bool} (hle : fuel ≤ fuel')
    (h : rotateCloudKeys env fuel run outcome = some r) :
    rotateCloudKeys env fuel' run outcome = some r := by
  unfold rotateCloudKeys at h ⊢
  split at h
  · exact h
  · rename_i status _
    by_cases hretry : status ∉ retryableCloudStatus
    · rwa [if_pos hretry] at h ⊢
    · rw [if_neg hretry] at h ⊢
      exact rotateLoop_mono hle h

lemma fallBack_terminates {fuel : ℕ} {run : Run} {outcome : Outcome}
    (h : Dispatched env req run outcome.result) (hfuel : req.entries.length < fuel) :
    ∃ r, fallBack env fuel req.routeMode run outcome = some r := by
  obtain ⟨⟨rotated, result, outOfQuota⟩, hrotate⟩ :=
    rotateCloudKeys_terminates h.sound outcome hfuel
  obtain ⟨hsound, hanswered, hexhausted⟩ := beforeFallbackKeys_sound h hrotate
  unfold fallBack
  rw [hrotate, Option.bind_eq_bind, Option.bind_some]
  dsimp only
  generalize (if outOfQuota = true then fallBackToSelfHosted env req.routeMode rotated result
    else (rotated, result)) = before at hsound hanswered hexhausted ⊢
  obtain ⟨hsound, -⟩ := fallBackToFallbackKeys_sound hsound hanswered hexhausted
  generalize fallBackToFallbackKeys env req.routeMode before.1 before.2 = after at hsound ⊢
  split_ifs
  · obtain ⟨⟨last, final, quota⟩, hrotate'⟩ :=
      rotateCloudKeys_terminates hsound after.2.1 hfuel
    rw [hrotate']
    exact ⟨_, rfl⟩
  · exact ⟨_, rfl⟩

lemma fallBack_mono {fuel fuel' : ℕ} {routeMode : RouteMode} {run : Run} {outcome : Outcome}
    {r : Run × Outcome} (hle : fuel ≤ fuel') (h : fallBack env fuel routeMode run outcome = some r) :
    fallBack env fuel' routeMode run outcome = some r := by
  unfold fallBack at h ⊢
  obtain ⟨⟨rotated, result, outOfQuota⟩, hrotate, h⟩ := Option.bind_eq_some_iff.mp h
  rw [rotateCloudKeys_mono hle hrotate, Option.bind_eq_bind, Option.bind_some]
  dsimp only at h ⊢
  generalize (if outOfQuota = true then fallBackToSelfHosted env routeMode rotated result
    else (rotated, result)) = before at h ⊢
  generalize fallBackToFallbackKeys env routeMode before.1 before.2 = after at h ⊢
  by_cases hreplaced : after.2.2 = true
  · rw [if_pos hreplaced] at h ⊢
    obtain ⟨last, hrotate', h⟩ := Option.bind_eq_some_iff.mp h
    rw [rotateCloudKeys_mono hle hrotate']
    exact h
  · rwa [if_neg hreplaced] at h ⊢

lemma handlePlan_terminates (env : Environment) {plan : RoutePlan} (hplan : buildPlan req = .ok plan)
    {fuel : ℕ} (hfuel : req.entries.length < fuel) :
    ∃ r, handlePlan env fuel req.routeMode plan = some r := by
  unfold handlePlan
  split
  · exact ⟨_, rfl⟩
  · obtain ⟨-, hok⟩ := dispatch_sound env hplan
    split
    · exact ⟨_, rfl⟩
    · rename_i run outcome heq
      rw [heq] at hok
      obtain ⟨r, hback⟩ := fallBack_terminates (hok outcome rfl) hfuel
      rw [hback]
      exact ⟨_, rfl⟩

lemma handlePlan_mono {fuel fuel' : ℕ} {routeMode : RouteMode} {plan : RoutePlan}
    {r : Run × Except EarlyRejection Outcome} (hle : fuel ≤ fuel')
    (h : handlePlan env fuel routeMode plan = some r) :
    handlePlan env fuel' routeMode plan = some r := by
  unfold handlePlan at h ⊢
  split at h
  · exact h
  · split at h
    · exact h
    · obtain ⟨last, hback, hr⟩ := Option.map_eq_some_iff.mp h
      rw [fallBack_mono hle hback]
      exact congrArg some hr

lemma handle_terminates (env : Environment) {fuel : ℕ} (hfuel : req.entries.length < fuel) :
    ∃ r, handle env fuel req = some r := by
  unfold handle
  split
  · exact ⟨_, rfl⟩
  · rename_i plan hplan
    obtain ⟨r, hhandle⟩ := handlePlan_terminates env hplan hfuel
    rw [hhandle]
    exact ⟨_, rfl⟩

lemma handle_mono {fuel fuel' : ℕ} {r : List Attempt × Except EarlyRejection Outcome}
    (hle : fuel ≤ fuel') (h : handle env fuel req = some r) : handle env fuel' req = some r := by
  unfold handle at h ⊢
  split at h
  · exact h
  · obtain ⟨last, hhandle, hr⟩ := Option.map_eq_some_iff.mp h
    rw [handlePlan_mono hle hhandle]
    exact congrArg some hr

/-! ## The attempts of a request -/

/-- The attempts of a request, in order, follow the routing policy. -/
structure Lawful (env : Environment) (req : Request) (log : List Attempt) : Prop where
  keysOnce : (cloudKeyIds log).Nodup
  selfHostedOnce : (selfHostedResults log).length ≤ 1
  attempts : (log.filter Attempt.reachedUpstream).length ≤ (configuredIds env req).card + 1
  selfHostedOnly : req.routeMode = .selfHostedOnly → cloudKeyIds log = []
  cloudOnly : req.routeMode = .cloudOnly → selfHostedResults log = []
  needsCloud : req.needsCloud.required = true → selfHostedResults log = []
  /-- A Cloud call after a self-hosted one. -/
  afterSelfHosted : ∀ pre post reserve pool reservation result,
    log = pre ++ .cloud reserve pool reservation result :: post →
    ∀ failed ∈ selfHostedResults pre,
      (req.routeMode = .selfHostedFirst ∨ req.routeMode = .hybrid) ∧
      isFallbackEligible failed = true ∧
      req.privacy.hasSensitiveHeaders = false ∧ req.privacy.hasPrivateTargetUrl = false
  /-- The order of the keys in hybrid. -/
  hybridOrder : req.routeMode = .hybrid → keysWithRole req.entries .cloud ≠ [] →
    ∀ pre post reserve pool reservation result,
      log = pre ++ .cloud reserve pool reservation result :: post →
      reservation.key ∈ pool ∧
      (pool = keysWithRole req.entries .cloud ∧ (∀ a ∈ pre, a.fromReserve = false) ∨
        pool = keysWithRole req.entries .fallback ∧ Takeover req pre)

/-- An upstream call is a Cloud call or a self-hosted one. -/
lemma length_reachedUpstream (log : List Attempt) :
    (log.filter Attempt.reachedUpstream).length ≤
      (cloudKeyIds log).length + (selfHostedResults log).length := by
  induction log with
  | nil => exact Nat.zero_le _
  | cons a log ih =>
    unfold cloudKeyIds selfHostedResults at ih ⊢
    cases a with
    | cloud reserve pool reservation result =>
      simp only [List.filter_cons, List.filterMap_cons, Attempt.reachedUpstream,
        Attempt.cloudKeyId, Attempt.selfHostedResult, if_true, List.length_cons]
      omega
    | noReservation pool => exact ih
    | selfHosted reached result =>
      -- an open circuit is a self-hosted attempt that reached nobody, so this is only a bound
      cases reached
      all_goals
        simp only [List.filter_cons, List.filterMap_cons, Attempt.reachedUpstream,
          Attempt.cloudKeyId, Attempt.selfHostedResult, if_true, if_false, Bool.false_eq_true,
          List.length_cons]
        omega

/-- What an allowed Cloud call was checked for. -/
lemma Allowed.cloud {pre : List Attempt} {a : Attempt} (h : Allowed env req pre a) {id : String}
    (hid : a.cloudKeyId = some id) :
    id ∈ configuredIds env req ∧ id ∉ cloudKeyIds pre ∧ req.routeMode ≠ .selfHostedOnly := by
  cases a with
  | cloud reserve pool reservation result =>
    cases hid
    exact ⟨h.known, h.fresh, h.mode⟩
  | _ => cases hid

/-- What an allowed self-hosted call was checked for. -/
lemma Allowed.selfHosted {pre : List Attempt} {a : Attempt} (h : Allowed env req pre a)
    {result : ProxyResult} (hresult : a.selfHostedResult = some result) :
    SelfHostedAllowed req pre := by
  cases a with
  | selfHosted reached result => exact h
  | _ => cases hresult

/-- A guarded log follows the policy. -/
lemma Lawful.of_guarded {log : List Attempt} (h : Guarded (Allowed env req) log) :
    Lawful env req log := by
  have honce : (cloudKeyIds log).Nodup :=
    h.nodup_filterMap fun _ _ _ hok hid => (hok.cloud hid).2.1
  have hknown : ∀ id ∈ cloudKeyIds log, id ∈ configuredIds env req :=
    h.forall_filterMap fun _ _ _ hok hid => (hok.cloud hid).1
  have hself : (selfHostedResults log).length ≤ 1 :=
    h.filterMap_length_le fun _ _ _ hok hresult => (hok.selfHosted hresult).fresh
  have hcloud : (cloudKeyIds log).length ≤ (configuredIds env req).card := by
    rw [← List.toFinset_card_of_nodup honce]
    exact Finset.card_le_card fun id hid => hknown id (List.mem_toFinset.mp hid)
  refine
    { keysOnce := honce
      selfHostedOnce := hself
      attempts := (length_reachedUpstream log).trans (Nat.add_le_add hcloud hself)
      selfHostedOnly := fun hmode =>
        h.filterMap_eq_nil fun _ _ _ hok hid => (hok.cloud hid).2.2 hmode
      cloudOnly := fun hmode =>
        h.filterMap_eq_nil fun _ _ _ hok hresult => (hok.selfHosted hresult).mode hmode
      needsCloud := fun hrequired =>
        h.filterMap_eq_nil fun _ _ _ hok hresult =>
          Bool.false_ne_true ((hok.selfHosted hresult).notRequired.symm.trans hrequired)
      afterSelfHosted := fun pre post reserve pool reservation result heq failed hfailed => ?_
      hybridOrder := fun hmode hroles pre post reserve pool reservation result heq => ?_ }
  · have hok : CloudAllowed env req pre reserve pool reservation := h pre _ post heq
    obtain ⟨heligible, hallowed⟩ := hok.ready failed hfailed
    simp only [isFallbackAllowed, Bool.and_eq_true, Bool.or_eq_true, decide_eq_true_eq,
      Bool.not_eq_true'] at hallowed
    exact ⟨hallowed.1.1, heligible, hallowed.1.2, hallowed.2⟩
  · have hok : CloudAllowed env req pre reserve pool reservation := h pre _ post heq
    refine ⟨hok.key, ?_⟩
    cases hreserve : reserve with
    | false =>
      obtain ⟨hfirst, hpool⟩ := hok.rule.1 hreserve
      exact Or.inl ⟨hpool hmode hroles, hfirst⟩
    | true =>
      obtain ⟨htakeover, hpool⟩ := hok.rule.2 hreserve
      exact Or.inr ⟨hpool, htakeover⟩

/-- Every request past `buildPlan` is answered, whatever the reservations and the upstreams do,
and its attempts follow the policy. -/
theorem handle_lawful (env : Environment) (req : Request) : ∃ log answer,
    (∀ fuel > req.entries.length, handle env fuel req = some (log, answer)) ∧
      Lawful env req log := by
  obtain ⟨⟨log, answer⟩, hhandle⟩ := handle_terminates env (Nat.lt_succ_self req.entries.length)
  exact ⟨log, answer, fun fuel hfuel => handle_mono hfuel hhandle,
    Lawful.of_guarded (handle_guarded hhandle)⟩

/-- Cloud is exhausted, self-hosted unavailable, and a fallback key answers. -/
example : (handle
    { keyId := id
      credits := fun _ => {}
      cloud := fun call => if call = 0 then .response 429 (some []) else .response 200 none
      selfHosted := fun _ => some (.response 503 (some [])) }
    3 ⟨.hybrid, ⟨false, ""⟩, ⟨false, false⟩, [⟨"c", .cloud⟩, ⟨"f", .fallback⟩], 1⟩).map
      (fun r => (cloudKeyIds r.1, (r.1.filter Attempt.reachedUpstream).length)) =
    some (["c", "f"], 3) := by decide +kernel

end Proxy
end FirecrawlGateway
