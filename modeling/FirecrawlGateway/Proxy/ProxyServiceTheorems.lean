import FirecrawlGateway.Proxy.ProxyServiceRules

/-!
# The attempts of one request

Each stage of `handle` keeps the run sound, and leaves an outcome that says where the run
stands. From the soundness of the last run one reads which attempts a request can make.
-/

namespace FirecrawlGateway
namespace Proxy

open GuardedLog
open CreditRouting (CreditReservation)

variable {env : Environment} {req : Request}

/-! ## The plan -/

/-- A plan has the chosen pools and their first backend. -/
lemma buildPlan_ok {plan : RoutePlan} (h : buildPlan req = .ok plan) :
    ∃ initialBackend, plan = startPlan req initialBackend ∧
      (initialBackend = .selfHosted → (keyPools req).initialBackend = .selfHosted) := by
  unfold buildPlan at h
  split at h
  · split_ifs at h
    cases h
    exact ⟨.cloud, rfl, fun hcontra => by cases hcontra⟩
  · rename_i hinitial
    cases h
    exact ⟨.selfHosted, rfl, fun _ => hinitial⟩
  · cases h

lemma keysWithRole_subset (entries : List CloudKeyEntry) (role : CloudKeyRole) :
    keysWithRole entries role ⊆ entries.map CloudKeyEntry.key :=
  List.map_subset _ List.filter_sublist.subset

lemma selectKeyPools_subset (routeMode : RouteMode) (initialBackend : InitialBackend)
    (needsCloud : NeedsCloudResult) (entries : List CloudKeyEntry) :
    (selectKeyPools routeMode initialBackend needsCloud entries).cloudApiKeys ++
      (selectKeyPools routeMode initialBackend needsCloud entries).fallbackApiKeys ⊆
      entries.map CloudKeyEntry.key := by
  unfold selectKeyPools
  dsimp only
  split_ifs
  · rw [List.append_nil]
    exact List.Subset.refl _
  · exact List.append_subset.mpr ⟨keysWithRole_subset _ _, keysWithRole_subset _ _⟩
  all_goals
    rw [List.append_nil]
    exact keysWithRole_subset _ _

lemma keyPools_known {key : String}
    (h : key ∈ (keyPools req).cloudApiKeys ++ (keyPools req).fallbackApiKeys) :
    env.keyId key ∈ configuredIds env req := by
  have hsub := selectKeyPools_subset req.routeMode
    (chooseInitialBackend req.routeMode req.needsCloud) req.needsCloud
    (if mayUseCloudKeys (chooseInitialBackend req.routeMode req.needsCloud) req.routeMode
      req.privacy then req.entries else []) h
  unfold configuredIds
  rw [List.mem_toFinset]
  obtain ⟨entry, hentry, rfl⟩ := List.mem_map.mp hsub
  refine List.mem_map.mpr ⟨entry, ?_, rfl⟩
  split_ifs at hentry
  · exact hentry
  · exact absurd hentry List.not_mem_nil

/-- Outside hybrid there is one pool, and none where Cloud is out of the question. -/
lemma keyPools_of_ne_hybrid (h : req.routeMode ≠ .hybrid) :
    (keyPools req).fallbackApiKeys = [] ∧
      (keyPools req).initialBackend = chooseInitialBackend req.routeMode req.needsCloud ∧
      (req.routeMode = .selfHostedOnly → (keyPools req).cloudApiKeys = []) := by
  unfold keyPools selectKeyPools
  dsimp only
  rw [if_pos h]
  refine ⟨rfl, rfl, fun hmode => ?_⟩
  have hnot : mayUseCloudKeys (chooseInitialBackend req.routeMode req.needsCloud) req.routeMode
      req.privacy = false := by
    unfold mayUseCloudKeys chooseInitialBackend isFallbackAllowed
    rw [hmode]
    cases req.needsCloud.required <;> simp
  rw [hnot]
  rfl

/-- In hybrid the cloud-role keys come first, if there are any. -/
lemma keyPools_hybrid (h : req.routeMode = .hybrid) :
    (keysWithRole req.entries .cloud ≠ [] ∧ keyPools req =
      ⟨.cloud, keysWithRole req.entries .cloud, keysWithRole req.entries .fallback⟩) ∨
    (keysWithRole req.entries .cloud = [] ∧ keyPools req =
      ⟨if req.needsCloud.required then .cloud else .selfHosted,
        keysWithRole req.entries .fallback, []⟩) := by
  unfold keyPools selectKeyPools chooseInitialBackend mayUseCloudKeys
  rw [h]
  by_cases hroles : keysWithRole req.entries .cloud = []
  · exact Or.inr ⟨hroles, by simp [hroles]⟩
  · exact Or.inl ⟨hroles, by simp [hroles]⟩

/-- A run starts sound. -/
lemma sound_start {plan : RoutePlan} (h : buildPlan req = .ok plan) :
    Sound env req { plan := plan } := by
  obtain ⟨initialBackend, rfl, -⟩ := buildPlan_ok h
  refine
    { guarded := guarded_nil
      needsCloud := rfl
      privacy := rfl
      attempted := fun id => by simp [cloudKeyIds, startPlan]
      selfHosted := fun _ => rfl
      known := fun key hkey => keyPools_known hkey
      mode := fun hne hmode => ?_
      pools :=
        { first := fun _ => ⟨fun _ ha => absurd ha List.not_mem_nil, fun hmode hroles => ?_⟩
          taken := fun htaken => by cases htaken
          left := fun hleft => ?_ } }
  · -- in self-hosted-only there are no Cloud keys
    exact hne ((keyPools_of_ne_hybrid (by rw [hmode]; decide)).2.2 hmode)
  · -- in hybrid the first pool is the cloud-role keys
    rcases keyPools_hybrid hmode with ⟨-, hpools⟩ | ⟨hnone, -⟩
    · rw [startPlan, hpools]
    · exact absurd hnone hroles
  · -- only hybrid with a cloud-role key holds keys back
    by_cases hmode : req.routeMode = .hybrid
    · rcases keyPools_hybrid hmode with ⟨hroles, hpools⟩ | ⟨-, hpools⟩
      · exact ⟨hmode, hroles, by rw [startPlan, hpools]⟩
      · exact absurd (by rw [startPlan, hpools]) hleft
    · exact absurd (keyPools_of_ne_hybrid hmode).1 hleft

/-- A request that starts on self-hosted may use it, and has no reserve. -/
lemma start_selfHosted {plan : RoutePlan} (h : buildPlan req = .ok plan)
    (hinitial : plan.initialBackend = .selfHosted) :
    SelfHostedAllowed req [] ∧ plan.fallbackApiKeys = [] := by
  obtain ⟨initialBackend, rfl, hback⟩ := buildPlan_ok h
  have hpools := hback hinitial
  by_cases hmode : req.routeMode = .hybrid
  · rcases keyPools_hybrid hmode with ⟨-, heq⟩ | ⟨-, heq⟩
    · rw [heq] at hpools
      cases hpools
    · rw [heq] at hpools
      refine ⟨⟨rfl, by rw [hmode]; decide, ?_⟩, by rw [startPlan, heq]⟩
      dsimp only at hpools
      split_ifs at hpools with hrequired
      exact Bool.eq_false_of_not_eq_true hrequired
  · obtain ⟨hnone, hfirst, -⟩ := keyPools_of_ne_hybrid hmode
    rw [hfirst] at hpools
    refine ⟨⟨rfl, fun hcloud => ?_, ?_⟩, hnone⟩
    · rw [hcloud] at hpools
      cases hpools
    · by_contra hrequired
      rw [Bool.not_eq_false] at hrequired
      unfold chooseInitialBackend at hpools
      cases hr : req.routeMode <;> simp [hr, hrequired] at hpools

/-! ## Where an outcome stands -/

/-- The active pool was found to have no key left. -/
def Exhausted (run : Run) : Prop := .noReservation run.plan.cloudApiKeys ∈ run.log

/-- The outcome is the last answer of its backend. -/
structure Answered (req : Request) (run : Run) (result : ProxyResult) : Prop where
  cloud : result.backend = .cloud → CloudReady req run.log ∧
    (run.reserveTaken = false → (firstPoolResults run.log).getLast? = some result)
  selfHosted : result.backend = .selfHosted → result ∈ selfHostedResults run.log ∧
    ∀ failed ∈ selfHostedResults run.log, failed = result

lemma cloudReady_nil {log : List Attempt} (h : selfHostedResults log = []) : CloudReady req log := by
  intro failed hfailed
  rw [h] at hfailed
  exact absurd hfailed List.not_mem_nil

/-- Looking for a key calls nobody. -/
lemma Answered.noReservation {run : Run} {result : ProxyResult} (h : Answered req run result) :
    Answered req run.noReservation result := by
  have hself : selfHostedResults run.noReservation.log = selfHostedResults run.log := by
    simp [Run.noReservation, Attempt.selfHostedResult]
  have hfirst : firstPoolResults run.noReservation.log = firstPoolResults run.log := by
    simp [Run.noReservation, Attempt.firstPoolResult]
  constructor
  · intro hb
    rw [CloudReady, hself, hfirst]
    exact h.cloud hb
  · intro hb
    rw [hself]
    exact h.selfHosted hb

/-- What Cloud answers is the new outcome. -/
lemma answered_calledCloud {run : Run} (hready : CloudReady req run.log)
    (reservation : CreditReservation) {result : ProxyResult} (hb : result.backend = .cloud) :
    Answered req (run.calledCloud reservation result) result := by
  have hself : selfHostedResults (run.calledCloud reservation result).log =
      selfHostedResults run.log := by
    simp [Run.calledCloud, Attempt.selfHostedResult]
  constructor
  · intro _
    rw [CloudReady, hself]
    refine ⟨hready, fun htaken => ?_⟩
    have htaken' : run.reserveTaken = false := htaken
    rw [Run.calledCloud, firstPoolResults_snoc, htaken']
    exact List.getLast?_concat
  · intro hcontra
    rw [hb] at hcontra
    cases hcontra

/-- What self-hosted answers is the new outcome. -/
lemma answered_calledSelfHosted {run : Run} (hfresh : selfHostedResults run.log = [])
    (reached : Bool) {result : ProxyResult} (hb : result.backend = .selfHosted) :
    Answered req (run.calledSelfHosted reached result) result := by
  have hself : selfHostedResults (run.calledSelfHosted reached result).log = [result] := by
    simp [Run.calledSelfHosted, Attempt.selfHostedResult, hfresh]
  constructor
  · intro hcontra
    rw [hb] at hcontra
    cases hcontra
  · intro _
    rw [hself]
    exact ⟨List.mem_singleton_self _, fun failed hfailed => List.mem_singleton.mp hfailed⟩

lemma exhausted_noReservation (run : Run) : Exhausted run.noReservation :=
  List.mem_append_right _ (List.mem_singleton_self _)

lemma Exhausted.calledSelfHosted {run : Run} (h : Exhausted run) (reached : Bool)
    (result : ProxyResult) : Exhausted (run.calledSelfHosted reached result) :=
  List.mem_append_left _ h

/-! ## `dispatch` -/

/-- The state `dispatch` leaves: self-hosted answers before the fallback keys only after the
cloud-role keys are exhausted. -/
structure Dispatched (env : Environment) (req : Request) (run : Run) (result : ProxyResult) :
    Prop where
  sound : Sound env req run
  answered : Answered req run result
  exhausted : result.backend = .selfHosted → run.plan.fallbackApiKeys ≠ [] → Exhausted run

/-- An answer of Cloud is one `dispatch` may end with. -/
lemma dispatched_calledCloud {run : Run} (h : Sound env req run) (hready : CloudReady req run.log)
    {reservation : CreditReservation} {result : ProxyResult} (hb : result.backend = .cloud)
    (hkey : reservation.key ∈ run.plan.cloudApiKeys)
    (hid : reservation.keyId = env.keyId reservation.key)
    (hfresh : reservation.keyId ∉ run.plan.attemptedCloudKeyIds) :
    Dispatched env req (run.calledCloud reservation result) result where
  sound := h.calledCloud hready result hkey hid hfresh
  answered := answered_calledCloud hready reservation hb
  exhausted hcontra := by
    rw [hb] at hcontra
    cases hcontra

lemma dispatchReserve_sound {run : Run} (h : Sound env req run) (hexhausted : Exhausted run)
    (hrequired : run.plan.fallbackApiKeys ≠ [] → req.needsCloud.required = true)
    (hfirst : firstPoolResults run.log = []) (hself : selfHostedResults run.log = []) :
    Sound env req (dispatchReserve env run).1 ∧
      ∀ outcome, (dispatchReserve env run).2 = .ok outcome →
        Dispatched env req (dispatchReserve env run).1 outcome.result := by
  by_cases hleft : run.plan.fallbackApiKeys = []
  · have htake : takeFallbackKeys run = (run, false) := if_pos hleft
    unfold dispatchReserve
    rw [htake]
    exact ⟨h, fun outcome hok => by cases hok⟩
  · have htaken : Sound env req (takeFallbackKeys run).1 :=
      h.takeFallbackKeys hleft hexhausted (Or.inl ⟨hrequired hleft, by simp [hfirst]⟩)
    have htake : takeFallbackKeys run = ((takeFallbackKeys run).1, true) := by
      unfold takeFallbackKeys
      rw [if_neg hleft]
    have hready : CloudReady req (takeFallbackKeys run).1.log := by
      rw [takeFallbackKeys_log]
      exact cloudReady_nil hself
    unfold dispatchReserve
    rw [htake]
    dsimp only
    generalize (takeFallbackKeys run).1 = taken at htaken hready
    rcases proxyCloud_cases env taken with heq | ⟨reservation, result, heq, hb, hkey, hid, hfresh⟩
    · rw [heq]
      exact ⟨htaken.noReservation, fun outcome hok => by cases hok⟩
    · rw [heq]
      have hdispatched := dispatched_calledCloud htaken hready hb hkey hid hfresh
      refine ⟨hdispatched.sound, fun outcome hok => ?_⟩
      cases hok
      exact hdispatched

/-- Where a Cloud quota lets self-hosted answer, it may. -/
lemma selfHostedAllowed_of_quota {log : List Attempt} (hfresh : selfHostedResults log = [])
    (h : isCloudQuotaFallbackAllowed req.routeMode req.needsCloud = true) :
    SelfHostedAllowed req log := by
  unfold isCloudQuotaFallbackAllowed at h
  rw [Bool.and_eq_true, Bool.not_eq_true'] at h
  refine ⟨hfresh, fun hmode => ?_, h.2⟩
  rw [hmode] at h
  exact absurd h.1 (by decide)

lemma dispatchCloud_sound {plan : RoutePlan} (h : Sound env req { plan := plan }) :
    let d := dispatchCloud env req.routeMode { plan := plan }
    Sound env req d.1 ∧ ∀ outcome, d.2 = .ok outcome → Dispatched env req d.1 outcome.result := by
  have hready : CloudReady req ({ plan := plan } : Run).log := cloudReady_nil rfl
  unfold dispatchCloud
  rcases proxyCloud_cases env { plan := plan } with
    heq | ⟨reservation, result, heq, hb, hkey, hid, hfresh⟩
  · rw [heq]
    dsimp only
    have hnone := h.noReservation
    have hexhausted := exhausted_noReservation { plan := plan }
    split_ifs with hquota
    · -- held-back keys mean hybrid, where only a Cloud-required request is kept from self-hosted
      refine dispatchReserve_sound hnone hexhausted (fun hleft => ?_) rfl rfl
      have hmode := (hnone.pools.left hleft).1
      rw [hnone.needsCloud, hmode] at hquota
      simpa [isCloudQuotaFallbackAllowed] using hquota
    · rw [hnone.needsCloud, Bool.not_eq_true', Bool.not_eq_false] at hquota
      obtain ⟨reached, result, heq', hb⟩ :=
        proxySelfHosted_cases env ({ plan := plan } : Run).noReservation
      rw [heq']
      have hsound := hnone.calledSelfHosted (selfHostedAllowed_of_quota rfl hquota) reached result
      refine ⟨hsound, fun outcome hok => ?_⟩
      cases hok
      exact ⟨hsound, answered_calledSelfHosted rfl reached hb, fun _ _ =>
        hexhausted.calledSelfHosted reached result⟩
  · rw [heq]
    have hdispatched := dispatched_calledCloud h hready hb hkey hid hfresh
    refine ⟨hdispatched.sound, fun outcome hok => ?_⟩
    cases hok
    exact hdispatched

lemma dispatchSelfHosted_sound {plan : RoutePlan} (h : Sound env req { plan := plan })
    (hallowed : SelfHostedAllowed req []) (hleft : plan.fallbackApiKeys = []) :
    let d := dispatchSelfHosted env req.routeMode { plan := plan }
    Sound env req d.1 ∧ ∀ outcome, d.2 = .ok outcome → Dispatched env req d.1 outcome.result := by
  obtain ⟨reached, failed, heq, hb⟩ := proxySelfHosted_cases env { plan := plan }
  unfold dispatchSelfHosted
  rw [heq]
  dsimp only
  have hcalled := h.calledSelfHosted hallowed reached failed
  have hanswered : Answered req (({ plan := plan } : Run).calledSelfHosted reached failed) failed :=
    answered_calledSelfHosted rfl reached hb
  generalize hrun : ({ plan := plan } : Run).calledSelfHosted reached failed = run at *
  have hleft' : run.plan.fallbackApiKeys = [] := hrun ▸ hleft
  split_ifs with hfallback
  · have hready : CloudReady req run.log := by
      intro other hother
      rw [(hanswered.selfHosted hb).2 other hother]
      rw [hcalled.privacy] at hfallback
      exact hfallback.2
    rcases proxyCloud_cases env run with
      heq' | ⟨reservation, result, heq', hb', hkey, hid, hfresh⟩
    · rw [heq']
      refine ⟨hcalled.noReservation, fun outcome hok => ?_⟩
      cases hok
      exact ⟨hcalled.noReservation, hanswered.noReservation, fun _ hne => absurd hleft' hne⟩
    · rw [heq']
      have hdispatched := dispatched_calledCloud hcalled hready hb' hkey hid hfresh
      refine ⟨hdispatched.sound, fun outcome hok => ?_⟩
      cases hok
      exact hdispatched
  · refine ⟨hcalled, fun outcome hok => ?_⟩
    cases hok
    exact ⟨hcalled, hanswered, fun _ hne => absurd hleft' hne⟩

lemma dispatch_sound (env : Environment) {plan : RoutePlan} (h : buildPlan req = .ok plan) :
    let d := dispatch env req.routeMode { plan := plan }
    Sound env req d.1 ∧ ∀ outcome, d.2 = .ok outcome → Dispatched env req d.1 outcome.result := by
  have hstart : Sound env req { plan := plan } := sound_start h
  unfold dispatch
  cases hinitial : plan.initialBackend with
  | cloud => exact dispatchCloud_sound hstart
  | selfHosted =>
    obtain ⟨hallowed, hleft⟩ := start_selfHosted h hinitial
    exact dispatchSelfHosted_sound hstart hallowed hleft

/-! ## `rotateCloudKeys` -/

lemma retryable_of_capacity {status : ℕ} (h : status ∈ cloudCapacityStatus) :
    status ∈ retryableCloudStatus := by
  simp only [cloudCapacityStatus, retryableCloudStatus, List.mem_cons, List.not_mem_nil,
    or_false] at h ⊢
  omega

/-- The status of what Cloud answered, when it answered. -/
lemma cloudStatus_of_cloud {result : ProxyResult} (h : result.backend = .cloud) :
    cloudStatus result = responseStatus result := if_pos h

/-- The state after the Cloud keys were tried: a quota error is the last word of an exhausted
pool. -/
structure Rotated (env : Environment) (req : Request) (run : Run) (result : ProxyResult)
    (outOfQuota : Bool) : Prop where
  sound : Sound env req run
  answered : Answered req run result
  capacity : outOfCapacity result = true → Exhausted run
  quota : outOfQuota = true → Exhausted run

/-- The loop ends with Cloud's answer; it ends out of quota only with an exhausted pool. -/
lemma rotateLoop_sound {firstStatus fuel attempts quotaAttempts : ℕ} {run run' : Run}
    {outcome outcome' : Outcome} {outOfQuota : Bool} (h : Sound env req run)
    (hanswered : Answered req run outcome.result) (hb : outcome.result.backend = .cloud)
    (hquota : quotaAttempts ≤ attempts)
    (hloop : rotateLoop env firstStatus fuel run outcome attempts quotaAttempts =
      some (run', outcome', outOfQuota)) :
    Rotated env req run' outcome'.result outOfQuota ∧ outcome'.result.backend = .cloud := by
  induction fuel generalizing run outcome attempts quotaAttempts with
  | zero => cases hloop
  | succ fuel ih =>
    -- every round ends with an answer of Cloud, so Cloud stays allowed for the next one
    have hready := (hanswered.cloud hb).1
    rcases proxyCloud_cases env run with heq | ⟨reservation, result, heq, hb', hkey, hid, hfresh⟩
    · simp only [rotateLoop, heq] at hloop
      cases hloop
      have hexhausted := exhausted_noReservation run
      exact ⟨⟨h.noReservation, hanswered.noReservation, fun _ => hexhausted, fun _ => hexhausted⟩,
        hb⟩
    · simp only [rotateLoop, heq] at hloop
      have hsound := h.calledCloud hready result hkey hid hfresh
      have hnext := answered_calledCloud hready reservation hb'
      split at hloop
      · exact ih hsound hnext hb' (by omega) hloop
      · rename_i status hstatus
        split_ifs at hloop with hretry hcapacity hcapacity
        · exact ih hsound hnext hb' (by omega) hloop
        · exact ih hsound hnext hb' (by omega) hloop
        · -- a quota error never ends the loop
          exact absurd (retryable_of_capacity hcapacity) hretry
        · -- a key that works ends the loop, and is no quota error
          cases hloop
          refine ⟨⟨hsound, hnext, fun hout => ?_, fun hall => ?_⟩, hb'⟩
          · unfold outOfCapacity at hout
            rw [cloudStatus_of_cloud hb', hstatus] at hout
            exact absurd (of_decide_eq_true hout) hcapacity
          · have := of_decide_eq_true hall
            omega

lemma rotateCloudKeys_sound {fuel : ℕ} {run run' : Run} {outcome outcome' : Outcome}
    {outOfQuota : Bool} (h : Sound env req run) (hanswered : Answered req run outcome.result)
    (hrotate : rotateCloudKeys env fuel run outcome = some (run', outcome', outOfQuota)) :
    Rotated env req run' outcome'.result outOfQuota ∧
      (outcome'.result.backend = .selfHosted → run' = run ∧ outcome' = outcome) := by
  unfold rotateCloudKeys at hrotate
  split at hrotate
  · rename_i hstatus
    cases hrotate
    refine ⟨⟨h, hanswered, fun hout => ?_, fun hfalse => by cases hfalse⟩, fun _ => ⟨rfl, rfl⟩⟩
    unfold outOfCapacity at hout
    rw [hstatus] at hout
    cases hout
  · rename_i status hstatus
    dsimp only at hrotate
    have hb : outcome.result.backend = .cloud := by
      by_contra hne
      rw [cloudStatus, if_neg hne] at hstatus
      cases hstatus
    by_cases hretry : status ∉ retryableCloudStatus
    · rw [if_pos hretry] at hrotate
      cases hrotate
      refine ⟨⟨h, hanswered, fun hout => ?_, fun hfalse => by cases hfalse⟩, fun _ => ⟨rfl, rfl⟩⟩
      unfold outOfCapacity at hout
      rw [hstatus] at hout
      exact absurd (retryable_of_capacity (of_decide_eq_true hout)) hretry
    · rw [if_neg hretry] at hrotate
      have hle : (if status ∈ cloudCapacityStatus then 1 else 0) ≤ 1 := by split_ifs <;> omega
      obtain ⟨hrotated, hb'⟩ := rotateLoop_sound h hanswered hb hle hrotate
      refine ⟨hrotated, fun hcontra => ?_⟩
      rw [hb'] at hcontra
      cases hcontra

/-! ## Falling back -/

lemma fallBackToSelfHosted_sound {run : Run} {outcome : Outcome} (h : Sound env req run)
    (hanswered : Answered req run outcome.result) (hexhausted : Exhausted run) :
    let f := fallBackToSelfHosted env req.routeMode run outcome
    Sound env req f.1 ∧ Answered req f.1 f.2.result ∧ Exhausted f.1 := by
  unfold fallBackToSelfHosted
  split_ifs with hstay
  · exact ⟨h, hanswered, hexhausted⟩
  · simp only [Bool.or_eq_true, not_or, Bool.not_eq_true, Bool.not_eq_false'] at hstay
    obtain ⟨⟨hattempted, -⟩, hquota⟩ := hstay
    rw [h.needsCloud] at hquota
    have hfresh := h.selfHosted hattempted
    obtain ⟨reached, result, heq, hb⟩ := proxySelfHosted_cases env run
    rw [heq]
    exact ⟨h.calledSelfHosted (selfHostedAllowed_of_quota hfresh hquota) reached result,
      answered_calledSelfHosted hfresh reached hb, hexhausted.calledSelfHosted reached result⟩

lemma outOfCapacity_backend {result : ProxyResult} (h : outOfCapacity result = true) :
    result.backend = .cloud := by
  by_contra hne
  rw [outOfCapacity, cloudStatus, if_neg hne] at h
  cases h

/-- The fallback keys take over only from an exhausted pool. -/
lemma takeover_sound {run : Run} {result : ProxyResult} (h : Sound env req run)
    (hanswered : Answered req run result) (hleft : run.plan.fallbackApiKeys ≠ [])
    (hexhausted : result.backend = .selfHosted ∨ outOfCapacity result = true → Exhausted run)
    (hfailed : cloudOutOfQuota run.plan result = true ∨
      selfHostedFailed req.routeMode run.plan result = true) :
    Sound env req (takeFallbackKeys run).1 ∧ CloudReady req (takeFallbackKeys run).1.log := by
  have hfirst := h.pools.not_taken hleft
  rw [takeFallbackKeys_log]
  rcases hfailed with hquota | hself
  · -- a Cloud-required request whose last Cloud answer was a quota error
    obtain ⟨hrequired, hout⟩ := Bool.and_eq_true_iff.mp hquota
    rw [h.needsCloud] at hrequired
    obtain ⟨hready, hlast⟩ := hanswered.cloud (outOfCapacity_backend hout)
    refine ⟨h.takeFallbackKeys hleft (hexhausted (Or.inr hout)) (Or.inl ⟨hrequired, ?_⟩), hready⟩
    intro last hmem
    rw [hlast hfirst] at hmem
    exact Option.mem_some.mp hmem ▸ hout
  · -- self-hosted failed, and the one self-hosted answer is this result
    simp only [selfHostedFailed, Bool.and_eq_true, decide_eq_true_eq] at hself
    obtain ⟨⟨hb, heligible⟩, hallowed⟩ := hself
    rw [h.privacy] at hallowed
    obtain ⟨hmem, hall⟩ := hanswered.selfHosted hb
    refine ⟨h.takeFallbackKeys hleft (hexhausted (Or.inl hb))
      (Or.inr ⟨result, hmem, heligible, hallowed⟩), fun failed hfailed => ?_⟩
    rw [hall failed hfailed]
    exact ⟨heligible, hallowed⟩

lemma fallBackToFallbackKeys_sound {run : Run} {outcome : Outcome} (h : Sound env req run)
    (hanswered : Answered req run outcome.result)
    (hexhausted : run.plan.fallbackApiKeys ≠ [] →
      outcome.result.backend = .selfHosted ∨ outOfCapacity outcome.result = true → Exhausted run) :
    let f := fallBackToFallbackKeys env req.routeMode run outcome
    Sound env req f.1 ∧ (f.2.2 = true → Answered req f.1 f.2.1.result) := by
  unfold fallBackToFallbackKeys
  dsimp only
  by_cases hstay : run.plan.fallbackApiKeys = [] ∨ (!cloudOutOfQuota run.plan outcome.result &&
      !selfHostedFailed req.routeMode run.plan outcome.result) = true
  · rw [if_pos hstay]
    exact ⟨h, fun hfalse => by cases hfalse⟩
  · rw [if_neg hstay]
    obtain ⟨hleft, hfailed⟩ := not_or.mp hstay
    rw [Bool.and_eq_true, Bool.not_eq_true', Bool.not_eq_true', not_and_or, Bool.not_eq_false,
      Bool.not_eq_false] at hfailed
    obtain ⟨htaken, hready⟩ := takeover_sound h hanswered hleft (hexhausted hleft) hfailed
    generalize (takeFallbackKeys run).1 = taken at htaken hready
    rcases proxyCloud_cases env taken with heq | ⟨reservation, result, heq, hb, hkey, hid, hfresh⟩
    · rw [heq]
      exact ⟨htaken.noReservation, fun hfalse => by cases hfalse⟩
    · rw [heq]
      exact ⟨htaken.calledCloud hready result hkey hid hfresh,
        fun _ => answered_calledCloud hready reservation hb⟩

/-! ## `handle` -/

/-- Before the fallback keys are considered, the first pool is exhausted or Cloud is answering. -/
lemma beforeFallbackKeys_sound {fuel : ℕ} {run rotated : Run} {outcome result : Outcome}
    {outOfQuota : Bool} (h : Dispatched env req run outcome.result)
    (hrotate : rotateCloudKeys env fuel run outcome = some (rotated, result, outOfQuota)) :
    let f := if outOfQuota = true then fallBackToSelfHosted env req.routeMode rotated result
      else (rotated, result)
    Sound env req f.1 ∧ Answered req f.1 f.2.result ∧ (f.1.plan.fallbackApiKeys ≠ [] →
      f.2.result.backend = .selfHosted ∨ outOfCapacity f.2.result = true → Exhausted f.1) := by
  obtain ⟨hrotated, hsame⟩ := rotateCloudKeys_sound h.sound h.answered hrotate
  dsimp only
  split_ifs with hquota
  · obtain ⟨hsound, hanswered, hexhausted⟩ := fallBackToSelfHosted_sound hrotated.sound
      hrotated.answered (hrotated.quota hquota)
    exact ⟨hsound, hanswered, fun _ _ => hexhausted⟩
  · refine ⟨hrotated.sound, hrotated.answered, fun hleft hlast => ?_⟩
    rcases hlast with hb | hout
    · -- a self-hosted outcome comes straight from `dispatch`
      obtain ⟨rfl, rfl⟩ := hsame hb
      exact h.exhausted hb hleft
    · exact hrotated.capacity hout

lemma fallBack_sound {fuel : ℕ} {run run' : Run} {outcome outcome' : Outcome}
    (h : Dispatched env req run outcome.result)
    (hback : fallBack env fuel req.routeMode run outcome = some (run', outcome')) :
    Sound env req run' := by
  unfold fallBack at hback
  obtain ⟨⟨rotated, result, outOfQuota⟩, hrotate, hback⟩ := Option.bind_eq_some_iff.mp hback
  dsimp only at hback
  obtain ⟨hsound, hanswered, hexhausted⟩ := beforeFallbackKeys_sound h hrotate
  generalize (if outOfQuota = true then fallBackToSelfHosted env req.routeMode rotated result
    else (rotated, result)) = before at hsound hanswered hexhausted hback
  obtain ⟨hsound, hanswered⟩ := fallBackToFallbackKeys_sound hsound hanswered hexhausted
  generalize fallBackToFallbackKeys env req.routeMode before.1 before.2 = after
    at hsound hanswered hback
  split_ifs at hback with hreplaced
  · obtain ⟨⟨last, final, _⟩, hrotate', hback⟩ := Option.bind_eq_some_iff.mp hback
    cases hback
    exact (rotateCloudKeys_sound hsound (hanswered hreplaced) hrotate').1.sound
  · cases hback
    exact hsound

lemma handlePlan_sound {fuel : ℕ} {plan : RoutePlan} (h : buildPlan req = .ok plan) {run : Run}
    {answer : Except EarlyRejection Outcome}
    (hhandle : handlePlan env fuel req.routeMode plan = some (run, answer)) :
    Sound env req run := by
  unfold handlePlan at hhandle
  split at hhandle
  · cases hhandle
    exact sound_start h
  · obtain ⟨hsound, hok⟩ := dispatch_sound env h
    split at hhandle
    · rename_i dispatched rejection heq
      cases hhandle
      rwa [heq] at hsound
    · rename_i dispatched outcome heq
      obtain ⟨⟨run', outcome'⟩, hback, hsome⟩ := Option.map_eq_some_iff.mp hhandle
      cases hsome
      rw [heq] at hok
      exact fallBack_sound (hok outcome rfl) hback

/-- Every attempt of a request was allowed when it was made. -/
theorem handle_guarded {fuel : ℕ} {log : List Attempt} {answer : Except EarlyRejection Outcome}
    (h : handle env fuel req = some (log, answer)) : Guarded (Allowed env req) log := by
  unfold handle at h
  split at h
  · cases h
    exact guarded_nil
  · rename_i plan hplan
    obtain ⟨⟨run, answer'⟩, hhandle, hsome⟩ := Option.map_eq_some_iff.mp h
    cases hsome
    exact (handlePlan_sound hplan hhandle).guarded

end Proxy
end FirecrawlGateway
