import FirecrawlGateway.Credits.CreditRoutingTheorems
import FirecrawlGateway.Lib.GuardedLog
import FirecrawlGateway.Proxy.ProxyService

/-!
# What an attempt needs

`Allowed` states, for each kind of attempt, what the attempts before it and the request must
have been like. `Sound` ties the mutable fields of the plan to the log, so that every upstream
call of a sound run at the right moment is allowed and leaves the run sound.
-/

namespace FirecrawlGateway
namespace Proxy

open GuardedLog
open CreditRouting (CreditReservation reserve_mem)

/-! ## Reading the log -/

/-- The id of the key a Cloud call used. -/
def Attempt.cloudKeyId : Attempt → Option String
  | .cloud _ _ reservation _ => some reservation.keyId
  | _ => none

/-- What self-hosted answered, or the open circuit in its place. -/
def Attempt.selfHostedResult : Attempt → Option ProxyResult
  | .selfHosted _ result => some result
  | _ => none

/-- What Cloud answered before the fallback keys took over. -/
def Attempt.firstPoolResult : Attempt → Option ProxyResult
  | .cloud false _ _ result => some result
  | _ => none

/-- A Cloud call with the fallback keys after they took over. -/
def Attempt.fromReserve : Attempt → Bool
  | .cloud reserve _ _ _ => reserve
  | _ => false

/-- An upstream was called. -/
def Attempt.reachedUpstream : Attempt → Bool
  | .cloud _ _ _ _ => true
  | .noReservation _ => false
  | .selfHosted reached _ => reached

def cloudKeyIds (log : List Attempt) : List String := log.filterMap Attempt.cloudKeyId

def selfHostedResults (log : List Attempt) : List ProxyResult :=
  log.filterMap Attempt.selfHostedResult

def firstPoolResults (log : List Attempt) : List ProxyResult :=
  log.filterMap Attempt.firstPoolResult

@[simp] lemma cloudKeyIds_snoc (log : List Attempt) (a : Attempt) :
    cloudKeyIds (log ++ [a]) = cloudKeyIds log ++ a.cloudKeyId.toList := by
  cases h : a.cloudKeyId <;> simp [cloudKeyIds, h]

@[simp] lemma selfHostedResults_snoc (log : List Attempt) (a : Attempt) :
    selfHostedResults (log ++ [a]) = selfHostedResults log ++ a.selfHostedResult.toList := by
  cases h : a.selfHostedResult <;> simp [selfHostedResults, h]

@[simp] lemma firstPoolResults_snoc (log : List Attempt) (a : Attempt) :
    firstPoolResults (log ++ [a]) = firstPoolResults log ++ a.firstPoolResult.toList := by
  cases h : a.firstPoolResult <;> simp [firstPoolResults, h]

/-! ## The rules -/

variable (env : Environment) (req : Request)

/-- The ids of the configured keys. -/
def configuredIds : Finset String := (req.entries.map fun e => env.keyId e.key).toFinset

/-- Cloud may still be called: self-hosted has not been, or failed in a way that lets a request
with this privacy go to Cloud. -/
def CloudReady (log : List Attempt) : Prop :=
  ∀ failed ∈ selfHostedResults log,
    isFallbackEligible failed = true ∧ isFallbackAllowed req.routeMode req.privacy = true

/-- When the fallback keys may take over. -/
structure Takeover (log : List Attempt) : Prop where
  mode : req.routeMode = .hybrid
  roles : keysWithRole req.entries .cloud ≠ []
  exhausted : .noReservation (keysWithRole req.entries .cloud) ∈ log
  reason : (req.needsCloud.required = true ∧
      ∀ result ∈ (firstPoolResults log).getLast?, outOfCapacity result = true) ∨
    ∃ failed ∈ selfHostedResults log,
      isFallbackEligible failed = true ∧ isFallbackAllowed req.routeMode req.privacy = true

/-- The keys a Cloud call may use: in hybrid the cloud-role keys, then the fallback keys. -/
def PoolRule (pre : List Attempt) (reserve : Bool) (pool : List String) : Prop :=
  (reserve = false → (∀ a ∈ pre, a.fromReserve = false) ∧
    (req.routeMode = .hybrid → keysWithRole req.entries .cloud ≠ [] →
      pool = keysWithRole req.entries .cloud)) ∧
  (reserve = true → Takeover req pre ∧ pool = keysWithRole req.entries .fallback)

/-- What a Cloud call needs. -/
structure CloudAllowed (pre : List Attempt) (reserve : Bool) (pool : List String)
    (reservation : CreditReservation) : Prop where
  key : reservation.key ∈ pool
  keyId : reservation.keyId = env.keyId reservation.key
  known : reservation.keyId ∈ configuredIds env req
  fresh : reservation.keyId ∉ cloudKeyIds pre
  mode : req.routeMode ≠ .selfHostedOnly
  ready : CloudReady req pre
  rule : PoolRule req pre reserve pool

/-- What a self-hosted call needs. -/
structure SelfHostedAllowed (pre : List Attempt) : Prop where
  fresh : selfHostedResults pre = []
  mode : req.routeMode ≠ .cloudOnly
  notRequired : req.needsCloud.required = false

/-- What an attempt needs of the attempts before it. -/
def Allowed (pre : List Attempt) : Attempt → Prop
  | .cloud reserve pool reservation _ => CloudAllowed env req pre reserve pool reservation
  | .noReservation _ => True
  | .selfHosted _ _ => SelfHostedAllowed req pre

/-! ## Sound runs -/

/-- The pools of the plan are the ones the rules ask for. -/
structure Pools (run : Run) : Prop where
  first : run.reserveTaken = false → (∀ a ∈ run.log, a.fromReserve = false) ∧
    (req.routeMode = .hybrid → keysWithRole req.entries .cloud ≠ [] →
      run.plan.cloudApiKeys = keysWithRole req.entries .cloud)
  taken : run.reserveTaken = true → Takeover req run.log ∧
    run.plan.cloudApiKeys = keysWithRole req.entries .fallback ∧ run.plan.fallbackApiKeys = []
  left : run.plan.fallbackApiKeys ≠ [] → req.routeMode = .hybrid ∧
    keysWithRole req.entries .cloud ≠ [] ∧
    run.plan.fallbackApiKeys = keysWithRole req.entries .fallback

/-- The plan says what the log says, and every attempt so far was allowed. -/
structure Sound (run : Run) : Prop where
  guarded : Guarded (Allowed env req) run.log
  needsCloud : run.plan.needsCloud = req.needsCloud
  privacy : run.plan.privacy = req.privacy
  attempted : ∀ id, id ∈ run.plan.attemptedCloudKeyIds ↔ id ∈ cloudKeyIds run.log
  selfHosted : run.plan.selfHostedAttempted = false → selfHostedResults run.log = []
  known : ∀ key ∈ run.plan.cloudApiKeys ++ run.plan.fallbackApiKeys,
    env.keyId key ∈ configuredIds env req
  mode : run.plan.cloudApiKeys ≠ [] → req.routeMode ≠ .selfHostedOnly
  pools : Pools req run

variable {env req}

/-- Attempts that are not made with the first pool leave the takeover justified. -/
lemma Takeover.snoc {log : List Attempt} (h : Takeover req log) {a : Attempt}
    (ha : a.firstPoolResult = none) : Takeover req (log ++ [a]) where
  mode := h.mode
  roles := h.roles
  exhausted := List.mem_append_left _ h.exhausted
  reason := by
    refine h.reason.imp (fun hrequired => ?_) fun ⟨failed, hmem, hfailed⟩ => ⟨failed, ?_, hfailed⟩
    · rw [firstPoolResults_snoc, ha]
      simpa using hrequired
    · rw [selfHostedResults_snoc]
      exact List.mem_append_left _ hmem

/-- Keys are held back only until they take over. -/
lemma Pools.not_taken {run : Run} (h : Pools req run) (hleft : run.plan.fallbackApiKeys ≠ []) :
    run.reserveTaken = false := by
  by_contra htaken
  exact hleft (h.taken (Bool.eq_true_of_not_eq_false htaken)).2.2

/-- One attempt more, made with the pool the run has. -/
lemma Pools.snoc {run run' : Run} (h : Pools req run) {a : Attempt}
    (hlog : run'.log = run.log ++ [a]) (htaken : run'.reserveTaken = run.reserveTaken)
    (hcloud : run'.plan.cloudApiKeys = run.plan.cloudApiKeys)
    (hfallback : run'.plan.fallbackApiKeys = run.plan.fallbackApiKeys)
    (hfirst : run.reserveTaken = false → a.fromReserve = false)
    (hlast : run.reserveTaken = true → a.firstPoolResult = none) : Pools req run' where
  first hrun := by
    rw [htaken] at hrun
    obtain ⟨hold, hpool⟩ := h.first hrun
    rw [hlog, hcloud]
    refine ⟨fun b hb => ?_, hpool⟩
    rcases List.mem_append.mp hb with hb | hb
    · exact hold b hb
    · rw [List.mem_singleton.mp hb]
      exact hfirst hrun
  taken hrun := by
    rw [htaken] at hrun
    obtain ⟨htakeover, hpools⟩ := h.taken hrun
    rw [hlog, hcloud, hfallback]
    exact ⟨htakeover.snoc (hlast hrun), hpools⟩
  left := by
    rw [hfallback]
    exact h.left

/-! ## Cloud calls -/

/-- A run that found no key to reserve. -/
def Run.noReservation (run : Run) : Run :=
  { run with
    calls := run.calls + 1
    log := run.log ++ [.noReservation run.plan.cloudApiKeys] }

/-- A run that called Cloud. -/
def Run.calledCloud (run : Run) (reservation : CreditReservation) (result : ProxyResult) : Run :=
  { run with
    plan := { run.plan with
      attemptedCloudKeyIds := insert reservation.keyId run.plan.attemptedCloudKeyIds
      upstreamAttempted := true }
    calls := run.calls + 1
    log := run.log ++ [.cloud run.reserveTaken run.plan.cloudApiKeys reservation result] }

/-- `proxyCloud` finds no key, or calls Cloud with one it has not tried. -/
lemma proxyCloud_cases (env : Environment) (run : Run) :
    proxyCloud env run = (run.noReservation, none) ∨
    ∃ reservation result, proxyCloud env run =
        (run.calledCloud reservation result, some ⟨result, reservation⟩) ∧
      result.backend = .cloud ∧ reservation.key ∈ run.plan.cloudApiKeys ∧
      reservation.keyId = env.keyId reservation.key ∧
      reservation.keyId ∉ run.plan.attemptedCloudKeyIds := by
  unfold proxyCloud
  dsimp only
  split
  · exact Or.inl rfl
  · rename_i reservation hreserve
    refine Or.inr ⟨reservation, proxyToBackend .cloud (env.cloud run.calls), rfl, ?_,
      reserve_mem hreserve⟩
    cases env.cloud run.calls <;> rfl

lemma Sound.noReservation {run : Run} (h : Sound env req run) : Sound env req run.noReservation where
  guarded := h.guarded.snoc trivial
  needsCloud := h.needsCloud
  privacy := h.privacy
  attempted id := by
    rw [Run.noReservation, cloudKeyIds_snoc]
    simpa [Attempt.cloudKeyId] using h.attempted id
  selfHosted hattempted := by
    rw [Run.noReservation, selfHostedResults_snoc, h.selfHosted hattempted]
    rfl
  known := h.known
  mode := h.mode
  pools := h.pools.snoc rfl rfl rfl rfl (fun _ => rfl) fun _ => rfl

/-- A run that may call Cloud may use its pool. -/
lemma Sound.poolRule {run : Run} (h : Sound env req run) :
    PoolRule req run.log run.reserveTaken run.plan.cloudApiKeys :=
  ⟨h.pools.first, fun htaken => ⟨(h.pools.taken htaken).1, (h.pools.taken htaken).2.1⟩⟩

lemma Sound.calledCloud {run : Run} (h : Sound env req run) (hready : CloudReady req run.log)
    {reservation : CreditReservation} (result : ProxyResult)
    (hkey : reservation.key ∈ run.plan.cloudApiKeys)
    (hid : reservation.keyId = env.keyId reservation.key)
    (hfresh : reservation.keyId ∉ run.plan.attemptedCloudKeyIds) :
    Sound env req (run.calledCloud reservation result) where
  guarded := by
    have hallowed : CloudAllowed env req run.log run.reserveTaken run.plan.cloudApiKeys
        reservation :=
      { key := hkey
        keyId := hid
        known := hid ▸ h.known _ (List.mem_append_left _ hkey)
        fresh := fun hmem => hfresh ((h.attempted _).mpr hmem)
        mode := h.mode (List.ne_nil_of_mem hkey)
        ready := hready
        rule := h.poolRule }
    exact h.guarded.snoc hallowed
  needsCloud := h.needsCloud
  privacy := h.privacy
  attempted id := by
    rw [Run.calledCloud, cloudKeyIds_snoc]
    simp only [Finset.mem_insert, h.attempted id, Attempt.cloudKeyId, Option.toList_some,
      List.mem_append, List.mem_singleton]
    exact or_comm
  selfHosted hattempted := by
    rw [Run.calledCloud, selfHostedResults_snoc, h.selfHosted hattempted]
    rfl
  known := h.known
  mode := h.mode
  pools := h.pools.snoc rfl rfl rfl rfl id fun htaken => by
    rw [htaken]
    rfl

/-! ## Self-hosted calls -/

/-- A run that turned to self-hosted. -/
def Run.calledSelfHosted (run : Run) (reached : Bool) (result : ProxyResult) : Run :=
  { run with
    plan := { run.plan with
      selfHostedAttempted := true
      upstreamAttempted := run.plan.upstreamAttempted || reached }
    calls := run.calls + 1
    log := run.log ++ [.selfHosted reached result] }

lemma proxySelfHosted_cases (env : Environment) (run : Run) :
    ∃ reached result, proxySelfHosted env run = (run.calledSelfHosted reached result, result) ∧
      result.backend = .selfHosted := by
  unfold proxySelfHosted
  dsimp only
  split
  · refine ⟨false, circuitOpenResult, ?_, rfl⟩
    simp [Run.calledSelfHosted]
  · rename_i upstream _
    refine ⟨true, proxyToBackend .selfHosted upstream, ?_, by cases upstream <;> rfl⟩
    simp [Run.calledSelfHosted]

lemma Sound.calledSelfHosted {run : Run} (h : Sound env req run)
    (hallowed : SelfHostedAllowed req run.log) (reached : Bool) (result : ProxyResult) :
    Sound env req (run.calledSelfHosted reached result) where
  guarded := h.guarded.snoc hallowed
  needsCloud := h.needsCloud
  privacy := h.privacy
  attempted id := by
    rw [Run.calledSelfHosted, cloudKeyIds_snoc]
    simpa [Attempt.cloudKeyId] using h.attempted id
  selfHosted hattempted := by cases hattempted
  known := h.known
  mode := h.mode
  pools := h.pools.snoc rfl rfl rfl rfl (fun _ => rfl) fun _ => rfl

/-! ## The reserve -/

/-- Changing the pool calls nobody. -/
lemma takeFallbackKeys_log (run : Run) : (takeFallbackKeys run).1.log = run.log := by
  unfold takeFallbackKeys
  split_ifs <;> rfl

/-- The fallback keys take over from an exhausted pool. -/
lemma Sound.takeFallbackKeys {run : Run} (h : Sound env req run)
    (hleft : run.plan.fallbackApiKeys ≠ [])
    (hexhausted : .noReservation run.plan.cloudApiKeys ∈ run.log)
    (hreason : (req.needsCloud.required = true ∧
        ∀ result ∈ (firstPoolResults run.log).getLast?, outOfCapacity result = true) ∨
      ∃ failed ∈ selfHostedResults run.log,
        isFallbackEligible failed = true ∧ isFallbackAllowed req.routeMode req.privacy = true) :
    Sound env req (takeFallbackKeys run).1 := by
  obtain ⟨hmode, hroles, hfallback⟩ := h.pools.left hleft
  -- the active pool is still the first one
  have hpool := (h.pools.first (h.pools.not_taken hleft)).2 hmode hroles
  have htakeover : Takeover req run.log := ⟨hmode, hroles, hpool ▸ hexhausted, hreason⟩
  unfold Proxy.takeFallbackKeys
  rw [if_neg hleft]
  exact
    { guarded := h.guarded
      needsCloud := h.needsCloud
      privacy := h.privacy
      attempted := h.attempted
      selfHosted := h.selfHosted
      known := fun key hkey => by
        rw [List.append_nil] at hkey
        exact h.known key (List.mem_append_right _ hkey)
      mode := fun _ => by rw [hmode]; decide
      pools :=
        { first := fun htaken => by cases htaken
          taken := fun _ => ⟨htakeover, hfallback, rfl⟩
          left := fun hne => absurd rfl hne } }

end Proxy
end FirecrawlGateway
