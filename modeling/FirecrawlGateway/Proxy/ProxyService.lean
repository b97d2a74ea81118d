import FirecrawlGateway.Credits.CreditRouting
import FirecrawlGateway.Proxy.Policy

/-!
# The proxy service

Model of how `ProxyService` (`apps/api/src/proxy/proxy.service.ts`) routes one request, from the
policy decisions at the end of `buildPlan` to the outcome that is sent. The answers of the
upstreams, of the ledger and of the cache come from an `Environment`, by the number of the call.
The `while (true)` of `rotateCloudKeys` takes fuel. The log of a `Run` is not in the source: it
records the attempts in order.
-/

namespace FirecrawlGateway
namespace Proxy

open CreditRouting (CreditReservation Surroundings reserve)

/-! ## Constants -/

/-- `RETRYABLE_CLOUD_STATUS`. -/
def retryableCloudStatus : List ℕ := [401, 402, 403, 429]

/-- `CLOUD_CAPACITY_STATUS`. -/
def cloudCapacityStatus : List ℕ := [402, 429]

/-! ## What happens outside -/

/-- How an upstream call ends; a streamed response has no `body`. -/
inductive Upstream
  | response (status : ℕ) (body : Option (List Char))
  | networkError (message : String)
deriving DecidableEq, Repr

/-- The outside of a run: `keyId` of the credit service, what each call of `reserve` meets and
each call of an upstream answers (`none` while the circuit is open), and what the cache has. -/
structure Environment where
  keyId : String → String
  credits : ℕ → Surroundings
  cloud : ℕ → Upstream
  selfHosted : ℕ → Option Upstream
  cached : Option ProxyResult := none

/-! ## Types -/

/-- `RoutePlan`, less the body of the request. -/
structure RoutePlan where
  needsCloud : NeedsCloudResult
  privacy : PrivacyFlags
  initialBackend : Backend
  cloudApiKeys : List String
  fallbackApiKeys : List String
  selfHostedAttempted : Bool := false
  upstreamAttempted : Bool := false
  estimatedCredits : ℚ
  attemptedCloudKeyIds : Finset String := ∅

/-- `Outcome`. -/
structure Outcome where
  result : ProxyResult
  fallbackUsed : Bool := false
  fallbackReason : String := ""
  cacheHit : Bool := false
deriving DecidableEq, Repr

/-- The arguments of `rejectEarly`: the backend and reason that are audited, the status, and the
`error` and `reason` of the payload. -/
structure EarlyRejection where
  backendUsed : String
  statusCode : ℕ
  reason : String
  error : String
  payloadReason : Option String := none
deriving DecidableEq, Repr

structure CloudAttempt where
  result : ProxyResult
  reservation : CreditReservation
deriving DecidableEq, Repr

/-- What a run did: a Cloud call (`reserve` once the fallback keys have taken over), a `reserve`
that gave nothing, or a self-hosted call, which `reached` the upstream unless the circuit was
open. -/
inductive Attempt
  | cloud (reserve : Bool) (pool : List String) (reservation : CreditReservation)
      (result : ProxyResult)
  | noReservation (pool : List String)
  | selfHosted (reached : Bool) (result : ProxyResult)
deriving DecidableEq, Repr

/-- A run in progress; `calls` numbers the answers of the environment. -/
structure Run where
  plan : RoutePlan
  calls : ℕ := 0
  log : List Attempt := []
  reserveTaken : Bool := false

/-! ## `buildPlan` -/

/-- What `buildPlan` found out about a request. -/
structure Request where
  routeMode : RouteMode
  needsCloud : NeedsCloudResult
  privacy : PrivacyFlags
  entries : List CloudKeyEntry
  estimatedCredits : ℚ

/-- The first backend and the pools `buildPlan` chooses. -/
def keyPools (req : Request) : KeyPools :=
  let firstBackend := chooseInitialBackend req.routeMode req.needsCloud
  -- the keys are not even read where no Cloud call can follow
  let keyEntries :=
    if mayUseCloudKeys firstBackend req.routeMode req.privacy then req.entries else []
  selectKeyPools req.routeMode firstBackend req.needsCloud keyEntries

/-- The plan `buildPlan` returns. -/
def startPlan (req : Request) (initialBackend : Backend) : RoutePlan :=
  { needsCloud := req.needsCloud
    privacy := req.privacy
    initialBackend := initialBackend
    cloudApiKeys := (keyPools req).cloudApiKeys
    fallbackApiKeys := (keyPools req).fallbackApiKeys
    estimatedCredits := req.estimatedCredits }

/-- The policy decisions at the end of `buildPlan`. -/
def buildPlan (req : Request) : Except EarlyRejection RoutePlan :=
  match (keyPools req).initialBackend with
  | .cloud =>
    if (keyPools req).cloudApiKeys = [] then
      .error
        { backendUsed := "none"
          statusCode := 502
          reason := "No Firecrawl Cloud API key configured"
          error := "No Firecrawl Cloud API key configured. Add one in Settings." }
    else .ok (startPlan req .cloud)
  | .selfHosted => .ok (startPlan req .selfHosted)
  | .reject =>
    .error
      { backendUsed := "none"
        statusCode := 409
        reason := req.needsCloud.reason
        error := "This request requires Firecrawl Cloud, but route mode is self-hosted-only."
        payloadReason := some req.needsCloud.reason }

/-! ## Attempts -/

def proxyToBackend (backend : Backend) : Upstream → ProxyResult
  | .response status body => ⟨.response, backend, some ⟨status⟩, none, body⟩
  | .networkError message => ⟨.networkError, backend, none, some message, none⟩

def circuitOpenResult : ProxyResult :=
  ⟨.networkError, .selfHosted, none,
    some "Self-hosted Firecrawl is temporarily unavailable (circuit open)", none⟩

def proxyCloud (env : Environment) (run : Run) : Run × Option CloudAttempt :=
  let plan := run.plan
  match (reserve env.keyId (env.credits run.calls) plan.cloudApiKeys plan.estimatedCredits
      plan.attemptedCloudKeyIds).2 with
  | none =>
    ({ run with calls := run.calls + 1, log := run.log ++ [.noReservation plan.cloudApiKeys] },
      none)
  | some reservation =>
    let result := proxyToBackend .cloud (env.cloud run.calls)
    ({ run with
        plan := { plan with
          attemptedCloudKeyIds := insert reservation.keyId plan.attemptedCloudKeyIds
          upstreamAttempted := true }
        calls := run.calls + 1
        log := run.log ++ [.cloud run.reserveTaken plan.cloudApiKeys reservation result] },
      some ⟨result, reservation⟩)

def proxySelfHosted (env : Environment) (run : Run) : Run × ProxyResult :=
  let plan := { run.plan with selfHostedAttempted := true }
  match env.selfHosted run.calls with
  -- the circuit is open: self-hosted counts as attempted, but no upstream was reached
  | none =>
    ({ run with
        plan := plan
        calls := run.calls + 1
        log := run.log ++ [.selfHosted false circuitOpenResult] },
      circuitOpenResult)
  | some upstream =>
    let result := proxyToBackend .selfHosted upstream
    ({ run with
        plan := { plan with upstreamAttempted := true }
        calls := run.calls + 1
        log := run.log ++ [.selfHosted true result] },
      result)

/-- `takeFallbackKeys`. -/
def takeFallbackKeys (run : Run) : Run × Bool :=
  if run.plan.fallbackApiKeys = [] then (run, false)
  else
    ({ run with
        plan := { run.plan with
          cloudApiKeys := run.plan.fallbackApiKeys
          fallbackApiKeys := [] }
        reserveTaken := true },
      true)

/-- `result.error?.message || "self-hosted network error"`. -/
def networkErrorMessage (result : ProxyResult) : String :=
  match result.error with
  | some message => if message = "" then "self-hosted network error" else message
  | none => "self-hosted network error"

/-- The status as a template string shows it. -/
def showStatus (result : ProxyResult) : String :=
  match result.response with
  | some response => toString response.status
  | none => "undefined"

/-- Why a self-hosted result is not the answer. -/
def selfHostedFailure (result : ProxyResult) : String :=
  if result.kind = .networkError then networkErrorMessage result
  else "self-hosted returned " ++ showStatus result

/-! ## `dispatch` -/

def noCreditPool : EarlyRejection :=
  { backendUsed := "cloud"
    statusCode := 429
    reason := "No available Firecrawl Cloud credit pool"
    error := "No available Firecrawl Cloud credit pool. Refresh credit usage or try again later." }

/-- `dispatch` when no Cloud key could be reserved and self-hosted may not answer. -/
def dispatchReserve (env : Environment) (run : Run) : Run × Except EarlyRejection Outcome :=
  match takeFallbackKeys run with
  | (run, false) => (run, .error noCreditPool)
  | (run, true) =>
    match proxyCloud env run with
    | (run, none) => (run, .error noCreditPool)
    | (run, some reserveAttempt) =>
      (run, .ok
        { result := reserveAttempt.result
          fallbackUsed := true
          fallbackReason := "No available Firecrawl Cloud credit pool; using fallback API key" })

/-- `dispatch` for a request that goes to Cloud first. -/
def dispatchCloud (env : Environment) (routeMode : RouteMode) (run : Run) :
    Run × Except EarlyRejection Outcome :=
  match proxyCloud env run with
  | (run, some cloudAttempt) => (run, .ok { result := cloudAttempt.result })
  | (run, none) =>
    -- a Cloud-required hybrid request cannot go to self-hosted, so the reserve keys take it
    if !isCloudQuotaFallbackAllowed routeMode run.plan.needsCloud then dispatchReserve env run
    else
      let (run, result) := proxySelfHosted env run
      (run, .ok
        { result := result
          fallbackUsed := true
          fallbackReason :=
            "No available Firecrawl Cloud credit pool; falling back to self-hosted" })

/-- `dispatch` for a request that goes to self-hosted first. -/
def dispatchSelfHosted (env : Environment) (routeMode : RouteMode) (run : Run) :
    Run × Except EarlyRejection Outcome :=
  let (run, result) := proxySelfHosted env run
  if run.plan.cloudApiKeys ≠ [] ∧ isFallbackEligible result ∧
      isFallbackAllowed routeMode run.plan.privacy then
    match proxyCloud env run with
    | (run, none) => (run, .ok { result := result })
    | (run, some cloudAttempt) =>
      (run, .ok
        { result := cloudAttempt.result
          fallbackUsed := true
          fallbackReason := selfHostedFailure result })
  else (run, .ok { result := result })

def dispatch (env : Environment) (routeMode : RouteMode) (run : Run) :
    Run × Except EarlyRejection Outcome :=
  match run.plan.initialBackend with
  | .cloud => dispatchCloud env routeMode run
  | .selfHosted => dispatchSelfHosted env routeMode run

/-! ## `rotateCloudKeys` -/

/-- `result.kind === "response" ? result.response?.status : undefined`. -/
def responseStatus (result : ProxyResult) : Option ℕ :=
  if result.kind = .response then result.response.map Response.status else none

/-- The loop of `rotateCloudKeys`, and whether every attempt so far was out of quota. -/
def rotateLoop (env : Environment) (firstStatus : ℕ) :
    ℕ → Run → Outcome → ℕ → ℕ → Option (Run × Outcome × Bool)
  | 0, _, _, _, _ => none -- out of fuel
  | fuel + 1, run, outcome, attempts, quotaAttempts =>
    match proxyCloud env run with
    | (run, none) => some (run, outcome, quotaAttempts = attempts)
    | (run, some next) =>
      let attempts := attempts + 1
      let outcome := { outcome with result := next.result }
      match responseStatus next.result with
      -- a network error is no quota error, and the next key is tried
      | none => rotateLoop env firstStatus fuel run outcome attempts quotaAttempts
      | some status =>
        let quotaAttempts :=
          if status ∈ cloudCapacityStatus then quotaAttempts + 1 else quotaAttempts
        if status ∉ retryableCloudStatus then
          let reason := "primary cloud key failed with " ++ toString firstStatus ++
            ", next key succeeded"
          some (run, { outcome with fallbackUsed := true, fallbackReason := reason },
            quotaAttempts = attempts)
        else rotateLoop env firstStatus fuel run outcome attempts quotaAttempts

/-- The status of a Cloud response. -/
def cloudStatus (result : ProxyResult) : Option ℕ :=
  if result.backend = .cloud then responseStatus result else none

def rotateCloudKeys (env : Environment) (fuel : ℕ) (run : Run) (outcome : Outcome) :
    Option (Run × Outcome × Bool) :=
  match cloudStatus outcome.result with
  | none => some (run, outcome, false)
  | some firstStatus =>
    if firstStatus ∉ retryableCloudStatus then some (run, outcome, false)
    else
      let quotaAttempts := if firstStatus ∈ cloudCapacityStatus then 1 else 0
      rotateLoop env firstStatus fuel run outcome 1 quotaAttempts

/-! ## Falling back -/

/-- Cloud answered that a key is out of capacity. -/
def outOfCapacity (result : ProxyResult) : Bool :=
  (cloudStatus result).any (· ∈ cloudCapacityStatus)

def fallBackToSelfHosted (env : Environment) (routeMode : RouteMode) (run : Run)
    (outcome : Outcome) : Run × Outcome :=
  if run.plan.selfHostedAttempted || !outOfCapacity outcome.result ||
      !isCloudQuotaFallbackAllowed routeMode run.plan.needsCloud then (run, outcome)
  else
    let reason := "all " ++ toString run.plan.cloudApiKeys.length ++
      " cloud API key(s) are unavailable (" ++ showStatus outcome.result ++
      "); falling back to self-hosted"
    let (run, result) := proxySelfHosted env run
    (run, { outcome with result := result, fallbackUsed := true, fallbackReason := reason })

/-- The fallback keys may take over from this result. -/
def cloudOutOfQuota (plan : RoutePlan) (result : ProxyResult) : Bool :=
  plan.needsCloud.required && outOfCapacity result

def selfHostedFailed (routeMode : RouteMode) (plan : RoutePlan) (result : ProxyResult) : Bool :=
  result.backend = .selfHosted && isFallbackEligible result &&
    isFallbackAllowed routeMode plan.privacy

def fallBackToFallbackKeys (env : Environment) (routeMode : RouteMode) (run : Run)
    (outcome : Outcome) : Run × Outcome × Bool :=
  let result := outcome.result
  let cloudOutOfQuota := cloudOutOfQuota run.plan result
  if run.plan.fallbackApiKeys = [] ∨
      (!cloudOutOfQuota && !selfHostedFailed routeMode run.plan result) then (run, outcome, false)
  else
    match proxyCloud env (takeFallbackKeys run).1 with
    -- the keys have changed hands all the same
    | (run, none) => (run, outcome, false)
    | (run, some attempt) =>
      let reason :=
        if cloudOutOfQuota then
          "all cloud API key(s) are unavailable (" ++ showStatus result ++
            "); using fallback API key"
        else selfHostedFailure result ++ "; using fallback API key"
      (run, { outcome with result := attempt.result, fallbackUsed := true,
                           fallbackReason := reason }, true)

/-! ## `handle` -/

/-- `handle` from the first fallback on. -/
def fallBack (env : Environment) (fuel : ℕ) (routeMode : RouteMode) (run : Run)
    (outcome : Outcome) : Option (Run × Outcome) := do
  let (run, outcome, outOfQuota) ← rotateCloudKeys env fuel run outcome
  let (run, outcome) :=
    if outOfQuota then fallBackToSelfHosted env routeMode run outcome else (run, outcome)
  let (run, outcome, replaced) := fallBackToFallbackKeys env routeMode run outcome
  if replaced then
    let (run, outcome, _) ← rotateCloudKeys env fuel run outcome
    some (run, outcome)
  else some (run, outcome)

/-- `handle` after `buildPlan`. -/
def handlePlan (env : Environment) (fuel : ℕ) (routeMode : RouteMode) (plan : RoutePlan) :
    Option (Run × Except EarlyRejection Outcome) :=
  match env.cached with
  | some hit => some ({ plan := plan }, .ok { result := hit, cacheHit := true })
  | none =>
    match dispatch env routeMode { plan := plan } with
    | (run, .error rejection) => some (run, .error rejection)
    | (run, .ok outcome) =>
      (fallBack env fuel routeMode run outcome).map fun (run, outcome) => (run, .ok outcome)

/-- `handle`, with the attempts it made. -/
def handle (env : Environment) (fuel : ℕ) (req : Request) :
    Option (List Attempt × Except EarlyRejection Outcome) :=
  match buildPlan req with
  | .error rejection => some ([], .error rejection)
  | .ok plan =>
    (handlePlan env fuel req.routeMode plan).map fun (run, outcome) => (run.log, outcome)

end Proxy
end FirecrawlGateway
