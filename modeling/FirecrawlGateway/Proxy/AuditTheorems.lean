import FirecrawlGateway.Proxy.ResponseCacheRuns
import FirecrawlGateway.Proxy.RoutingTheorems
import FirecrawlGateway.Proxy.RunInvariants

/-!
# What is recorded of a request

Every request is answered once, and recorded once, by `respond` or by `rejectEarly`. That the
record tells the truth about the upstream calls is an invariant of the run: `upstreamAttempted`
says what the log says. About the status it does so exactly where the last answer of an upstream can
be sent: what is audited before is another status than the 500 that is sent where `reply.code`
throws.
-/

namespace FirecrawlGateway
namespace Proxy

open CreditRouting (CreditReservation)

/-! ## Reading the effects -/

namespace Effect

def observed : Effect → Option RequestObservation
  | observe observation => some observation
  | _ => none

def audited : Effect → Option AuditEntry
  | audit entry => some entry
  | _ => none

def responded : Effect → Option SentResponse
  | respond response => some response
  | _ => none

def fetched : Effect → Option Fetch
  | fetch call => some call
  | _ => none

/-- A reservation that was obtained. -/
def reserved : Effect → Option CreditReservation
  | reserve reservation => reservation
  | _ => none

end Effect

variable {config : ApiConfig} {request : ClientRequest} {url : String} {body : List UInt8}
  {log : List Attempt}

/-- What the attempts of a run do towards the outside. -/
def logEffects (config : ApiConfig) (request : ClientRequest) (url : String) (body : List UInt8)
    (log : List Attempt) : List Effect := log.flatMap (attemptEffects config request url body)

/-- Attempts record and answer nothing. -/
lemma logEffects_quiet {e : Effect} (h : e ∈ logEffects config request url body log) :
    e.observed = none ∧ e.audited = none ∧ e.responded = none := by
  obtain ⟨a, -, he⟩ := List.mem_flatMap.mp h
  cases a with
  | cloud reserve pool reservation result =>
    simp only [attemptEffects, List.mem_cons, List.not_mem_nil, or_false] at he
    rcases he with rfl | rfl <;> exact ⟨rfl, rfl, rfl⟩
  | noReservation pool =>
    rw [attemptEffects, List.mem_singleton] at he
    rw [he]
    exact ⟨rfl, rfl, rfl⟩
  | selfHosted reached result =>
    dsimp only [attemptEffects] at he
    split_ifs at he
    · rw [List.mem_singleton.mp he]
      exact ⟨rfl, rfl, rfl⟩
    · exact absurd he List.not_mem_nil

/-- A fetch is an attempt that reached an upstream. -/
lemma fetched_logEffects :
    (logEffects config request url body log).filterMap Effect.fetched ≠ [] ↔
      ∃ a ∈ log, a.reachedUpstream = true := by
  have hattempt : ∀ a : Attempt,
      (attemptEffects config request url body a).filterMap Effect.fetched ≠ [] ↔
        a.reachedUpstream = true := by
    intro a
    cases a with
    | cloud reserve pool reservation result => exact iff_of_true (List.cons_ne_nil _ _) rfl
    | noReservation pool => exact iff_of_false (fun h => h rfl) Bool.false_ne_true
    | selfHosted reached result =>
      -- an open circuit answers without a call
      cases reached
      · exact iff_of_false (fun h => h rfl) Bool.false_ne_true
      · exact iff_of_true (List.cons_ne_nil _ _) rfl
  rw [logEffects, List.filterMap_flatMap, ne_eq, List.flatMap_eq_nil_iff]
  push Not
  exact exists_congr fun a => and_congr_right fun _ => hattempt a

/-- Attempts that found no key to reserve. -/
def OnlyRefusals (log : List Attempt) : Prop := ∀ a ∈ log, ∃ pool, a = .noReservation pool

lemma OnlyRefusals.fetched (h : OnlyRefusals log) :
    (logEffects config request url body log).filterMap Effect.fetched = [] := by
  by_contra hne
  obtain ⟨a, ha, hreached⟩ := fetched_logEffects.mp hne
  obtain ⟨pool, rfl⟩ := h a ha
  exact Bool.false_ne_true hreached

lemma OnlyRefusals.reserved (h : OnlyRefusals log) :
    (logEffects config request url body log).filterMap Effect.reserved = [] := by
  rw [logEffects, List.filterMap_flatMap, List.flatMap_eq_nil_iff]
  intro a ha
  obtain ⟨pool, rfl⟩ := h a ha
  rfl

/-! ## The run -/

variable {env : Environment}

/-- The plan says whether an upstream was called. -/
def UpstreamRecorded (run : Run) : Prop :=
  run.plan.upstreamAttempted = true ↔ ∃ a ∈ run.log, a.reachedUpstream = true

lemma kept_upstreamRecorded (env : Environment) : Kept env UpstreamRecorded where
  cloud run hrun := by
    unfold UpstreamRecorded at hrun
    rcases proxyCloud_cases env run with heq | ⟨reservation, result, heq, -⟩
    · rw [heq]
      show run.plan.upstreamAttempted = true ↔ ∃ a ∈ run.log ++ [_], a.reachedUpstream = true
      rw [hrun]
      simp [Attempt.reachedUpstream]
    · -- a Cloud call sets the flag itself
      rw [heq]
      exact iff_of_true rfl ⟨_, List.mem_append_right _ (List.mem_singleton_self _), rfl⟩
  selfHosted run hrun := by
    unfold UpstreamRecorded at hrun
    obtain ⟨reached, result, heq, -⟩ := proxySelfHosted_cases env run
    rw [heq]
    show (run.plan.upstreamAttempted || reached) = true ↔
      ∃ a ∈ run.log ++ [_], a.reachedUpstream = true
    rw [Bool.or_eq_true, hrun]
    simp [Attempt.reachedUpstream, or_and_right, exists_or]
  reserve run hrun := by
    unfold takeFallbackKeys
    split_ifs <;> exact hrun

lemma OnlyRefusals.noReservation {run : Run} (h : OnlyRefusals run.log) :
    OnlyRefusals run.noReservation.log := by
  show OnlyRefusals (run.log ++ [_])
  exact List.forall_mem_append.mpr ⟨h, List.forall_mem_singleton.mpr ⟨_, rfl⟩⟩

lemma OnlyRefusals.dispatchReserve {run run' : Run} {rejection : EarlyRejection}
    (h : OnlyRefusals run.log) (hdispatch : dispatchReserve env run = (run', .error rejection)) :
    OnlyRefusals run'.log := by
  have hlog := takeFallbackKeys_log run
  unfold Proxy.dispatchReserve at hdispatch
  split at hdispatch
  · -- no fallback keys are left
    rename_i taken heq
    rw [heq] at hlog
    cases hdispatch
    rwa [hlog]
  · rename_i taken heq
    rw [heq] at hlog
    rw [← hlog] at h
    rcases proxyCloud_cases env taken with heq' | ⟨reservation, result, heq', -⟩
    · rw [heq'] at hdispatch
      cases hdispatch
      exact h.noReservation
    · rw [heq'] at hdispatch
      cases hdispatch

/-- `dispatch` gives up only where no key could be reserved. -/
lemma onlyRefusals_of_dispatch {routeMode : RouteMode} {plan : RoutePlan} {run : Run}
    {rejection : EarlyRejection}
    (h : dispatch env routeMode { plan := plan } = (run, .error rejection)) :
    OnlyRefusals run.log := by
  have hstart : OnlyRefusals ({ plan := plan } : Run).log := fun a ha => absurd ha List.not_mem_nil
  unfold dispatch at h
  split at h
  · unfold dispatchCloud at h
    rcases proxyCloud_cases env { plan := plan } with heq | ⟨reservation, result, heq, -⟩
    · rw [heq] at h
      dsimp only at h
      split_ifs at h
      · exact hstart.noReservation.dispatchReserve h
      · cases h
    · rw [heq] at h
      cases h
  · -- a self-hosted failure is an outcome, with or without a key to fall back on
    unfold dispatchSelfHosted at h
    dsimp only at h
    split_ifs at h
    · split at h
      all_goals cases h
    · cases h

/-- So does `handlePlan`, and a cache hit makes no attempt at all. -/
lemma onlyRefusals_of_handlePlan {fuel : ℕ} {routeMode : RouteMode} {plan : RoutePlan} {run : Run}
    {rejection : EarlyRejection}
    (h : handlePlan env fuel routeMode plan = some (run, .error rejection)) :
    OnlyRefusals run.log := by
  unfold handlePlan at h
  split at h
  · cases h
  · split at h
    · rename_i dispatched rejection' heq
      cases h
      exact onlyRefusals_of_dispatch heq
    · obtain ⟨last, -, hlast⟩ := Option.map_eq_some_iff.mp h
      cases hlast

lemma handlePlan_of_cached {fuel : ℕ} {routeMode : RouteMode} {plan : RoutePlan}
    {hit : ProxyResult} (h : env.cached = some hit) :
    handlePlan env fuel routeMode plan =
      some ({ plan := plan }, .ok { result := hit, cacheHit := true }) := by
  rw [handlePlan, h]

/-! ## The outcome -/

/-- What a call of an upstream came to. -/
def Attempt.answer : Attempt → Option ProxyResult
  | .cloud _ _ _ result => some result
  | .noReservation _ => none
  | .selfHosted _ result => some result

/-- The last answer of an upstream. -/
def lastAnswer (log : List Attempt) : Option ProxyResult := (log.filterMap Attempt.answer).getLast?

lemma lastAnswer_snoc {a : Attempt} {result : ProxyResult} (h : a.answer = some result) :
    lastAnswer (log ++ [a]) = some result := by
  unfold lastAnswer
  rw [List.filterMap_append, List.filterMap_cons_some h]
  exact List.getLast?_concat

lemma lastAnswer_noReservation (log : List Attempt) (pool : List String) :
    lastAnswer (log ++ [.noReservation pool]) = lastAnswer log := by
  unfold lastAnswer
  rw [List.filterMap_append]
  exact congrArg List.getLast? (List.append_nil _)

lemma lastAnswer_proxyCloud {run next : Run} {attempt : CloudAttempt}
    (h : proxyCloud env run = (next, some attempt)) :
    lastAnswer next.log = some attempt.result := by
  rcases proxyCloud_cases env run with heq | ⟨reservation, result, heq, -⟩
  · rw [heq] at h
    cases h
  · rw [heq] at h
    cases h
    exact lastAnswer_snoc rfl

lemma lastAnswer_proxyCloud_none {run next : Run} (h : proxyCloud env run = (next, none)) :
    lastAnswer next.log = lastAnswer run.log := by
  rcases proxyCloud_cases env run with heq | ⟨reservation, result, heq, -⟩
  · rw [heq] at h
    cases h
    exact lastAnswer_noReservation _ _
  · rw [heq] at h
    cases h

lemma lastAnswer_proxySelfHosted (env : Environment) (run : Run) :
    lastAnswer (proxySelfHosted env run).1.log = some (proxySelfHosted env run).2 := by
  obtain ⟨reached, result, heq, -⟩ := proxySelfHosted_cases env run
  rw [heq]
  exact lastAnswer_snoc rfl

/-- The outcome is the last answer, and none from the cache. -/
structure Latest (run : Run) (outcome : Outcome) : Prop where
  answer : lastAnswer run.log = some outcome.result
  cacheHit : outcome.cacheHit = false

lemma latest_of_dispatchReserve {run run' : Run} {outcome : Outcome}
    (h : dispatchReserve env run = (run', .ok outcome)) : Latest run' outcome := by
  unfold dispatchReserve at h
  split at h
  · cases h
  · split at h
    · cases h
    · rename_i hcloud
      cases h
      exact ⟨lastAnswer_proxyCloud hcloud, rfl⟩

lemma latest_of_dispatch {routeMode : RouteMode} {run run' : Run} {outcome : Outcome}
    (h : dispatch env routeMode run = (run', .ok outcome)) : Latest run' outcome := by
  unfold dispatch at h
  split at h
  · unfold dispatchCloud at h
    split at h
    · rename_i hcloud
      cases h
      exact ⟨lastAnswer_proxyCloud hcloud, rfl⟩
    · split_ifs at h
      · exact latest_of_dispatchReserve h
      · cases h
        exact ⟨lastAnswer_proxySelfHosted _ _, rfl⟩
  · unfold dispatchSelfHosted at h
    dsimp only at h
    have hself := lastAnswer_proxySelfHosted env run
    split_ifs at h
    · split at h
      · -- no key could be reserved, and the self-hosted answer stays
        rename_i hcloud
        cases h
        rw [← lastAnswer_proxyCloud_none hcloud] at hself
        exact ⟨hself, rfl⟩
      · rename_i hcloud
        cases h
        exact ⟨lastAnswer_proxyCloud hcloud, rfl⟩
    · cases h
      exact ⟨hself, rfl⟩

lemma Latest.rotateLoop {firstStatus fuel attempts quotaAttempts : ℕ} {run run' : Run}
    {outcome outcome' : Outcome} {outOfQuota : Bool} (hlatest : Latest run outcome)
    (h : rotateLoop env firstStatus fuel run outcome attempts quotaAttempts =
      some (run', outcome', outOfQuota)) : Latest run' outcome' := by
  induction fuel generalizing run outcome attempts quotaAttempts with
  | zero => cases h
  | succ fuel ih =>
    unfold Proxy.rotateLoop at h
    split at h
    · rename_i hcloud
      cases h
      exact ⟨(lastAnswer_proxyCloud_none hcloud).trans hlatest.answer, hlatest.cacheHit⟩
    · rename_i next attempt hcloud
      have hnext : Latest next { outcome with result := attempt.result } :=
        ⟨lastAnswer_proxyCloud hcloud, hlatest.cacheHit⟩
      dsimp only at h
      split at h
      · exact ih hnext h
      · by_cases hretry : ‹ℕ› ∉ retryableCloudStatus
        · rw [if_pos hretry] at h
          cases h
          exact ⟨hnext.answer, hnext.cacheHit⟩
        · rw [if_neg hretry] at h
          exact ih hnext h

lemma Latest.rotateCloudKeys {fuel : ℕ} {run run' : Run} {outcome outcome' : Outcome}
    {outOfQuota : Bool} (hlatest : Latest run outcome)
    (h : rotateCloudKeys env fuel run outcome = some (run', outcome', outOfQuota)) :
    Latest run' outcome' := by
  unfold Proxy.rotateCloudKeys at h
  split at h
  · cases h
    exact hlatest
  · rename_i status _
    by_cases hretry : status ∉ retryableCloudStatus
    · rw [if_pos hretry] at h
      cases h
      exact hlatest
    · rw [if_neg hretry] at h
      exact hlatest.rotateLoop h

lemma Latest.fallBackToSelfHosted {run : Run} {outcome : Outcome} (hlatest : Latest run outcome)
    (env : Environment) (routeMode : RouteMode) :
    Latest (fallBackToSelfHosted env routeMode run outcome).1
      (fallBackToSelfHosted env routeMode run outcome).2 := by
  unfold Proxy.fallBackToSelfHosted
  split_ifs
  · exact hlatest
  · exact ⟨lastAnswer_proxySelfHosted _ _, hlatest.cacheHit⟩

lemma Latest.fallBackToFallbackKeys {run : Run} {outcome : Outcome} (hlatest : Latest run outcome)
    (env : Environment) (routeMode : RouteMode) :
    Latest (fallBackToFallbackKeys env routeMode run outcome).1
      (fallBackToFallbackKeys env routeMode run outcome).2.1 := by
  unfold Proxy.fallBackToFallbackKeys
  dsimp only
  split_ifs
  · exact hlatest
  all_goals
    split
    · rename_i hcloud
      have hsame := lastAnswer_proxyCloud_none hcloud
      rw [takeFallbackKeys_log] at hsame
      exact ⟨hsame.trans hlatest.answer, hlatest.cacheHit⟩
    · rename_i hcloud
      exact ⟨lastAnswer_proxyCloud hcloud, hlatest.cacheHit⟩

lemma Latest.fallBack {fuel : ℕ} {routeMode : RouteMode} {run run' : Run}
    {outcome outcome' : Outcome} (hlatest : Latest run outcome)
    (h : fallBack env fuel routeMode run outcome = some (run', outcome')) :
    Latest run' outcome' := by
  unfold Proxy.fallBack at h
  obtain ⟨⟨rotated, result, outOfQuota⟩, hrotate, h⟩ := Option.bind_eq_some_iff.mp h
  dsimp only at h
  have hrotated : Latest rotated result := hlatest.rotateCloudKeys hrotate
  have hbefore : Latest
      (if outOfQuota = true then Proxy.fallBackToSelfHosted env routeMode rotated result
        else (rotated, result)).1
      (if outOfQuota = true then Proxy.fallBackToSelfHosted env routeMode rotated result
        else (rotated, result)).2 := by
    split_ifs
    · exact hrotated.fallBackToSelfHosted env routeMode
    · exact hrotated
  -- what comes next no longer depends on how `before` came about
  generalize (if outOfQuota = true then Proxy.fallBackToSelfHosted env routeMode rotated result
    else (rotated, result)) = before at hbefore h
  have hafter := hbefore.fallBackToFallbackKeys env routeMode
  generalize Proxy.fallBackToFallbackKeys env routeMode before.1 before.2 = after at h hafter
  split_ifs at h
  · obtain ⟨⟨last, final, _⟩, hrotate', h⟩ := Option.bind_eq_some_iff.mp h
    cases h
    exact hafter.rotateCloudKeys hrotate'
  · cases h
    exact hafter

/-- A request that the cache does not answer is answered with the last answer of an upstream. -/
lemma latest_of_handlePlan {fuel : ℕ} {routeMode : RouteMode} {plan : RoutePlan} {run : Run}
    {outcome : Outcome} (hnone : env.cached = none)
    (h : handlePlan env fuel routeMode plan = some (run, .ok outcome)) : Latest run outcome := by
  rw [handlePlan, hnone] at h
  dsimp only at h
  split at h
  · cases h
  · rename_i dispatched first hdispatch
    obtain ⟨⟨run', outcome'⟩, hback, hsome⟩ := Option.map_eq_some_iff.mp h
    cases hsome
    exact (latest_of_dispatch hdispatch).fallBack hback

/-! ## Headers -/

/-- The last entry is set last. -/
lemma headersOf_concat (entries : List (String × List Char)) (entry : String × List Char) :
    headersOf (entries ++ [entry]) = (headersOf entries).set entry.1 entry.2 := by
  unfold headersOf
  rw [List.foldl_append]
  rfl

/-- A header that is set, and not set again, is there. -/
lemma headersOf_get {entries : List (String × List Char)} {name : String} {value : List Char}
    (before after : List (String × List Char)) (heq : entries = before ++ (name, value) :: after)
    (h : name ∉ after.map Prod.fst) : (headersOf entries).get name = some value := by
  rw [heq]
  clear heq
  induction after using List.reverseRecOn with
  | nil => rw [headersOf_concat, JsMap.get_set_self]
  | append_singleton after entry ih =>
    rw [List.map_append, List.mem_append, not_or] at h
    have hname : name ≠ entry.1 := fun heq => h.2 (heq ▸ List.mem_singleton_self _)
    rw [← List.cons_append, ← List.append_assoc, headersOf_concat, JsMap.get_set_of_ne hname]
    exact ih h.1

/-! ## The record -/

/-- What is recorded of a request, in the end. -/
structure Truthful (effects : List Effect) (observation : RequestObservation) (entry : AuditEntry)
    (response : SentResponse) : Prop where
  observed : effects.filterMap Effect.observed = [observation]
  audited : effects.filterMap Effect.audited = [entry]
  responded : effects.filterMap Effect.responded = [response]
  status : entry.statusCode = response.statusCode ∧ observation.statusCode = response.statusCode
  same : observation.backend = entry.backendUsed ∧ observation.fallbackUsed = entry.fallbackUsed
  reached : observation.reachedBackend = true ↔ effects.filterMap Effect.fetched ≠ []
  /-- The answer of `rejectEarly`. -/
  early : ∀ rejection, response.body = .payload rejection →
    effects.filterMap Effect.fetched = [] ∧ effects.filterMap Effect.reserved = []
  /-- The answer of `respondFromCache`. -/
  cached : ∀ body, response.body = .cached body →
    effects.filterMap Effect.fetched = [] ∧ effects.filterMap Effect.reserved = []
  /-- The answer of `respond`. -/
  headers : (∀ rejection, response.body ≠ .payload rejection) →
    response.headers.get "x-hybrid-firecrawl-backend" = some entry.backendUsed.toList ∧
    response.headers.get "x-hybrid-firecrawl-fallback" = some (toString entry.fallbackUsed).toList

/-- What is added to effects that record and answer nothing is the record. -/
lemma filterMap_after_log {β : Type*} {f : Effect → Option β} (effects : List Effect)
    (hf : ∀ e ∈ logEffects config request url body log, f e = none) :
    (logEffects config request url body log ++ effects).filterMap f = effects.filterMap f := by
  rw [List.filterMap_append, List.filterMap_eq_nil_iff.mpr hf, List.nil_append]

lemma rejectEarly_truthful (h : OnlyRefusals log) (ctx : ProxyContext) (rejection : Rejection) :
    ∃ observation entry response, Truthful
      (logEffects config request url body log ++ rejectEarly request ctx rejection)
      observation entry response := by
  have hfetched : (logEffects config request url body log ++
      rejectEarly request ctx rejection).filterMap Effect.fetched = [] := by
    rw [List.filterMap_append, h.fetched]
    rfl
  have hreserved : (logEffects config request url body log ++
      rejectEarly request ctx rejection).filterMap Effect.reserved = [] := by
    rw [List.filterMap_append, h.reserved]
    rfl
  refine ⟨_, _, _,
    { observed := filterMap_after_log _ fun e he => (logEffects_quiet he).1
      audited := filterMap_after_log _ fun e he => (logEffects_quiet he).2.1
      responded := filterMap_after_log _ fun e he => (logEffects_quiet he).2.2
      status := ⟨rfl, rfl⟩
      same := ⟨rfl, rfl⟩
      reached := iff_of_false Bool.false_ne_true fun hne => hne hfetched
      early := fun _ _ => ⟨hfetched, hreserved⟩
      cached := fun _ _ => ⟨hfetched, hreserved⟩
      headers := fun hbody => absurd rfl (hbody rejection) }⟩

/-- What is audited is sent, if anything is. -/
lemma sendProxyResponse_status {upstream : List (String × List Char)} {outcome : Outcome}
    {cache : CacheStatus} {response : SentResponse}
    (h : sendProxyResponse upstream outcome cache = some response) :
    response.statusCode = auditedStatus outcome.result := by
  unfold sendProxyResponse at h
  unfold auditedStatus
  split_ifs at h ⊢ <;> cases h <;> rfl

lemma sendProxyResponse_body {upstream : List (String × List Char)} {outcome : Outcome}
    {cache : CacheStatus} {response : SentResponse}
    (h : sendProxyResponse upstream outcome cache = some response) :
    response.body = sentBody outcome.result cache := by
  unfold sendProxyResponse at h
  split_ifs at h <;> cases h <;> rfl

lemma sendProxyResponse_isSome (upstream : List (String × List Char)) {outcome : Outcome}
    (cache : CacheStatus) (h : isSendable outcome.result = true) :
    ∃ response, sendProxyResponse upstream outcome cache = some response := by
  unfold sendProxyResponse
  rw [h, Bool.not_true, if_neg Bool.false_ne_true]
  split_ifs <;> exact ⟨_, rfl⟩

/-- What is sent besides is the 500 of an error. -/
lemma startedResponse_cases {upstream : List (String × List Char)} {outcome : Outcome}
    {cache : CacheStatus} {response : SentResponse}
    (h : startedResponse upstream outcome cache = some response) :
    sendProxyResponse upstream outcome cache = some response ∨
      isSendable outcome.result = false ∧ response = internalServerError := by
  unfold startedResponse at h
  split at h
  · rename_i sent hsent
    cases h
    exact Or.inl hsent
  · rename_i hnone
    split_ifs at h
    cases h
    have hthrows : isSendable outcome.result = false := by
      by_contra hsendable
      obtain ⟨sent, hsent⟩ := sendProxyResponse_isSome upstream cache
        (Bool.eq_true_of_not_eq_false hsendable)
      rw [hnone] at hsent
      cases hsent
    exact Or.inr ⟨hthrows, rfl⟩

lemma responded_respond (request : ClientRequest) (ctx : ProxyContext) (plan : RoutePlan)
    (outcome : Outcome) (upstream : List (String × List Char)) (cache : CacheStatus) :
    (respond request ctx plan outcome upstream cache).filterMap Effect.responded =
      (startedResponse upstream outcome cache).toList := by
  unfold respond
  cases startedResponse upstream outcome cache <;> rfl

/-- `respond` calls nobody. -/
lemma respond_calls (request : ClientRequest) (ctx : ProxyContext) (plan : RoutePlan)
    (outcome : Outcome) (upstream : List (String × List Char)) (cache : CacheStatus) :
    (respond request ctx plan outcome upstream cache).filterMap Effect.fetched = [] ∧
      (respond request ctx plan outcome upstream cache).filterMap Effect.reserved = [] := by
  unfold respond
  cases startedResponse upstream outcome cache <;> exact ⟨rfl, rfl⟩

/-- A throw is told from an answer by its status. -/
lemma auditedStatus_ne {result : ProxyResult} (hthrows : isSendable result = false) :
    auditedStatus result ≠ 500 := by
  unfold isSendable at hthrows
  unfold auditedStatus
  intro hstatus
  split_ifs at hthrows hstatus with hkind
  · rw [hstatus] at hthrows
    cases hthrows
  · rw [hstatus] at hthrows
    cases hthrows

lemma CacheStatus.header_names (cache : CacheStatus) {name : String}
    (h : name ∈ cache.header.map Prod.fst) : name = "x-hybrid-firecrawl-cache" := by
  cases cache with
  | off => exact absurd h List.not_mem_nil
  | _ => exact List.mem_singleton.mp h

/-- The headers of an answer name its backend and say whether it is a fallback. -/
lemma sendProxyResponse_headers (upstream : List (String × List Char)) (outcome : Outcome)
    (cache : CacheStatus) (hhit : outcome.cacheHit = true → outcome.result.kind = .response)
    {response : SentResponse} (h : sendProxyResponse upstream outcome cache = some response) :
    response.headers.get "x-hybrid-firecrawl-backend" = some (auditedBackend outcome).toList ∧
      response.headers.get "x-hybrid-firecrawl-fallback" =
        some (toString outcome.fallbackUsed).toList := by
  unfold sendProxyResponse at h
  split_ifs at h with hthrows herror
  · cases h
    have hbackend : auditedBackend outcome = outcome.result.backend.name := by
      unfold auditedBackend
      -- a cache hit is a response
      rw [if_neg]
      intro hcached
      rw [hhit hcached] at herror
      cases herror
    rw [hbackend]
    exact ⟨headersOf_get [_] [_, _] rfl (by simp), headersOf_get [_, _] [_] rfl (by simp)⟩
  · cases h
    have hreason : ∀ name ∈ (if outcome.fallbackReason = "" then []
        else [("x-hybrid-firecrawl-fallback-reason", outcome.fallbackReason.toList)]).map Prod.fst,
        name = "x-hybrid-firecrawl-fallback-reason" := by
      intro name hname
      split_ifs at hname
      · exact absurd hname List.not_mem_nil
      · exact List.mem_singleton.mp hname
    -- what the upstream sent under these names is overwritten
    constructor
    · apply headersOf_get (passedHeaders upstream) (cache.header ++
        [("x-hybrid-firecrawl-fallback", (toString outcome.fallbackUsed).toList)] ++
        if outcome.fallbackReason = "" then []
        else [("x-hybrid-firecrawl-fallback-reason", outcome.fallbackReason.toList)])
      · simp only [List.append_assoc, List.cons_append, List.nil_append]
      · intro hname
        rw [List.map_append, List.map_append, List.mem_append, List.mem_append] at hname
        rcases hname with (hname | hname) | hname
        · exact absurd (cache.header_names hname) (by decide)
        · have hname' : "x-hybrid-firecrawl-backend" = "x-hybrid-firecrawl-fallback" :=
            List.mem_singleton.mp hname
          exact absurd hname' (by decide)
        · exact absurd (hreason _ hname) (by decide)
    · apply headersOf_get (passedHeaders upstream ++
        [("x-hybrid-firecrawl-backend", (auditedBackend outcome).toList)] ++ cache.header)
        (if outcome.fallbackReason = "" then []
        else [("x-hybrid-firecrawl-fallback-reason", outcome.fallbackReason.toList)])
      · simp only [List.append_assoc, List.cons_append, List.nil_append]
      · intro hname
        exact absurd (hreason _ hname) (by decide)

/-- What `respond` records of a run and sends. -/
lemma respond_truthful {run : Run} (hrecorded : UpstreamRecorded run) (ctx : ProxyContext)
    {outcome : Outcome} (upstream : List (String × List Char)) (cache : CacheStatus)
    (hhit : outcome.cacheHit = true → outcome.result.kind = .response)
    (hcache : ∀ entry, cache = .hit entry → run.log = [])
    (hsendable : isSendable outcome.result = true) :
    ∃ observation entry response, Truthful
      (logEffects config request url body run.log ++
        respond request ctx run.plan outcome upstream cache) observation entry response := by
  obtain ⟨response, hsent⟩ := sendProxyResponse_isSome upstream cache hsendable
  have hstatus := sendProxyResponse_status hsent
  have hbody := sendProxyResponse_body hsent
  have hstarted : startedResponse upstream outcome cache = some response := by
    unfold startedResponse
    rw [hsent]
  have hfetched : (logEffects config request url body run.log ++
      respond request ctx run.plan outcome upstream cache).filterMap Effect.fetched =
        (logEffects config request url body run.log).filterMap Effect.fetched := by
    rw [List.filterMap_append, (respond_calls ..).1, List.append_nil]
  have hrespond : respond request ctx run.plan outcome upstream cache =
      appendAuditEntry request ctx (auditedBackend outcome) (auditedStatus outcome.result)
        outcome.fallbackUsed (auditedReason run.plan outcome) run.plan.upstreamAttempted ++
      [.respond response] := by
    unfold respond
    rw [hstarted]
    rfl
  rw [hrespond] at hfetched ⊢
  refine ⟨_, _, _,
    { observed := filterMap_after_log _ fun e he => (logEffects_quiet he).1
      audited := filterMap_after_log _ fun e he => (logEffects_quiet he).2.1
      responded := filterMap_after_log _ fun e he => (logEffects_quiet he).2.2
      status := ⟨hstatus.symm, hstatus.symm⟩
      same := ⟨rfl, rfl⟩
      reached := by
        rw [hfetched, fetched_logEffects]
        exact hrecorded
      early := fun rejection hearly => ?_
      cached := fun bytes hcached => ?_
      headers := fun _ => sendProxyResponse_headers upstream outcome cache hhit hsent }⟩
  · rw [hbody] at hearly
    cases cache <;> cases hearly
  · rw [hbody] at hcached
    cases hstatus : cache with
    | hit entry =>
      rw [hcache entry hstatus]
      exact ⟨rfl, rfl⟩
    | _ =>
      rw [hstatus] at hcached
      cases hcached

/-- Where `sendProxyResponse` throws, the status that is recorded is not the one that is sent. -/
lemma Truthful.isSendable {run : Run} {ctx : ProxyContext} {outcome : Outcome}
    {upstream : List (String × List Char)} {cache : CacheStatus}
    {observation : RequestObservation} {entry : AuditEntry} {response : SentResponse}
    (h : Truthful (logEffects config request url body run.log ++
      respond request ctx run.plan outcome upstream cache) observation entry response) :
    isSendable outcome.result = true := by
  by_contra hthrows
  have haudited := h.audited
  have hresponded := h.responded
  rw [filterMap_after_log _ fun e he => (logEffects_quiet he).2.1] at haudited
  rw [filterMap_after_log _ fun e he => (logEffects_quiet he).2.2, responded_respond] at hresponded
  unfold respond at haudited
  cases hstarted : startedResponse upstream outcome cache with
  | none =>
    rw [hstarted] at hresponded
    cases hresponded
  | some started =>
    rw [hstarted] at haudited hresponded
    have hentry : entry.statusCode = auditedStatus outcome.result := by
      cases haudited
      rfl
    have hresponse : started = response := by
      cases hresponded
      rfl
    rcases startedResponse_cases hstarted with hsent | ⟨hfalse, herror⟩
    · unfold sendProxyResponse at hsent
      rw [Bool.eq_false_of_not_eq_true hthrows] at hsent
      cases hsent
    · apply auditedStatus_ne hfalse
      rw [← hentry, h.status.1, ← hresponse, herror]
      rfl

section Handle

variable {ρ : Type*} {p : Platform ρ} {outside : Outside ρ} {ctx : ProxyContext}
  {plan : RoutePlan}

lemma rejectEarly_truthful_nil (config : ApiConfig) (ctx : ProxyContext) (rejection : Rejection) :
    ∃ observation entry response,
      Truthful (rejectEarly request ctx rejection) observation entry response := by
  have hnone : OnlyRefusals [] := fun a ha => absurd ha List.not_mem_nil
  exact @rejectEarly_truthful config request "" [] [] hnone ctx rejection

/-- The plan of a request comes from `buildPlan`. -/
lemma planRequest_cases {ctx' : ProxyContext}
    (h : planRequest p config outside request ctx = (ctx', .ok plan)) :
    ∃ inspection, buildPlan (routingRequest outside.settings ctx' inspection) = .ok plan := by
  unfold planRequest at h
  split at h
  · cases h
  · rename_i inspection _
    dsimp only at h
    split at h
    · cases h
    · rename_i hplan
      cases h
      exact ⟨inspection, hplan⟩

variable [DecidableEq ρ]

lemma OnlyRefusals.lastAnswer (h : OnlyRefusals log) : lastAnswer log = none := by
  have hnone : log.filterMap Attempt.answer = [] := by
    rw [List.filterMap_eq_nil_iff]
    intro a ha
    obtain ⟨pool, rfl⟩ := h a ha
    rfl
  unfold Proxy.lastAnswer
  rw [hnone]
  rfl

/-- What a plan is given to answer with: the entry of the cache, or the last answer of an
upstream. -/
def planAnswer (p : Platform ρ) (outside : Outside ρ) (fuel : ℕ) (request : ClientRequest)
    (ctx : ProxyContext) (plan : RoutePlan) : Option ProxyResult :=
  let cache := outside.cache.setTtlMs (responseCacheTtlMs p outside.settings)
  let status := cacheStatus cache outside.later (lookupInCache p cache request ctx plan)
  let environment := { outside.routing with cached := status.cached p }
  (status.cached p).or
    ((handlePlan environment fuel ctx.routeMode plan).bind fun answered =>
      lastAnswer answered.1.log)

/-- An answer that only the routing gives tells the truth exactly where it can be sent. -/
lemma answerPlan_truthful_iff {effects : List Effect} {fuel : ℕ} {req : Request}
    (hplan : buildPlan req = .ok plan)
    (h : answerPlan p config outside fuel request ctx plan = some effects) :
    (∃ observation entry response, Truthful effects observation entry response) ↔
      ∀ result ∈ planAnswer p outside fuel request ctx plan, isSendable result = true := by
  unfold answerPlan at h
  unfold planAnswer
  dsimp only at h ⊢
  generalize cacheStatus (outside.cache.setTtlMs _) outside.later _ = status at h ⊢
  obtain ⟨⟨run, answer⟩, hhandle, heffects⟩ := Option.map_eq_some_iff.mp h
  dsimp only at heffects
  rw [← heffects, hhandle, Option.bind_some]
  cases answer with
  | error rejection =>
    have hrefused := onlyRefusals_of_handlePlan hhandle
    have hnone : (status.cached p).or (lastAnswer run.log) = none := by
      rw [hrefused.lastAnswer, Option.or_none]
      by_contra hcached
      obtain ⟨hit, hhit⟩ := Option.ne_none_iff_exists'.mp hcached
      rw [handlePlan_of_cached hhit] at hhandle
      cases hhandle
    rw [hnone]
    exact iff_of_true (rejectEarly_truthful hrefused ctx _) fun _ hresult => by cases hresult
  | ok outcome =>
    have hrecorded : UpstreamRecorded run := by
      apply (kept_upstreamRecorded _).handlePlan _ hhandle
      obtain ⟨initialBackend, rfl, -⟩ := buildPlan_ok hplan
      exact iff_of_false Bool.false_ne_true fun ⟨a, ha, _⟩ => absurd ha List.not_mem_nil
    have hgiven : (status.cached p).or (lastAnswer run.log) = some outcome.result ∧
        (outcome.cacheHit = true → outcome.result.kind = .response) ∧
        ∀ entry, status = .hit entry → run.log = [] := by
      cases hcached : status.cached p with
      | some hit =>
        -- a hit makes no attempt
        rw [handlePlan_of_cached hcached] at hhandle
        cases hhandle
        refine ⟨rfl, fun _ => ?_, fun _ _ => rfl⟩
        cases status with
        | hit entry =>
          cases hcached
          rfl
        | _ => cases hcached
      | none =>
        have hlatest := latest_of_handlePlan hcached hhandle
        refine ⟨hlatest.answer, fun htrue => ?_, fun entry heq => ?_⟩
        · rw [hlatest.cacheHit] at htrue
          cases htrue
        · rw [heq] at hcached
          cases hcached
    obtain ⟨hresult, hhit, hcache⟩ := hgiven
    rw [hresult]
    constructor
    · intro ⟨observation, entry, response, htruthful⟩ result hmem
      cases hmem
      exact htruthful.isSendable
    · intro hsendable
      exact respond_truthful hrecorded ctx _ _ hhit hcache (hsendable _ rfl)

/-- More rounds than keys are enough for an answer, and further ones change nothing. -/
lemma answerPlan_terminates (p : Platform ρ) (config : ApiConfig) (request : ClientRequest)
    {inspection : Inspection}
    (hplan : buildPlan (routingRequest outside.settings ctx inspection) = .ok plan) :
    ∃ effects answer, ∀ fuel, (cloudKeyEntries outside.settings).length < fuel →
      answerPlan p config outside fuel request ctx plan = some effects ∧
        planAnswer p outside fuel request ctx plan = answer := by
  unfold answerPlan planAnswer
  dsimp only
  generalize cacheStatus (outside.cache.setTtlMs _) outside.later _ = status
  obtain ⟨r, hhandle⟩ := handlePlan_terminates { outside.routing with cached := status.cached p }
    hplan (Nat.lt_succ_self _)
  apply Exists.intro
  refine ⟨(status.cached p).or (lastAnswer r.1.log), fun fuel hfuel => ?_⟩
  have hmore := handlePlan_mono (Nat.succ_le_of_lt hfuel) hhandle
  refine ⟨Option.map_eq_some_iff.mpr ⟨r, hmore, rfl⟩, ?_⟩
  exact congrArg (Option.or _ <| Option.bind · fun answered => lastAnswer answered.1.log) hmore

/-- What a request is given to answer with; nothing where it is turned away. -/
def givenAnswer (p : Platform ρ) (config : ApiConfig) (outside : Outside ρ) (fuel : ℕ)
    (request : ClientRequest) : Option ProxyResult :=
  (CacheRuns.planned p config outside request).bind fun planned =>
    planAnswer p outside fuel request planned.1 planned.2

/-- A request is turned away by `createContext`, by `rejectEarly`, or its plan is answered. -/
lemma planned_cases (p : Platform ρ) (config : ApiConfig) (outside : Outside ρ)
    (request : ClientRequest) :
    CacheRuns.planned p config outside request = none ∧
        (p.parseUrl request.originalUrl = none ∧
            (∀ fuel, handleRequest p config outside fuel request =
              some [.respond { statusCode := 400, headers := ∅, body := .invalidUrl }]) ∨
          ∃ ctx rejection, ∀ fuel, handleRequest p config outside fuel request =
            some (rejectEarly request ctx rejection)) ∨
      ∃ ctx plan inspection, CacheRuns.planned p config outside request = some (ctx, plan) ∧
        buildPlan (routingRequest outside.settings ctx inspection) = .ok plan ∧
        ∀ fuel, handleRequest p config outside fuel request =
          answerPlan p config outside fuel request ctx plan := by
  unfold CacheRuns.planned handleRequest
  cases hcontext : createContext p request.originalUrl with
  | none => exact Or.inl ⟨rfl, Or.inl ⟨Option.map_eq_none_iff.mp hcontext, fun _ => rfl⟩⟩
  | some start =>
    dsimp only
    rcases hauthenticate : authenticate config outside request start with ⟨ctx, rejection | _⟩
    · exact Or.inl ⟨rfl, Or.inr ⟨_, _, fun _ => rfl⟩⟩
    · dsimp only
      rcases hplan : planRequest p config outside request ctx with ⟨ctx', rejection | plan⟩
      · exact Or.inl ⟨rfl, Or.inr ⟨_, _, fun _ => rfl⟩⟩
      · obtain ⟨inspection, hbuild⟩ := planRequest_cases hplan
        exact Or.inr ⟨_, _, inspection, rfl, hbuild, fun _ => rfl⟩

lemma handleRequest_cases {effects : List Effect} {fuel : ℕ}
    (h : handleRequest p config outside fuel request = some effects) :
    p.parseUrl request.originalUrl = none ∧
        effects = [.respond { statusCode := 400, headers := ∅, body := .invalidUrl }] ∨
      (∃ ctx rejection, effects = rejectEarly request ctx rejection) ∨
      ∃ ctx plan inspection, CacheRuns.planned p config outside request = some (ctx, plan) ∧
        buildPlan (routingRequest outside.settings ctx inspection) = .ok plan ∧
        answerPlan p config outside fuel request ctx plan = some effects := by
  rcases planned_cases p config outside request with ⟨-, ⟨hnone, hfuel⟩ | ⟨ctx, rejection, hfuel⟩⟩ |
    ⟨ctx, plan, inspection, hplanned, hplan, hfuel⟩
  · rw [hfuel] at h
    exact Or.inl ⟨hnone, (Option.some.inj h).symm⟩
  · rw [hfuel] at h
    exact Or.inr (Or.inl ⟨ctx, rejection, (Option.some.inj h).symm⟩)
  · rw [hfuel] at h
    exact Or.inr (Or.inr ⟨ctx, plan, inspection, hplanned, hplan, h⟩)

/-- Every request is answered, with what it was given. -/
lemma handleRequest_terminates (p : Platform ρ) (config : ApiConfig) (outside : Outside ρ)
    (request : ClientRequest) :
    ∃ effects answer, ∀ fuel, (cloudKeyEntries outside.settings).length < fuel →
      handleRequest p config outside fuel request = some effects ∧
        givenAnswer p config outside fuel request = answer := by
  unfold givenAnswer
  rcases planned_cases p config outside request with
    ⟨hplanned, ⟨-, hfuel⟩ | ⟨ctx, rejection, hfuel⟩⟩ |
      ⟨ctx, plan, inspection, hplanned, hplan, hfuel⟩
  · exact ⟨_, _, fun fuel _ => ⟨hfuel fuel, by rw [hplanned]; rfl⟩⟩
  · exact ⟨_, _, fun fuel _ => ⟨hfuel fuel, by rw [hplanned]; rfl⟩⟩
  · obtain ⟨effects, answer, hanswer⟩ := answerPlan_terminates p config request hplan
    refine ⟨effects, answer, fun fuel hlt => ?_⟩
    rw [hfuel, hplanned]
    exact hanswer fuel hlt

/-- Every request whose URL parses is answered and recorded, and the record tells the truth exactly
where an answer can be started with the status of what the request was given. -/
theorem handleRequest_truthful_iff (p : Platform ρ) (config : ApiConfig) (outside : Outside ρ)
    (request : ClientRequest) (hurl : p.parseUrl request.originalUrl ≠ none) :
    ∃ effects answer,
      (∀ fuel, (cloudKeyEntries outside.settings).length < fuel →
        handleRequest p config outside fuel request = some effects ∧
          givenAnswer p config outside fuel request = answer) ∧
      ((∃ observation entry response, Truthful effects observation entry response) ↔
        ∀ result ∈ answer, isSendable result = true) := by
  obtain ⟨effects, answer, hall⟩ := handleRequest_terminates p config outside request
  refine ⟨effects, answer, hall, ?_⟩
  obtain ⟨heffects, hanswer⟩ := hall _ (Nat.lt_succ_self _)
  unfold givenAnswer at hanswer
  rcases planned_cases p config outside request with
    ⟨hplanned, ⟨hnone, -⟩ | ⟨ctx, rejection, hfuel⟩⟩ |
      ⟨ctx, plan, inspection, hplanned, hplan, hfuel⟩
  · exact absurd hnone hurl
  · rw [hplanned] at hanswer
    rw [hfuel] at heffects
    rw [← Option.some.inj heffects, ← hanswer]
    exact iff_of_true (rejectEarly_truthful_nil config ctx rejection) fun _ hresult => by
      cases hresult
  · rw [hplanned] at hanswer
    rw [hfuel] at heffects
    rw [← hanswer]
    exact answerPlan_truthful_iff hplan heffects

end Handle

/-! ## An odd status -/

/-- A platform for paths without a query. -/
def pathPlatform : Platform (List Char) where
  jsonParse _ := .error "Unexpected end of JSON input"
  numberToString _ := ['0']
  sha256 := id
  parseUrl url := some ⟨url, false, url⟩
  hostname _ := none
  jsonStringify _ := []
  toNumber _ := none
  toUtf8 _ := []

def crawlStatus : ClientRequest where
  method := "GET"
  originalUrl := "/v1/crawl/1"
  headers := []
  body := .undefined
  rawBody := none
  admin := false
  requestId := "1"

/-- No keys are stored, and the circuit is open. -/
def openCircuit : Outside (List Char) where
  settings := ⟨some "self-hosted-first", none, none⟩
  validateApiKey _ := none
  rateLimit := none
  quota := none
  now := 0
  later := 0
  cache := { entries := ∅, ttlMs := 0, maxBytes := 0 }
  responseHeaders _ := []
  routing := { keyId := id, credits := fun _ => {}, cloud := fun _ => .networkError "timeout",
               selfHosted := fun _ => none }

/-- The self-hosted upstream answers with this status and a short text. -/
def selfHostedAnswers (status : ℕ) : Outside (List Char) :=
  { openCircuit with
    routing := { openCircuit.routing with
      selfHosted := fun _ => some (.response status (some "no".toList)) } }

theorem handleRequest_truthful_iff_notFound : ∃ effects observation entry response,
    (∀ fuel, 0 < fuel → handleRequest pathPlatform ⟨false, 5242880, "", ""⟩ (selfHostedAnswers 404)
      fuel crawlStatus = some effects) ∧
    Truthful effects observation entry response ∧ response.statusCode = 404 := by
  obtain ⟨effects, answer, hall, htruthful⟩ := handleRequest_truthful_iff pathPlatform
    ⟨false, 5242880, "", ""⟩ (selfHostedAnswers 404) crawlStatus (Option.some_ne_none _)
  obtain ⟨heffects, hanswer⟩ := hall 1 Nat.one_pos
  have hsendable : ∀ result ∈ answer, isSendable result = true := by
    rw [← hanswer]
    decide
  obtain ⟨observation, entry, response, h⟩ := htruthful.mpr hsendable
  refine ⟨effects, observation, entry, response, fun fuel hfuel => (hall fuel hfuel).1, h, ?_⟩
  have hresponse := h.responded
  rw [← Option.some.inj heffects] at hresponse
  cases hresponse
  rfl

/-- The status 999 is recorded, and the client gets 500. -/
theorem odd_status_recorded : ∃ effects,
    handleRequest pathPlatform ⟨false, 5242880, "", ""⟩ (selfHostedAnswers 999) 1 crawlStatus =
      some effects ∧
    (effects.filterMap Effect.audited).map AuditEntry.statusCode = [999] ∧
    (effects.filterMap Effect.observed).map RequestObservation.statusCode = [999] ∧
    (effects.filterMap Effect.responded).map SentResponse.statusCode = [500] ∧
    ¬ ∃ observation entry response, Truthful effects observation entry response := by
  refine ⟨_, rfl, rfl, rfl, rfl, ?_⟩
  intro ⟨observation, entry, response, htruthful⟩
  have hentry : [entry.statusCode] = [999] := congrArg (List.map AuditEntry.statusCode)
    htruthful.audited.symm
  have hresponse : [response.statusCode] = [500] := congrArg (List.map SentResponse.statusCode)
    htruthful.responded.symm
  have hstatus := htruthful.status.1
  rw [List.singleton_inj.mp hentry, List.singleton_inj.mp hresponse] at hstatus
  cases hstatus

end Proxy
end FirecrawlGateway
