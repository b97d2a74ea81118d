import FirecrawlGateway.Proxy.AuditTheorems

/-!
# The credentials of the gateway

Which key a client shows, and which session cookie, decides nothing behind authentication: the
headers that the policy reads are known by their names, and the ones that are sent on are rebuilt
for each upstream. The authorization a Cloud call takes over from the client is overwritten with
the reserved key, which is never empty.
-/

namespace FirecrawlGateway
namespace Proxy

open CreditRouting (CreditReservation)

/-! ## The keys of a run -/

/-- The key an attempt used. -/
def Attempt.usedKey : Attempt → Option String
  | .cloud _ _ reservation _ => some reservation.key
  | _ => none

/-- The keys of a run have a property. -/
structure KeysSatisfy (P : String → Prop) (run : Run) : Prop where
  left : ∀ key ∈ run.plan.cloudApiKeys ++ run.plan.fallbackApiKeys, P key
  used : ∀ a ∈ run.log, ∀ key ∈ a.usedKey, P key

/-- An attempt is recorded, and the plan has the same keys. -/
lemma KeysSatisfy.record {P : String → Prop} {run run' : Run} (h : KeysSatisfy P run)
    (hleft : run'.plan.cloudApiKeys ++ run'.plan.fallbackApiKeys =
      run.plan.cloudApiKeys ++ run.plan.fallbackApiKeys) {a : Attempt}
    (hlog : run'.log = run.log ++ [a]) (ha : ∀ key ∈ a.usedKey, P key) : KeysSatisfy P run' where
  left := by
    rw [hleft]
    exact h.left
  used := by
    rw [hlog]
    exact List.forall_mem_append.mpr ⟨h.used, List.forall_mem_singleton.mpr ha⟩

/-- No other keys are used than those of the plan. -/
lemma kept_keysSatisfy (env : Environment) (P : String → Prop) : Kept env (KeysSatisfy P) where
  cloud run hrun := by
    rcases proxyCloud_cases env run with heq | ⟨reservation, result, heq, -, hkey, -⟩
    · rw [heq]
      exact hrun.record rfl rfl (by nofun)
    · rw [heq]
      refine hrun.record rfl rfl fun key hused => ?_
      cases hused
      exact hrun.left _ (List.mem_append_left _ hkey)
  selfHosted run hrun := by
    obtain ⟨reached, result, heq, -⟩ := proxySelfHosted_cases env run
    rw [heq]
    exact hrun.record rfl rfl (by nofun)
  reserve run hrun := by
    unfold takeFallbackKeys
    split_ifs
    · exact hrun
    · -- the fallback keys take the place of the others
      refine ⟨fun key hkey => ?_, hrun.used⟩
      rw [List.append_nil] at hkey
      exact hrun.left key (List.mem_append_right _ hkey)

/-- The keys of a plan are configured, and no configured key is empty. -/
lemma buildPlan_keys {req : Request} {plan : RoutePlan} {settings : ProxySettings}
    (hentries : req.entries = cloudKeyEntries settings) (hplan : buildPlan req = .ok plan) :
    KeysSatisfy (· ≠ "") { plan := plan } := by
  obtain ⟨initialBackend, rfl, -⟩ := buildPlan_ok hplan
  refine ⟨fun key hkey => ?_, fun a ha => absurd ha List.not_mem_nil⟩
  obtain ⟨entry, hentry, rfl⟩ := List.mem_map.mp (selectKeyPools_subset _ _ _ _ hkey)
  have hconfigured : entry ∈ cloudKeyEntries settings := by
    rw [← hentries]
    split_ifs at hentry
    · exact hentry
    · exact absurd hentry List.not_mem_nil
  unfold cloudKeyEntries at hconfigured
  split at hconfigured
  · exact absurd hconfigured List.not_mem_nil
  · exact Settings.parseCloudKeyEntries_ne hconfigured

/-! ## Calls -/

/-- The upstream calls among the effects, in order. -/
def calls (effects : List Effect) : List Fetch := effects.filterMap Effect.fetched

lemma calls_append (effects effects' : List Effect) :
    calls (effects ++ effects') = calls effects ++ calls effects' := List.filterMap_append

/-! ## Headers of a client -/

lemma Headers.get_cons (header : String × HeaderValue) (headers : Headers) (name : String) :
    Headers.get (header :: headers) name =
      if name = header.1 then header.2 else Headers.get headers name := by
  unfold Headers.get
  rw [List.lookup_cons]
  by_cases hname : name = header.1
  · rw [if_pos hname, hname, beq_self_eq_true]
    rfl
  · rw [if_neg hname, beq_false_of_ne hname]

lemma Headers.get_of_not_mem {headers : Headers} {name : String}
    (h : name ∉ headers.map Prod.fst) : headers.get name = .undefined := by
  unfold Headers.get
  rw [List.lookup_eq_none_iff.mpr]
  · rfl
  · intro header hheader
    rw [bne_iff_ne]
    intro heq
    exact h (heq ▸ List.mem_map_of_mem hheader)

/-! ## Two requests -/

/-- The header with this authorization and this cookie. -/
def withCredential (authorization cookie : List Char) (header : String × HeaderValue) :
    String × HeaderValue :=
  if header.1 = "authorization" then (header.1, .text authorization)
  else if header.1 = "cookie" then (header.1, .text cookie)
  else header

/-- The request with this authorization and this cookie, where it has any. -/
def ClientRequest.withCredentials (request : ClientRequest) (authorization cookie : List Char) :
    ClientRequest :=
  { request with headers := request.headers.map (withCredential authorization cookie) }

section TwoRequests

variable {ρ : Type*} {p : Platform ρ} {config : ApiConfig} {outside : Outside ρ}
  {request : ClientRequest} {ctx : ProxyContext} (a₁ a₂ c₁ c₂ : List Char)

lemma withCredential_name (a c : List Char) (header : String × HeaderValue) :
    (withCredential a c header).1 = header.1 := by
  unfold withCredential
  split_ifs <;> rfl

/-- Other headers are as they are. -/
lemma get_withCredentials {name : String} (hauthorization : name ≠ "authorization")
    (hcookie : name ≠ "cookie") :
    (request.withCredentials a₁ c₁).headers.get name = request.headers.get name := by
  show Headers.get (request.headers.map (withCredential a₁ c₁)) name = _
  induction request.headers with
  | nil => rfl
  | cons header headers ih =>
    rw [List.map_cons, Headers.get_cons, Headers.get_cons, withCredential_name, ih]
    by_cases hname : name = header.1
    · have hsame : withCredential a₁ c₁ header = header := by
        unfold withCredential
        rw [if_neg (hname ▸ hauthorization), if_neg (hname ▸ hcookie)]
      rw [hsame]
    · rw [if_neg hname, if_neg hname]

/-- The policy reads the names of the headers. -/
lemma hasCredentialHeaders_withCredentials :
    hasCredentialHeaders (privacyHeaders config (request.withCredentials a₁ c₁)) =
      hasCredentialHeaders (privacyHeaders config request) := by
  unfold hasCredentialHeaders privacyHeaders ClientRequest.withCredentials
  split_ifs
  · simp only [List.any_map, Function.comp_def, withCredential_name]
  · simp only [List.filter_map, List.any_map, Function.comp_def, withCredential_name]

/-- So the plan is the same. -/
lemma planRequest_withCredentials :
    planRequest p config outside (request.withCredentials a₁ c₁) ctx =
      planRequest p config outside request ctx := by
  have hbody : inspectBody p.jsonParse request.body
      (request.withCredentials a₁ c₁).headers =
        inspectBody p.jsonParse request.body request.headers := by
    unfold inspectBody
    rw [get_withCredentials a₁ c₁ (by decide) (by decide)]
  have hjson : ∀ json, inspectJson p config (request.withCredentials a₁ c₁) ctx json =
      inspectJson p config request ctx json := by
    intro json
    unfold inspectJson hasSensitiveHeaders
    rw [hasCredentialHeaders_withCredentials]
  have hinspect : inspectRequest p config (request.withCredentials a₁ c₁) ctx =
      inspectRequest p config request ctx := by
    -- the body is the same
    have hsize : getBodyBuffer p (request.withCredentials a₁ c₁) = getBodyBuffer p request := rfl
    have hsame : (request.withCredentials a₁ c₁).body = request.body := rfl
    unfold inspectRequest
    rw [hsize, hsame, hbody]
    simp only [hjson]
  unfold planRequest
  rw [hinspect]

/-- So is what is looked up in the cache. -/
lemma lookupInCache_withCredentials {cache : ResponseCache ρ} {plan : RoutePlan} :
    lookupInCache p cache (request.withCredentials a₁ c₁) ctx plan =
      lookupInCache p cache request ctx plan := by
  unfold lookupInCache cacheLookupFor
  dsimp only
  rw [get_withCredentials a₁ c₁ (by decide) (by decide)]
  rfl

/-- The record a token validates to decides what authentication gives. -/
lemma authenticate_of_validates {key : ApiKeyRecord} (hauth : config.authEnabled = true)
    (hadmin : request.admin = false)
    (h : (bearerToken (request.headers.get "authorization").toText).bind outside.validateApiKey =
      some key) :
    authenticate config outside request ctx =
      ({ ctx with
          routeMode := parseRouteMode outside.settings.defaultRouteMode .cloudFirst
          apiKeyId := some key.id },
        checkLimits outside key) := by
  obtain ⟨token, htoken, hkey⟩ := Option.bind_eq_some_iff.mp h
  unfold authenticate
  dsimp only
  rw [hauth, hadmin, htoken]
  dsimp only
  rw [hkey]
  rfl

lemma authenticate_of_not_validates (hauth : config.authEnabled = true)
    (hadmin : request.admin = false)
    (h : (bearerToken (request.headers.get "authorization").toText).bind outside.validateApiKey =
      none) :
    ∃ ctx' rejection, authenticate config outside request ctx = (ctx', .error rejection) := by
  unfold authenticate
  dsimp only
  rw [hauth, hadmin]
  cases htoken : bearerToken (request.headers.get "authorization").toText with
  | none => exact ⟨_, _, rfl⟩
  | some token =>
    rw [htoken, Option.bind_some] at h
    dsimp only
    rw [h]
    exact ⟨_, _, rfl⟩

lemma get_authorization (a c : List Char) :
    ((request.withCredentials a c).headers.get "authorization").toText =
      if "authorization" ∈ request.headers.map Prod.fst then a else [] := by
  show (Headers.get (request.headers.map (withCredential a c)) "authorization").toText = _
  induction request.headers with
  | nil => rfl
  | cons header headers ih =>
    rw [List.map_cons, List.map_cons, Headers.get_cons, withCredential_name]
    by_cases hname : "authorization" = header.1
    · have hvalue : withCredential a c header = (header.1, .text a) := if_pos hname.symm
      rw [if_pos hname, hvalue, ← hname, if_pos List.mem_cons_self]
      rfl
    · rw [if_neg hname, ih]
      simp only [List.mem_cons, hname, false_or]

/-- Authentication goes on in the same way, or turns both requests away. -/
lemma authenticate_withCredentials (ctx : ProxyContext) (a₁ a₂ c₁ c₂ : List Char)
    (hauth : config.authEnabled = true)
    (hkey : request.admin = true ∨
      (bearerToken a₁).bind outside.validateApiKey = (bearerToken a₂).bind outside.validateApiKey) :
    authenticate config outside (request.withCredentials a₁ c₁) ctx =
        authenticate config outside (request.withCredentials a₂ c₂) ctx ∨
      (∃ ctx' rejection, authenticate config outside (request.withCredentials a₁ c₁) ctx =
        (ctx', .error rejection)) ∧
      ∃ ctx' rejection, authenticate config outside (request.withCredentials a₂ c₂) ctx =
        (ctx', .error rejection) := by
  cases hadmin : request.admin with
  | true =>
    -- behind a session no token is asked for
    left
    have hskip : ∀ a c, authenticate config outside (request.withCredentials a c) ctx =
        ({ ctx with
            routeMode := parseRouteMode outside.settings.defaultRouteMode .cloudFirst }, .ok ()) := by
      intro a c
      have hsame : (request.withCredentials a c).admin = true := hadmin
      unfold authenticate
      dsimp only
      rw [hsame, hauth]
      rfl
    rw [hskip, hskip]
  | false =>
    rw [hadmin, or_iff_right Bool.false_ne_true] at hkey
    have hbind : (bearerToken ((request.withCredentials a₁ c₁).headers.get "authorization").toText).bind
          outside.validateApiKey =
        (bearerToken ((request.withCredentials a₂ c₂).headers.get "authorization").toText).bind
          outside.validateApiKey := by
      rw [get_authorization, get_authorization]
      split_ifs
      · exact hkey
      · rfl
    -- both tokens validate to one record, or neither does
    cases hvalid : (bearerToken
        ((request.withCredentials a₁ c₁).headers.get "authorization").toText).bind
          outside.validateApiKey with
    | none =>
      right
      exact ⟨authenticate_of_not_validates hauth hadmin hvalid,
        authenticate_of_not_validates hauth hadmin (hbind.symm.trans hvalid)⟩
    | some key =>
      left
      have hvalid' := hbind.symm.trans hvalid
      have hadmin₁ : (request.withCredentials a₁ c₁).admin = false := hadmin
      have hadmin₂ : (request.withCredentials a₂ c₂).admin = false := hadmin
      rw [authenticate_of_validates hauth hadmin₁ hvalid,
        authenticate_of_validates hauth hadmin₂ hvalid']

/-! ## What is sent on -/

/-- The names under which a client header goes on. -/
def forwardedHeader (config : ApiConfig) (backend : Backend) (header : String × HeaderValue) :
    Option (String × List Char) :=
  if isWithheld config backend header.1 then none
  else (forwardedValue header.2).map (header.1, ·)

/-- Without its value, the authorization of two clients is the same. -/
def blankAuthorization (name : String) (value : List Char) : List Char :=
  if name = "authorization" then [] else value

lemma headersOf_mapValues (f : String → List Char → List Char)
    (entries : List (String × List Char)) :
    (headersOf entries).mapValues f = headersOf (entries.map fun e => (e.1, f e.1 e.2)) := by
  induction entries using List.reverseRecOn with
  | nil => rfl
  | append_singleton entries entry ih =>
    rw [List.map_append, List.map_singleton, headersOf_concat, headersOf_concat,
      JsMap.mapValues_set, ih]

lemma isWithheld_cookie (config : ApiConfig) (backend : Backend) :
    isWithheld config backend "cookie" = true := by
  unfold isWithheld
  rw [Bool.or_eq_true, Bool.or_eq_true]
  left
  right
  decide

lemma isWithheld_authorization (hauth : config.authEnabled = true) :
    isWithheld config .selfHosted "authorization" = true := by
  unfold isWithheld
  rw [hauth, Bool.or_eq_true]
  right
  decide

/-- What goes on under another name is the same, as a cookie does not go on. -/
lemma forwardedHeader_of_ne {backend : Backend} {header : String × HeaderValue}
    (hname : header.1 ≠ "authorization") :
    forwardedHeader config backend (withCredential a₁ c₁ header) =
      forwardedHeader config backend (withCredential a₂ c₂ header) := by
  unfold forwardedHeader
  rw [withCredential_name, withCredential_name]
  by_cases hcookie : header.1 = "cookie"
  · rw [hcookie, if_pos (isWithheld_cookie config backend), if_pos (isWithheld_cookie config backend)]
  · have hsame : ∀ a c, withCredential a c header = header := by
      intro a c
      unfold withCredential
      rw [if_neg hname, if_neg hcookie]
    rw [hsame, hsame]

/-- Only the value of the authorization is different in what goes on. -/
lemma forwardedHeader_withCredential {backend : Backend} (header : String × HeaderValue) :
    (forwardedHeader config backend (withCredential a₁ c₁ header)).map
        (fun e => (e.1, blankAuthorization e.1 e.2)) =
      (forwardedHeader config backend (withCredential a₂ c₂ header)).map
        (fun e => (e.1, blankAuthorization e.1 e.2)) := by
  by_cases hname : header.1 = "authorization"
  · have hvalue : ∀ a c, withCredential a c header = (header.1, .text a) :=
      fun a c => if_pos hname
    rw [hvalue, hvalue]
    unfold forwardedHeader
    dsimp only
    split_ifs
    · rfl
    · simp [forwardedValue, blankAuthorization, hname]
  · rw [forwardedHeader_of_ne a₁ a₂ c₁ c₂ hname]

lemma sanitizeHeaders_eq (headers : Headers) (backend : Backend) (apiKey : Option String) :
    sanitizeHeaders config headers backend apiKey =
      match apiKey with
      | none => headersOf (headers.filterMap (forwardedHeader config backend))
      | some apiKey =>
        if backend = .cloud ∧ apiKey ≠ "" then
          (headersOf (headers.filterMap (forwardedHeader config backend))).set "authorization"
            ("Bearer ".toList ++ apiKey.toList)
        else headersOf (headers.filterMap (forwardedHeader config backend)) := rfl

/-- A Cloud call overwrites the authorization. -/
lemma sanitizeHeaders_cloud {key : String} (hkey : key ≠ "") :
    sanitizeHeaders config (request.withCredentials a₁ c₁).headers .cloud (some key) =
      sanitizeHeaders config (request.withCredentials a₂ c₂).headers .cloud (some key) := by
  have hblank : ∀ name ≠ "authorization", ∀ value, blankAuthorization name value = value :=
    fun name hname value => if_neg hname
  have hentries : ∀ a c, (((request.withCredentials a c).headers.filterMap
      (forwardedHeader config .cloud)).map fun e => (e.1, blankAuthorization e.1 e.2)) =
        request.headers.filterMap fun header =>
          (forwardedHeader config .cloud (withCredential a c header)).map
            fun e => (e.1, blankAuthorization e.1 e.2) := by
    intro a c
    show ((request.headers.map (withCredential a c)).filterMap _).map _ = _
    rw [List.filterMap_map, List.map_filterMap]
    rfl
  rw [sanitizeHeaders_eq, sanitizeHeaders_eq]
  dsimp only
  -- the blanked authorization is overwritten all the same
  rw [if_pos ⟨rfl, hkey⟩, if_pos ⟨rfl, hkey⟩, ← JsMap.set_mapValues hblank,
    ← JsMap.set_mapValues hblank (headersOf ((request.withCredentials a₂ c₂).headers.filterMap _)),
    headersOf_mapValues, headersOf_mapValues, hentries, hentries]
  simp only [forwardedHeader_withCredential a₁ a₂ c₁ c₂]

/-- A self-hosted call has none. -/
lemma sanitizeHeaders_selfHosted (hauth : config.authEnabled = true) :
    sanitizeHeaders config (request.withCredentials a₁ c₁).headers .selfHosted none =
      sanitizeHeaders config (request.withCredentials a₂ c₂).headers .selfHosted none := by
  have hsame : ∀ header, forwardedHeader config .selfHosted (withCredential a₁ c₁ header) =
      forwardedHeader config .selfHosted (withCredential a₂ c₂ header) := by
    intro header
    by_cases hname : header.1 = "authorization"
    · have hwithheld := isWithheld_authorization hauth
      unfold forwardedHeader
      rw [withCredential_name, withCredential_name, hname, if_pos hwithheld, if_pos hwithheld]
    · exact forwardedHeader_of_ne a₁ a₂ c₁ c₂ hname
  rw [sanitizeHeaders_eq, sanitizeHeaders_eq]
  dsimp only
  unfold ClientRequest.withCredentials
  dsimp only
  rw [List.filterMap_map, List.filterMap_map]
  congr 1
  exact List.filterMap_congr fun header _ => hsame header

/-- An attempt calls the upstream in the same way. -/
lemma attemptEffects_withCredentials (hauth : config.authEnabled = true) {url : String}
    {body : List UInt8} {a : Attempt} (ha : ∀ key ∈ a.usedKey, key ≠ "") :
    attemptEffects config (request.withCredentials a₁ c₁) url body a =
      attemptEffects config (request.withCredentials a₂ c₂) url body a := by
  cases a with
  | cloud reserve pool reservation result =>
    unfold attemptEffects upstreamFetch
    dsimp only
    rw [sanitizeHeaders_cloud a₁ a₂ c₁ c₂ (ha reservation.key rfl)]
    rfl
  | noReservation pool => rfl
  | selfHosted reached result =>
    unfold attemptEffects upstreamFetch
    dsimp only
    rw [sanitizeHeaders_selfHosted a₁ a₂ c₁ c₂ hauth]
    rfl

/-! ## The two runs -/

variable [DecidableEq ρ]

/-- The calls of a plan are the same. -/
lemma answerPlan_withCredentials {inspection : Inspection} {plan : RoutePlan} (fuel : ℕ)
    (hauth : config.authEnabled = true)
    (hplan : buildPlan (routingRequest outside.settings ctx inspection) = .ok plan) :
    (answerPlan p config outside fuel (request.withCredentials a₁ c₁) ctx plan).map calls =
      (answerPlan p config outside fuel (request.withCredentials a₂ c₂) ctx plan).map calls := by
  unfold answerPlan
  dsimp only
  rw [lookupInCache_withCredentials, lookupInCache_withCredentials]
  generalize cacheStatus (outside.cache.setTtlMs _) outside.later _ = status
  cases hhandle : handlePlan _ fuel ctx.routeMode plan with
  | none => rfl
  | some r =>
    obtain ⟨run, answer⟩ := r
    have hkeys := (kept_keysSatisfy _ _).handlePlan (buildPlan_keys rfl hplan) hhandle
    have hlog : logEffects config (request.withCredentials a₁ c₁) ctx.upstreamUrl
          (getBodyBuffer p request) run.log =
        logEffects config (request.withCredentials a₂ c₂) ctx.upstreamUrl
          (getBodyBuffer p request) run.log := by
      unfold logEffects
      rw [List.flatMap_def, List.flatMap_def]
      congr 1
      exact List.map_congr_left fun a ha =>
        attemptEffects_withCredentials a₁ a₂ c₁ c₂ hauth (hkeys.used a ha)
    show some (calls (logEffects config _ ctx.upstreamUrl (getBodyBuffer p request) run.log ++ _)) =
      some (calls (logEffects config _ ctx.upstreamUrl (getBodyBuffer p request) run.log ++ _))
    -- what follows the log calls no upstream
    rw [hlog, calls_append, calls_append]
    cases answer <;> rfl

/-- Which credentials a request has decides nothing behind authentication. -/
lemma handleRequest_withCredentials (fuel : ℕ) (hauth : config.authEnabled = true)
    (hkey : request.admin = true ∨
      (bearerToken a₁).bind outside.validateApiKey = (bearerToken a₂).bind outside.validateApiKey) :
    (handleRequest p config outside fuel (request.withCredentials a₁ c₁)).map calls =
      (handleRequest p config outside fuel (request.withCredentials a₂ c₂)).map calls := by
  have hurl : ∀ a c, (request.withCredentials a c).originalUrl = request.originalUrl :=
    fun _ _ => rfl
  unfold handleRequest
  rw [hurl, hurl]
  cases createContext p request.originalUrl with
  | none => rfl
  | some ctx =>
    dsimp only
    rcases authenticate_withCredentials ctx a₁ a₂ c₁ c₂ hauth hkey with
      heq | ⟨⟨ctx₁, rejection₁, heq₁⟩, ctx₂, rejection₂, heq₂⟩
    · rw [heq]
      rcases authenticate config outside (request.withCredentials a₂ c₂) ctx with
        ⟨ctx', rejection | ok⟩
      · rfl
      · dsimp only
        rw [planRequest_withCredentials, planRequest_withCredentials]
        rcases hplan : planRequest p config outside request ctx' with ⟨ctx'', rejection | plan⟩
        · rfl
        · obtain ⟨inspection, hbuild⟩ := planRequest_cases hplan
          exact answerPlan_withCredentials a₁ a₂ c₁ c₂ fuel hauth hbuild
    · rw [heq₁, heq₂]
      rfl

end TwoRequests

/-! ## The headers of a call -/

/-- A header that no upstream gets from the client. -/
def isDropped (name : String) : Bool :=
  isHopByHop name || lowerName name = "x-firecrawl-route-mode".toList ||
    lowerName name = "cookie".toList

/-- A call has this authorization and no other, nothing that is dropped, and of the rest what the
client sent. -/
structure Forwards (request : ClientRequest) (authorization : Option (List Char))
    (call : Fetch) : Prop where
  authorization : ∀ name, lowerName name = "authorization".toList →
    call.headers.get name = if name = "authorization" then authorization else none
  dropped : ∀ name, isDropped name = true → call.headers.get name = none
  others : ∀ name, lowerName name ≠ "authorization".toList → isDropped name = false →
    call.headers.get name = forwardedValue (request.headers.get name)

section OneRun

variable {config : ApiConfig} {request : ClientRequest} {backend : Backend}

lemma headersOf_entries {entries : List (String × List Char)} (h : (entries.map Prod.fst).Nodup) :
    (headersOf entries).entries = entries := by
  induction entries using List.reverseRecOn with
  | nil => rfl
  | append_singleton entries entry ih =>
    rw [List.map_append, List.nodup_append] at h
    have ih := ih h.1
    rw [headersOf_concat, JsMap.entries_set_of_not_mem _ entry.2, ih]
    rw [ih]
    intro hmem
    exact h.2.2 _ hmem _ (List.mem_singleton_self _) rfl

lemma get_headersOf {entries : List (String × List Char)} (h : (entries.map Prod.fst).Nodup)
    (name : String) : (headersOf entries).get name = entries.lookup name := by
  unfold JsMap.get
  rw [headersOf_entries h]
  clear h
  induction entries with
  | nil => rfl
  | cons entry entries ih =>
    rw [List.find?_cons, List.lookup_cons, ← ih]
    by_cases hname : name = entry.1
    · simp [hname]
    · rw [beq_false_of_ne hname]
      simp [Ne.symm hname]

/-- The names that go on are names of the client's headers. -/
lemma forwardedHeader_names (headers : Headers) :
    ((headers.filterMap (forwardedHeader config backend)).map Prod.fst).Sublist
      (headers.map Prod.fst) := by
  induction headers with
  | nil => exact List.Sublist.refl _
  | cons header headers ih =>
    rw [List.filterMap_cons, List.map_cons]
    cases hforward : forwardedHeader config backend header with
    | none => exact ih.cons _
    | some entry =>
      have hname : entry.1 = header.1 := by
        unfold forwardedHeader at hforward
        split_ifs at hforward
        obtain ⟨value, -, rfl⟩ := Option.map_eq_some_iff.mp hforward
        rfl
      rw [List.map_cons, hname]
      exact ih.cons_cons _

/-- What goes on under a name. -/
lemma lookup_forwarded {headers : Headers} (hnodup : (headers.map Prod.fst).Nodup)
    (name : String) :
    (headers.filterMap (forwardedHeader config backend)).lookup name =
      if isWithheld config backend name then none else forwardedValue (headers.get name) := by
  induction headers with
  | nil =>
    split_ifs
    · rfl
    · rfl
  | cons header headers ih =>
    obtain ⟨hnew, hrest⟩ := List.nodup_cons.mp hnodup
    have ih := ih hrest
    -- no later header has the name of this one
    have hlater : Headers.get headers header.1 = .undefined := Headers.get_of_not_mem hnew
    rw [Headers.get_cons, List.filterMap_cons]
    unfold forwardedHeader
    by_cases hname : name = header.1
    · -- the rest has nothing under this name, forwarded or not
      rw [if_pos hname, hname]
      rw [hname, hlater] at ih
      split_ifs at ih ⊢ with hwithheld
      · exact ih
      · cases hvalue : forwardedValue header.2 with
        | none => exact ih
        | some value =>
          rw [Option.map_some]
          dsimp only
          rw [List.lookup_cons, beq_self_eq_true]
    · rw [if_neg hname, ← ih]
      split
      · rfl
      · rename_i entry hentry
        split_ifs at hentry
        obtain ⟨value, -, rfl⟩ := Option.map_eq_some_iff.mp hentry
        rw [List.lookup_cons, beq_false_of_ne hname]
        rfl

/-- What a client header comes to, apart from the authorization a Cloud call adds. -/
lemma get_forwarded (hnodup : (request.headers.map Prod.fst).Nodup) (name : String) :
    (headersOf (request.headers.filterMap (forwardedHeader config backend))).get name =
      if isWithheld config backend name then none
      else forwardedValue (request.headers.get name) := by
  rw [get_headersOf ((forwardedHeader_names request.headers).nodup hnodup),
    lookup_forwarded hnodup]

/-- A name that is not in lower case is no name of a header. -/
lemma get_of_lowerName {name other : String}
    (hlower : ∀ header ∈ request.headers, lowerName header.1 = header.1.toList)
    (hother : lowerName name = other.toList) (hne : name ≠ other) :
    request.headers.get name = .undefined := by
  apply Headers.get_of_not_mem
  intro hmem
  obtain ⟨header, hheader, rfl⟩ := List.mem_map.mp hmem
  have hsame := (hlower header hheader).symm.trans hother
  exact hne (String.toList_injective hsame)

lemma isWithheld_eq (config : ApiConfig) (backend : Backend) (name : String) :
    isWithheld config backend name = (isDropped name ||
      (lowerName name = "authorization".toList && backend ≠ .cloud && config.authEnabled)) := rfl

/-- A Cloud call has the reserved key. -/
lemma forwards_cloud {key : String} (hkey : key ≠ "") (url : String) (body : List UInt8)
    (hnodup : (request.headers.map Prod.fst).Nodup)
    (hlower : ∀ header ∈ request.headers, lowerName header.1 = header.1.toList) :
    Forwards request (some ("Bearer ".toList ++ key.toList))
      (upstreamFetch config request url body .cloud (some key)) := by
  have hheaders : (upstreamFetch config request url body .cloud (some key)).headers =
      (headersOf (request.headers.filterMap (forwardedHeader config .cloud))).set "authorization"
        ("Bearer ".toList ++ key.toList) := by
    show sanitizeHeaders config request.headers .cloud (some key) = _
    rw [sanitizeHeaders_eq]
    exact if_pos ⟨rfl, hkey⟩
  refine ⟨fun name hname => ?_, fun name hname => ?_, fun name hname hdropped => ?_⟩
  · rw [hheaders]
    by_cases hsame : name = "authorization"
    · rw [if_pos hsame, hsame, JsMap.get_set_self]
    · rw [if_neg hsame, JsMap.get_set_of_ne hsame, get_forwarded hnodup,
        get_of_lowerName hlower hname hsame]
      split_ifs
      · rfl
      · rfl
  · have hne : name ≠ "authorization" := by
      rintro rfl
      exact absurd hname (by decide)
    rw [hheaders, JsMap.get_set_of_ne hne, get_forwarded hnodup, isWithheld_eq, hname]
    rfl
  · have hne : name ≠ "authorization" := by
      rintro rfl
      exact absurd rfl hname
    rw [hheaders, JsMap.get_set_of_ne hne, get_forwarded hnodup, isWithheld_eq, hdropped,
      decide_eq_false hname]
    rfl

/-- A self-hosted call has no authorization. -/
lemma forwards_selfHosted (hauth : config.authEnabled = true) (url : String) (body : List UInt8)
    (hnodup : (request.headers.map Prod.fst).Nodup) :
    Forwards request none (upstreamFetch config request url body .selfHosted none) := by
  have hheaders : (upstreamFetch config request url body .selfHosted none).headers =
      headersOf (request.headers.filterMap (forwardedHeader config .selfHosted)) := rfl
  refine ⟨fun name hname => ?_, fun name hname => ?_, fun name hname hdropped => ?_⟩
  · rw [hheaders, get_forwarded hnodup, isWithheld_eq, hname, hauth, ite_self]
    simp
  · rw [hheaders, get_forwarded hnodup, isWithheld_eq, hname]
    rfl
  · rw [hheaders, get_forwarded hnodup, isWithheld_eq, hdropped, decide_eq_false hname]
    rfl

/-! ## Which call is which -/

/-- A call that directly follows a reservation is the Cloud call for its key, and any other is a
self-hosted one. -/
def CarriesCredentials (config : ApiConfig) (request : ClientRequest) (before : List Effect)
    (call : Fetch) : Prop :=
  match before.getLast? with
  | some (.reserve (some reservation)) =>
    (∃ path, call.url = backendUrl config .cloud path) ∧
      Forwards request (some ("Bearer ".toList ++ reservation.key.toList)) call
  | _ => (∃ path, call.url = backendUrl config .selfHosted path) ∧ Forwards request none call

/-- Effects that end in no reservation may come before. -/
lemma CarriesCredentials.append {earlier before : List Effect} {call : Fetch}
    (h : CarriesCredentials config request before call)
    (hlast : ∀ reservation, earlier.getLast? ≠ some (.reserve (some reservation))) :
    CarriesCredentials config request (earlier ++ before) call := by
  unfold CarriesCredentials at h ⊢
  rw [List.getLast?_append]
  cases hbefore : before.getLast? with
  | some last =>
    rw [hbefore] at h
    exact h
  | none =>
    rw [hbefore] at h
    rw [Option.none_or]
    split
    · rename_i heq
      exact absurd heq (hlast _)
    · exact h

/-- Every call of a log carries the credentials of its upstream. -/
lemma carriesCredentials_logEffects {url : String} {body : List UInt8} {log : List Attempt}
    {record before after : List Effect} {call : Fetch} (hauth : config.authEnabled = true)
    (hnodup : (request.headers.map Prod.fst).Nodup)
    (hlower : ∀ header ∈ request.headers, lowerName header.1 = header.1.toList)
    (hkeys : ∀ a ∈ log, ∀ key ∈ a.usedKey, key ≠ "") (hrecord : calls record = [])
    (h : logEffects config request url body log ++ record = before ++ .fetch call :: after) :
    CarriesCredentials config request before call := by
  induction log generalizing before with
  | nil =>
    have hcall : call ∈ calls record := by
      have heq : record = before ++ .fetch call :: after := h
      rw [heq, calls_append]
      exact List.mem_append_right _ List.mem_cons_self
    rw [hrecord] at hcall
    exact absurd hcall List.not_mem_nil
  | cons a log ih =>
    have ih : ∀ before, logEffects config request url body log ++ record =
        before ++ .fetch call :: after → CarriesCredentials config request before call :=
      fun before => ih fun a ha => hkeys a (List.mem_cons_of_mem _ ha)
    rw [logEffects, List.flatMap_cons, List.append_assoc] at h
    -- an effect that is no call comes before those of the rest
    have hskip : ∀ first before, (∀ reservation, first ≠ .reserve (some reservation)) →
        logEffects config request url body log ++ record = before ++ .fetch call :: after →
        CarriesCredentials config request (first :: before) call := by
      intro first before hfirst hrest
      show CarriesCredentials config request ([first] ++ before) call
      exact (ih before hrest).append fun reservation hlast => hfirst reservation (by cases hlast; rfl)
    cases a with
    | cloud reserve pool reservation result =>
      -- the reservation comes first, so the call is this one or one of the rest
      cases before with
      | nil => cases h
      | cons first before =>
        cases before with
        | nil =>
          cases h
          exact ⟨⟨url, rfl⟩, forwards_cloud (hkeys _ List.mem_cons_self _ rfl) url body hnodup
            hlower⟩
        | cons second before =>
          obtain ⟨hsecond, hrest⟩ := List.cons.inj (List.cons.inj h).2
          rw [← hsecond]
          show CarriesCredentials config request ([first, _] ++ before) call
          exact (ih before hrest).append fun reservation hlast => by cases hlast
    | noReservation pool =>
      cases before with
      | nil => cases h
      | cons first before =>
        obtain ⟨hfirst, hrest⟩ := List.cons.inj h
        rw [← hfirst]
        exact hskip _ before (fun reservation heq => by cases heq) hrest
    | selfHosted reached result =>
      cases reached with
      | false => exact ih before h
      | true =>
        cases before with
        | nil =>
          cases h
          exact ⟨⟨url, rfl⟩, forwards_selfHosted hauth url body hnodup⟩
        | cons first before =>
          obtain ⟨hfirst, hrest⟩ := List.cons.inj h
          rw [← hfirst]
          exact hskip _ before (fun reservation heq => by cases heq) hrest

/-- Every call of a request carries the credentials of its upstream. -/
lemma carriesCredentials {ρ : Type*} [DecidableEq ρ] {p : Platform ρ} {outside : Outside ρ}
    {fuel : ℕ} {effects before after : List Effect} {call : Fetch}
    (hauth : config.authEnabled = true) (hnodup : (request.headers.map Prod.fst).Nodup)
    (hlower : ∀ header ∈ request.headers, lowerName header.1 = header.1.toList)
    (h : handleRequest p config outside fuel request = some effects)
    (hcall : effects = before ++ .fetch call :: after) :
    CarriesCredentials config request before call := by
  have hnone : calls effects ≠ [] := by
    rw [hcall, calls_append]
    exact List.append_ne_nil_of_right_ne_nil _ (List.cons_ne_nil _ _)
  rcases handleRequest_cases h with ⟨-, rfl⟩ | ⟨ctx, rejection, rfl⟩ |
    ⟨ctx, plan, inspection, -, hplan, hanswer⟩
  · exact absurd rfl hnone
  · exact absurd rfl hnone
  · unfold answerPlan at hanswer
    dsimp only at hanswer
    obtain ⟨⟨run, answer⟩, hhandle, rfl⟩ := Option.map_eq_some_iff.mp hanswer
    have hkeys := (kept_keysSatisfy _ _).handlePlan (buildPlan_keys rfl hplan) hhandle
    refine carriesCredentials_logEffects hauth hnodup hlower hkeys.used ?_ hcall
    cases answer with
    | error rejection => rfl
    | ok outcome => exact (respond_calls ..).1

end OneRun

/-- Which credentials a request shows makes no difference to the upstream calls, and what each
call carries are those of the gateway. -/
theorem handleRequest_credentials {ρ : Type*} [DecidableEq ρ] (p : Platform ρ)
    (config : ApiConfig) (outside : Outside ρ) (request : ClientRequest)
    (a₁ a₂ c₁ c₂ : List Char) (hauth : config.authEnabled = true)
    (hnodup : (request.headers.map Prod.fst).Nodup)
    (hlower : ∀ header ∈ request.headers, lowerName header.1 = header.1.toList)
    (hkey : request.admin = true ∨
      (bearerToken a₁).bind outside.validateApiKey =
        (bearerToken a₂).bind outside.validateApiKey) :
    (∃ sequence, ∀ fuel, (cloudKeyEntries outside.settings).length < fuel →
      (handleRequest p config outside fuel (request.withCredentials a₁ c₁)).map calls =
        some sequence ∧
      (handleRequest p config outside fuel (request.withCredentials a₂ c₂)).map calls =
        some sequence) ∧
    ∀ fuel effects, handleRequest p config outside fuel request = some effects →
      ∀ before call after, effects = before ++ .fetch call :: after →
        CarriesCredentials config request before call := by
  constructor
  · obtain ⟨effects, answer, hanswer⟩ := handleRequest_terminates p config outside
      (request.withCredentials a₁ c₁)
    refine ⟨calls effects, fun fuel hfuel => ?_⟩
    rw [← handleRequest_withCredentials a₁ a₂ c₁ c₂ fuel hauth hkey, (hanswer fuel hfuel).1]
    exact ⟨rfl, rfl⟩
  · intro fuel effects h before call after hcall
    exact carriesCredentials hauth hnodup hlower h hcall

/-- The status of a crawl, asked with a key and a cookie. -/
def crawlStatusWithKey : ClientRequest :=
  { crawlStatus with headers :=
    [("authorization", .text "Bearer fc-1".toList), ("cookie", .text "a=1".toList),
      ("accept", .text "*/*".toList)] }

/-- Two tokens of one key; the self-hosted upstream answers. -/
def twoTokens : Outside (List Char) :=
  { openCircuit with
    routing := { openCircuit.routing with selfHosted := fun _ => some (.response 200 none) }
    validateApiKey := fun token =>
      if token = "fc-1".toList ∨ token = "fc-2".toList then some ⟨"key", by decide, none, none, none⟩
      else none }

theorem handleRequest_credentials_twoTokens :
    (∃ sequence, ∀ fuel, 0 < fuel →
      (handleRequest pathPlatform ⟨true, 5242880, "", ""⟩ twoTokens fuel
        (crawlStatusWithKey.withCredentials "Bearer fc-1".toList "a=1".toList)).map calls =
          some sequence ∧
      (handleRequest pathPlatform ⟨true, 5242880, "", ""⟩ twoTokens fuel
        (crawlStatusWithKey.withCredentials "bearer  fc-2".toList "b=2".toList)).map calls =
          some sequence) ∧
    ∀ fuel effects, handleRequest pathPlatform ⟨true, 5242880, "", ""⟩ twoTokens fuel
        crawlStatusWithKey = some effects →
      ∀ before call after, effects = before ++ .fetch call :: after →
        CarriesCredentials ⟨true, 5242880, "", ""⟩ crawlStatusWithKey before call :=
  handleRequest_credentials pathPlatform ⟨true, 5242880, "", ""⟩ twoTokens crawlStatusWithKey
    "Bearer fc-1".toList "bearer  fc-2".toList "a=1".toList "b=2".toList rfl (by decide)
    (by decide) (Or.inr (by decide))

end Proxy
end FirecrawlGateway
