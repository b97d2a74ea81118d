import FirecrawlGateway.Proxy.CloudResponse
import FirecrawlGateway.Proxy.ProxyService
import FirecrawlGateway.Proxy.ResponseCache
import FirecrawlGateway.Settings.CloudKeys

/-!
# The handling of one request

Model of `ProxyService.handle` (`apps/api/src/proxy/proxy.service.ts`) as a whole: from the request
as Fastify hands it on, through authentication, inspection and the routing of `handlePlan`, to the
answer. The result is the list of what the service did towards the outside, in order.
-/

namespace FirecrawlGateway
namespace Proxy

open CreditRouting (CreditReservation)
open Settings (parseCloudKeyEntries)

/-! ## Types -/

/-- The part of `ApiConfig` that is read here. -/
structure ApiConfig where
  authEnabled : Bool
  maxBodyBytes : ℕ
  cloudBaseUrl : String
  selfHostedBaseUrl : String
deriving DecidableEq, Repr

/-- What is read of `new URL(originalUrl, "http://gateway.local")`; `withoutRouteMode` is the path
and the query of a copy with the `routeMode` parameters deleted. -/
structure ParsedUrl where
  pathname : String
  hasRouteMode : Bool
  withoutRouteMode : String
deriving DecidableEq, Repr

/-- The functions of the platform. `parseUrl` and `hostname` give nothing where the URL parser
throws, `toNumber` is `Number(text)` with `none` for `NaN`, and `toUtf8` is `toString("utf8")`. -/
structure Platform (ρ : Type*) extends Hashing ρ where
  parseUrl : String → Option ParsedUrl
  hostname : JsString → Option JsString
  jsonStringify : JsonValue → List UInt8
  toNumber : String → Option JsNumber
  toUtf8 : List UInt8 → List Char

/-- `request.rawBody`. -/
inductive RawBody
  | buffer (bytes : List UInt8)
  | text (value : String)

/-- `RequestWithContext`, with the URL that `handle` is called with. -/
structure ClientRequest where
  method : String
  originalUrl : String
  headers : Headers
  body : RequestBody
  rawBody : Option RawBody
  admin : Bool
  requestId : String

/-- The settings of `PROXY_SETTING_KEYS`: the stored values, and for the keys what decrypting and
parsing them gives, `none` where they are missing or cannot be loaded. -/
structure ProxySettings where
  defaultRouteMode : Option String
  firecrawlApiKeys : Option JsonValue
  responseCacheTtlSeconds : Option String

/-- What is read of an `ApiKeyRecord`; the id is a UUID, and so stands on one line. -/
structure ApiKeyRecord where
  id : String
  oneLine : '\n' ∉ id.toList
  expiresAt : Option ℤ
  rateLimitPerMinute : Option ℕ
  monthlyQuota : Option ℕ
deriving DecidableEq, Repr

/-- `ApiKeyRateLimitResult`. -/
structure ApiKeyRateLimitResult where
  limit : ℕ
  resetAt : ℤ
  exceeded : Bool
deriving DecidableEq, Repr

/-- `ProxyContext`, less the request and the reply. -/
structure ProxyContext where
  path : String
  upstreamUrl : String
  routeMode : RouteMode := .cloudFirst
  primaryTargetUrl : JsString := []
  apiKeyId : Option String := none
deriving DecidableEq, Repr

/-- The arguments of `rejectEarly`, with the `details` of the payload and the headers set on the
reply before. -/
structure Rejection extends EarlyRejection where
  details : Option String := none
  headers : List (String × String) := []
deriving DecidableEq, Repr

/-- `AuditEntry`, less what the clock and the random generator make. -/
structure AuditEntry where
  method : String
  path : String
  routeMode : RouteMode
  backendUsed : String
  fallbackUsed : Bool
  fallbackReason : String
  statusCode : ℕ
  targetUrl : JsString
  requestId : String
  apiKeyId : Option String
deriving DecidableEq, Repr

/-- The argument of `observeRequest`, less the duration. -/
structure RequestObservation where
  backend : String
  statusCode : ℕ
  fallbackUsed : Bool
  reachedBackend : Bool
  path : String
deriving DecidableEq, Repr

/-- A call of `fetch`. -/
structure Fetch where
  url : String
  method : String
  headers : JsMap String (List Char)
  body : Option (List UInt8)

/-- What is sent after the status and the headers; `internalError` is what Fastify sends where
`handle` throws. -/
inductive SentBody
  | invalidUrl
  | payload (rejection : Rejection)
  | upstream (result : ProxyResult)
  | cached (body : List UInt8)
  | internalError
deriving DecidableEq

/-- A response that is started. -/
structure SentResponse where
  statusCode : ℕ
  headers : JsMap String (List Char)
  body : SentBody

/-- What the service does towards the outside. -/
inductive Effect
  | reserve (reservation : Option CreditReservation)
  | fetch (call : Fetch)
  | observe (observation : RequestObservation)
  | audit (entry : AuditEntry)
  | respond (response : SentResponse)

/-- The outside of one request: the settings, what validating a key gives, the counters of its
limits, the clock while the key is checked and at the lookup, the cache at the lookup, the headers
of the answers, and what the routing meets. -/
structure Outside (ρ : Type*) where
  settings : ProxySettings
  validateApiKey : List Char → Option ApiKeyRecord
  rateLimit : Option ApiKeyRateLimitResult
  quota : Option ApiKeyRateLimitResult
  now : ℤ
  later : ℤ
  cache : ResponseCache ρ
  responseHeaders : ProxyResult → List (String × List Char)
  routing : Environment

/-! ## `createContext` -/

/-- `withoutRouteModeParam`. -/
def withoutRouteModeParam (originalUrl : String) (parsedUrl : ParsedUrl) : String :=
  if parsedUrl.hasRouteMode then parsedUrl.withoutRouteMode else originalUrl

def createContext {ρ : Type*} (p : Platform ρ) (originalUrl : String) : Option ProxyContext :=
  (p.parseUrl originalUrl).map fun parsedUrl =>
    { path := parsedUrl.pathname
      upstreamUrl := withoutRouteModeParam originalUrl parsedUrl }

/-! ## `authenticate` -/

/-- What `.` does not match. -/
def isLineTerminator (c : Char) : Bool := c.val ∈ [0x0A, 0x0D, 0x2028, 0x2029]

/-- The group of `/^Bearer\s+(.+)$/i`. -/
def bearerToken (value : List Char) : Option (List Char) :=
  if (value.take 6).map Char.toLower ≠ "bearer".toList then none
  else
    let spaces := (value.drop 6).takeWhile isSpaceChar
    let rest := (value.drop 6).dropWhile isSpaceChar
    -- where nothing follows, the group is the last white space
    let token := if rest = [] then (spaces.drop 1).getLast?.toList else rest
    if spaces = [] ∨ token = [] ∨ token.any isLineTerminator then none else some token

/-- A member of `VALID_ROUTE_MODES`. -/
def validRouteMode : String → Option RouteMode
  | "self-hosted-first" => some .selfHostedFirst
  | "self-hosted-only" => some .selfHostedOnly
  | "cloud-first" => some .cloudFirst
  | "cloud-only" => some .cloudOnly
  | "hybrid" => some .hybrid
  | _ => none

def parseRouteMode (setting : Option String) (fallback : RouteMode) : RouteMode :=
  (setting.bind validRouteMode).getD fallback

def isApiKeyExpired (key : ApiKeyRecord) (now : ℤ) : Bool := key.expiresAt.any (· ≤ now)

/-- A 401 of `authenticate`. -/
def unauthorized (message : String) : Rejection :=
  { backendUsed := "none", statusCode := 401, reason := message, error := message }

/-- `Math.ceil(ms / 1000)`. -/
def ceilSeconds (ms : ℤ) : ℤ := -(-ms / 1000)

/-- The headers of a 429 of `authenticate`. -/
def limitHeaders (name : String) (limit : ApiKeyRateLimitResult) (now : ℤ) :
    List (String × String) :=
  [("x-" ++ name ++ "-limit", toString limit.limit),
    ("x-" ++ name ++ "-remaining", "0"),
    ("x-" ++ name ++ "-reset", toString (ceilSeconds limit.resetAt)),
    ("retry-after", toString (max 1 (ceilSeconds (limit.resetAt - now))))]

/-- A 429 of `authenticate`. -/
def limitExceeded (name reason error : String) (limit : ApiKeyRateLimitResult) (now : ℤ) :
    Rejection :=
  { backendUsed := "none"
    statusCode := 429
    reason := reason
    error := error
    headers := limitHeaders name limit now }

def rateLimitExceeded (limit : ApiKeyRateLimitResult) (now : ℤ) : Rejection :=
  limitExceeded "ratelimit" "API key rate limit exceeded"
    "API key rate limit exceeded. Please try again later." limit now

def quotaExceeded (limit : ApiKeyRateLimitResult) (now : ℤ) : Rejection :=
  limitExceeded "quota" "API key monthly quota exceeded"
    "API key monthly quota exceeded. It resets at the start of the next UTC month." limit now

/-- The limits of a key that validated. -/
def checkLimits {ρ : Type*} (outside : Outside ρ) (key : ApiKeyRecord) : Except Rejection Unit :=
  if isApiKeyExpired key outside.now then .error (unauthorized "API key has expired")
  -- only a limit that the key has is counted
  else match key.rateLimitPerMinute.bind fun _ => outside.rateLimit.filter (·.exceeded) with
    | some limit => .error (rateLimitExceeded limit outside.now)
    | none =>
      match key.monthlyQuota.bind fun _ => outside.quota.filter (·.exceeded) with
      | some quota => .error (quotaExceeded quota outside.now)
      | none => .ok ()

def authenticate {ρ : Type*} (config : ApiConfig) (outside : Outside ρ) (request : ClientRequest)
    (ctx : ProxyContext) : ProxyContext × Except Rejection Unit :=
  let ctx := { ctx with routeMode := parseRouteMode outside.settings.defaultRouteMode .cloudFirst }
  -- behind an admin session no key is asked for
  if !(config.authEnabled && !request.admin) then (ctx, .ok ())
  else match bearerToken (request.headers.get "authorization").toText with
    | none => (ctx, .error (unauthorized "Missing or invalid API key"))
    | some token =>
      match outside.validateApiKey token with
      | none => (ctx, .error (unauthorized "Invalid or revoked API key"))
      | some key => ({ ctx with apiKeyId := some key.id }, checkLimits outside key)

/-! ## `buildPlan` -/

/-- `Buffer.from(text)`. -/
def utf8 (text : String) : List UInt8 := text.toUTF8.toList

def getBodyBuffer {ρ : Type*} (p : Platform ρ) (request : ClientRequest) : List UInt8 :=
  match request.rawBody with
  | some (.buffer bytes) => bytes
  | some (.text value) => utf8 value
  | none =>
    match request.body with
    | .undefined => []
    | .buffer bytes => bytes
    | .value .null => []
    | .value (.string s) => utf8 (JsString.toText s)
    | .value body => p.jsonStringify body

def privacyHeaders (config : ApiConfig) (request : ClientRequest) : Headers :=
  if !config.authEnabled then request.headers
  -- what authenticates to the gateway does not go on, and is not sensitive
  else request.headers.filter fun header =>
    lowerName header.1 ≠ "authorization".toList &&
      !(request.admin && lowerName header.1 = "cookie".toList)

def estimateCreditCost (_pathname : String) (_body : JsonValue) : ℚ := 1

/-- What `buildPlan` finds out about a request before it looks at the keys. -/
structure Inspection where
  needsCloud : NeedsCloudResult
  privacy : PrivacyFlags
  primaryTargetUrl : JsString
  firstBackend : InitialBackend
  estimatedCredits : ℚ
deriving DecidableEq

def bodyTooLarge : Rejection :=
  { backendUsed := "none"
    statusCode := 413
    reason := "Request body is too large for gateway inspection"
    error := "Request body is too large for gateway inspection" }

def invalidJsonBody (parseError : String) : Rejection :=
  { backendUsed := "none"
    statusCode := 400
    reason := parseError
    error := "Invalid JSON body"
    details := some parseError }

/-- What is found out from the body. -/
def inspectJson {ρ : Type*} (p : Platform ρ) (config : ApiConfig) (request : ClientRequest)
    (ctx : ProxyContext) (json : JsonValue) : Inspection :=
  let targetUrls := collectTargetUrls json
  let needsCloud := requestNeedsCloud ctx.path json
  { needsCloud := needsCloud
    privacy :=
      { hasSensitiveHeaders := hasSensitiveHeaders (privacyHeaders config request) json
        hasPrivateTargetUrl := hasPrivateTargetUrl p.hostname targetUrls }
    primaryTargetUrl := targetUrls.head?.getD []
    firstBackend := chooseInitialBackend ctx.routeMode needsCloud
    estimatedCredits := estimateCreditCost ctx.path json }

/-- The beginning of `buildPlan`. -/
def inspectRequest {ρ : Type*} (p : Platform ρ) (config : ApiConfig) (request : ClientRequest)
    (ctx : ProxyContext) : Except Rejection Inspection :=
  if config.maxBodyBytes < (getBodyBuffer p request).length then .error bodyTooLarge
  else match inspectBody p.jsonParse request.body request.headers with
    | .error parseError => .error (invalidJsonBody parseError)
    | .ok json => .ok (inspectJson p config request ctx json)

/-- `getCloudKeyEntries`. -/
def cloudKeyEntries (settings : ProxySettings) : List CloudKeyEntry :=
  match settings.firecrawlApiKeys with
  | none => []
  | some value => parseCloudKeyEntries value

/-- The facts that the end of `buildPlan` decides on. -/
def routingRequest (settings : ProxySettings) (ctx : ProxyContext) (inspection : Inspection) :
    Request :=
  { routeMode := ctx.routeMode
    needsCloud := inspection.needsCloud
    privacy := inspection.privacy
    entries := cloudKeyEntries settings
    estimatedCredits := inspection.estimatedCredits }

/-- `buildPlan`, with the context it leaves. -/
def planRequest {ρ : Type*} (p : Platform ρ) (config : ApiConfig) (outside : Outside ρ)
    (request : ClientRequest) (ctx : ProxyContext) : ProxyContext × Except Rejection RoutePlan :=
  match inspectRequest p config request ctx with
  | .error rejection => (ctx, .error rejection)
  | .ok inspection =>
    let ctx := { ctx with primaryTargetUrl := inspection.primaryTargetUrl }
    match buildPlan (routingRequest outside.settings ctx inspection) with
    | .error rejection => (ctx, .error { rejection with })
    | .ok plan => (ctx, .ok plan)

/-! ## Upstream calls -/

/-- `hopByHopHeaders`. -/
def hopByHopHeaders : List String :=
  ["connection", "keep-alive", "proxy-authenticate", "proxy-authorization", "te", "trailer",
    "transfer-encoding", "upgrade", "host", "content-length"]

def isHopByHop (name : String) : Bool := hopByHopHeaders.any fun hop => lowerName name = hop.toList

/-- The headers of an object that is filled in order. -/
def headersOf (entries : List (String × List Char)) : JsMap String (List Char) :=
  entries.foldl (fun headers entry => headers.set entry.1 entry.2) ∅

/-- `Array.isArray(value) ? value.join(", ") : value`. -/
def forwardedValue : HeaderValue → Option (List Char)
  | .undefined => none
  | .text value => some value
  | .texts values => some (", ".toList.intercalate values)

/-- A client header that is not forwarded. -/
def isWithheld (config : ApiConfig) (backend : Backend) (name : String) : Bool :=
  isHopByHop name || lowerName name = "x-firecrawl-route-mode".toList ||
    lowerName name = "cookie".toList ||
    (lowerName name = "authorization".toList && backend ≠ .cloud && config.authEnabled)

def sanitizeHeaders (config : ApiConfig) (headers : Headers) (backend : Backend)
    (apiKey : Option String) : JsMap String (List Char) :=
  let next := headersOf (headers.filterMap fun header =>
    if isWithheld config backend header.1 then none
    else (forwardedValue header.2).map (header.1, ·))
  match apiKey with
  | none => next
  | some apiKey =>
    -- the empty string is falsy
    if backend = .cloud ∧ apiKey ≠ "" then
      next.set "authorization" ("Bearer ".toList ++ apiKey.toList)
    else next

def backendUrl (config : ApiConfig) (backend : Backend) (path : String) : String :=
  (match backend with
    | .cloud => config.cloudBaseUrl
    | .selfHosted => config.selfHostedBaseUrl) ++ path

/-- The call that `proxyToBackend` makes. -/
def upstreamFetch (config : ApiConfig) (request : ClientRequest) (upstreamUrl : String)
    (bodyBuffer : List UInt8) (backend : Backend) (apiKey : Option String) : Fetch :=
  { url := backendUrl config backend upstreamUrl
    method := request.method
    headers := sanitizeHeaders config request.headers backend apiKey
    body := if request.method = "GET" ∨ request.method = "HEAD" then none else some bodyBuffer }

/-- What an attempt of the routing does towards the outside. -/
def attemptEffects (config : ApiConfig) (request : ClientRequest) (upstreamUrl : String)
    (bodyBuffer : List UInt8) : Attempt → List Effect
  | .cloud _ _ reservation _ =>
    [.reserve (some reservation), .fetch
      (upstreamFetch config request upstreamUrl bodyBuffer .cloud (some reservation.key))]
  | .noReservation _ => [.reserve none]
  | .selfHosted reached _ =>
    if reached then
      [.fetch (upstreamFetch config request upstreamUrl bodyBuffer .selfHosted none)]
    else []

/-! ## The answer -/

/-- `observeRequest` and `appendAudit`. -/
def appendAuditEntry (request : ClientRequest) (ctx : ProxyContext) (backendUsed : String)
    (statusCode : ℕ) (fallbackUsed : Bool) (fallbackReason : String) (reachedBackend : Bool) :
    List Effect :=
  [.observe
      { backend := backendUsed
        statusCode := statusCode
        fallbackUsed := fallbackUsed
        reachedBackend := reachedBackend
        path := ctx.path },
    .audit
      { method := request.method
        path := ctx.path
        routeMode := ctx.routeMode
        backendUsed := backendUsed
        fallbackUsed := fallbackUsed
        fallbackReason := fallbackReason
        statusCode := statusCode
        targetUrl := ctx.primaryTargetUrl
        requestId := request.requestId
        apiKeyId := ctx.apiKeyId }]

/-- `rejectEarly`: the answer of a request that never reached an upstream. -/
def rejectEarly (request : ClientRequest) (ctx : ProxyContext) (rejection : Rejection) :
    List Effect :=
  appendAuditEntry request ctx rejection.backendUsed rejection.statusCode false rejection.reason
      false ++
    [.respond
      { statusCode := rejection.statusCode
        headers := headersOf (rejection.headers.map fun header => (header.1, header.2.toList))
        body := .payload rejection }]

/-- How a backend is named. -/
def Backend.name : Backend → String
  | .cloud => "cloud"
  | .selfHosted => "self-hosted"

/-- Whether the request was looked up in the cache, and found there. -/
inductive CacheStatus
  | hit (entry : CachedResponse)
  | miss
  | off

/-- `result.response?.status || 502`. -/
def responseStatusOr502 (result : ProxyResult) : ℕ :=
  match result.response with
  | some response => if response.status = 0 then 502 else response.status
  | none => 502

/-- The status `respond` audits. -/
def auditedStatus (result : ProxyResult) : ℕ :=
  if result.kind = .networkError then 502 else responseStatusOr502 result

/-- The backend `respond` audits. -/
def auditedBackend (outcome : Outcome) : String :=
  if outcome.cacheHit then "cache" else outcome.result.backend.name

/-- The headers of a network error. -/
def networkErrorHeaders (outcome : Outcome) : JsMap String (List Char) :=
  headersOf
    [("content-type", "application/json; charset=utf-8".toList),
      ("x-hybrid-firecrawl-backend", outcome.result.backend.name.toList),
      ("x-hybrid-firecrawl-fallback", (toString outcome.fallbackUsed).toList),
      ("x-hybrid-firecrawl-fallback-reason", outcome.fallbackReason.toList)]

/-- The upstream headers that are sent on: `fetch` has decoded the body. -/
def passedHeaders (headers : List (String × List Char)) : List (String × List Char) :=
  headers.filter fun header =>
    !isHopByHop header.1 && lowerName header.1 ≠ "content-encoding".toList

/-- `x-hybrid-firecrawl-cache`. -/
def CacheStatus.header : CacheStatus → List (String × List Char)
  | hit _ => [("x-hybrid-firecrawl-cache", "hit".toList)]
  | miss => [("x-hybrid-firecrawl-cache", "miss".toList)]
  | off => []

/-- The headers of a response, less its `content-length`. -/
def responseHeaders (upstream : List (String × List Char)) (outcome : Outcome)
    (cache : CacheStatus) : JsMap String (List Char) :=
  headersOf <| passedHeaders upstream ++
    [("x-hybrid-firecrawl-backend", (auditedBackend outcome).toList)] ++ cache.header ++
    [("x-hybrid-firecrawl-fallback", (toString outcome.fallbackUsed).toList)] ++
    if outcome.fallbackReason = "" then []
    else [("x-hybrid-firecrawl-fallback-reason", outcome.fallbackReason.toList)]

/-- The body of the answer. -/
def sentBody (result : ProxyResult) : CacheStatus → SentBody
  | .hit entry => .cached entry.body
  | _ => .upstream result

/-- The statuses that `reply.code` takes; it throws at all others. -/
def isReplyCode (status : ℕ) : Bool := 100 ≤ status && status ≤ 599

/-- The statuses that `reply.raw.writeHead` takes; it throws at all others. -/
def isHeadCode (status : ℕ) : Bool := 100 ≤ status && status ≤ 999

/-- A response that is piped to the client. -/
def isStream (result : ProxyResult) : Bool := result.kind = .response && result.body = none

/-- An answer can be started with the status of the result. -/
def isSendable (result : ProxyResult) : Bool :=
  if result.kind = .networkError then true
  else if isStream result then isHeadCode (responseStatusOr502 result)
  else isReplyCode (responseStatusOr502 result)

/-- `sendProxyResponse`; nothing is sent where it throws. -/
def sendProxyResponse (upstream : List (String × List Char)) (outcome : Outcome)
    (cache : CacheStatus) : Option SentResponse :=
  if !isSendable outcome.result then none
  else if outcome.result.kind = .networkError then
    some
      { statusCode := 502
        headers := networkErrorHeaders outcome
        body := sentBody outcome.result cache }
  else
    some
      { statusCode := responseStatusOr502 outcome.result
        headers := responseHeaders upstream outcome cache
        body := sentBody outcome.result cache }

/-- The answer to a request that `handle` throws at. -/
def internalServerError : SentResponse :=
  { statusCode := 500, headers := ∅, body := .internalError }

/-- What the client gets: nobody answers for a reply that is hijacked. -/
def startedResponse (upstream : List (String × List Char)) (outcome : Outcome)
    (cache : CacheStatus) : Option SentResponse :=
  match sendProxyResponse upstream outcome cache with
  | some response => some response
  | none => if isStream outcome.result then none else some internalServerError

/-- `fallbackReason || plan.needsCloud.reason || ""`. -/
def auditedReason (plan : RoutePlan) (outcome : Outcome) : String :=
  if outcome.fallbackReason = "" then plan.needsCloud.reason else outcome.fallbackReason

def respond (request : ClientRequest) (ctx : ProxyContext) (plan : RoutePlan) (outcome : Outcome)
    (upstream : List (String × List Char)) (cache : CacheStatus) : List Effect :=
  appendAuditEntry request ctx (auditedBackend outcome) (auditedStatus outcome.result)
      outcome.fallbackUsed (auditedReason plan outcome) plan.upstreamAttempted ++
    (startedResponse upstream outcome cache).toList.map .respond

/-! ## `handle` -/

/-- `integerSetting`; `toNumber` is `Number`. -/
def integerSetting (toNumber : String → Option JsNumber) (setting : Option String)
    (fallback : ℤ) : ℤ :=
  match setting with
  | none => fallback
  | some text =>
    if jsTrim text.toList = [] then fallback
    else match toNumber text with
      | some (.finite value) => if value.den = 1 ∧ 0 ≤ value then value.num else fallback
      | some .negativeZero => 0
      | _ => fallback

/-- `MAX_RESPONSE_CACHE_TTL_SECONDS`. -/
def maxResponseCacheTtlSeconds : ℤ := 86400

/-- The lifetime that is set before the lookup. -/
def responseCacheTtlMs {ρ : Type*} (p : Platform ρ) (settings : ProxySettings) : ℤ :=
  min (integerSetting p.toNumber settings.responseCacheTtlSeconds 0) maxResponseCacheTtlSeconds *
    1000

/-- What `handle` looks up in the cache, which is set to its new lifetime. -/
def lookupInCache {ρ : Type*} (p : Platform ρ) (cache : ResponseCache ρ) (request : ClientRequest)
    (ctx : ProxyContext) (plan : RoutePlan) : Option (CacheLookup ρ) :=
  if cache.enabled then
    cacheLookupFor p.toHashing
      { method := request.method
        upstreamUrl := ctx.upstreamUrl
        path := ctx.path
        headers := request.headers
        apiKeyId := ctx.apiKeyId
        bodyBuffer := getBodyBuffer p request
        initialBackend := plan.initialBackend
        needsCloud := plan.needsCloud
        privacy := plan.privacy }
  else none

/-- Whether the cache has the answer. -/
def cacheStatus {ρ : Type*} [DecidableEq ρ] (cache : ResponseCache ρ) (now : ℤ) :
    Option (CacheLookup ρ) → CacheStatus
  | none => .off
  | some lookup =>
    match (cache.get now lookup.key lookup.maxAgeMs).2 with
    | some entry => .hit entry
    | none => .miss

/-- The result `respondFromCache` makes of an entry. -/
def hitResult {ρ : Type*} (p : Platform ρ) (entry : CachedResponse) : ProxyResult :=
  ⟨.response, .cloud, some ⟨entry.status⟩, none, some (p.toUtf8 entry.body)⟩

def CacheStatus.cached {ρ : Type*} (p : Platform ρ) : CacheStatus → Option ProxyResult
  | hit entry => some (hitResult p entry)
  | _ => none

/-- The headers of the response that is sent on. -/
def CacheStatus.upstreamHeaders {ρ : Type*} (outside : Outside ρ) (result : ProxyResult) :
    CacheStatus → List (String × List Char)
  | hit entry => [("content-type", entry.contentType.toList)]
  | _ => outside.responseHeaders result

section Handle

variable {ρ : Type*} [DecidableEq ρ] (p : Platform ρ) (config : ApiConfig) (outside : Outside ρ)

/-- `handle` from `dispatch` on. -/
def answerPlan (fuel : ℕ) (request : ClientRequest) (ctx : ProxyContext) (plan : RoutePlan) :
    Option (List Effect) :=
  -- the lifetime is set whether or not the request is cacheable
  let cache := outside.cache.setTtlMs (responseCacheTtlMs p outside.settings)
  let status := cacheStatus cache outside.later (lookupInCache p cache request ctx plan)
  let environment := { outside.routing with cached := status.cached p }
  (handlePlan environment fuel ctx.routeMode plan).map fun
    | (run, answer) =>
      run.log.flatMap
          (attemptEffects config request ctx.upstreamUrl (getBodyBuffer p request)) ++
        match answer with
        | .error rejection => rejectEarly request ctx { rejection with }
        | .ok outcome =>
          respond request ctx run.plan outcome (status.upstreamHeaders outside outcome.result)
            status

/-- `handle`: what the service does for one request. -/
def handleRequest (fuel : ℕ) (request : ClientRequest) : Option (List Effect) :=
  match createContext p request.originalUrl with
  | none => some [.respond { statusCode := 400, headers := ∅, body := .invalidUrl }]
  | some ctx =>
    match authenticate config outside request ctx with
    | (ctx, .error rejection) => some (rejectEarly request ctx rejection)
    | (ctx, .ok ()) =>
      match planRequest p config outside request ctx with
      | (ctx, .error rejection) => some (rejectEarly request ctx rejection)
      | (ctx, .ok plan) => answerPlan p config outside fuel request ctx plan

end Handle

end Proxy
end FirecrawlGateway
