import FirecrawlGateway.Common.Utils
import Mathlib.Data.List.Infix

/-!
# The routing policy

Model of the routing decisions of `apps/api/src/proxy/policy.ts`, with the types they share
with the proxy service. A body is the text that `toString("utf8")` gives.
-/

namespace FirecrawlGateway
namespace Proxy

/-! ## Types -/

inductive RouteMode
  | selfHostedFirst
  | selfHostedOnly
  | cloudFirst
  | cloudOnly
  | hybrid
deriving DecidableEq, Repr

inductive Backend
  | cloud
  | selfHosted
deriving DecidableEq, Repr

/-- `InitialBackend`: a backend, or no way to serve the request. -/
inductive InitialBackend
  | cloud
  | selfHosted
  | reject
deriving DecidableEq, Repr

inductive CloudKeyRole
  | cloud
  | fallback
deriving DecidableEq, Repr

structure CloudKeyEntry where
  key : String
  role : CloudKeyRole
deriving DecidableEq, Repr

structure NeedsCloudResult where
  required : Bool
  reason : String
deriving DecidableEq, Repr

structure PrivacyFlags where
  hasSensitiveHeaders : Bool
  hasPrivateTargetUrl : Bool
deriving DecidableEq, Repr

inductive ResultKind
  | response
  | networkError
deriving DecidableEq, Repr

structure Response where
  status : ℕ
deriving DecidableEq, Repr

/-- `ProxyResult`, less the streams and what is sent to the client for a network error; `error`
is the message of the error. -/
structure ProxyResult where
  kind : ResultKind
  backend : Backend
  response : Option Response := none
  error : Option String := none
  body : Option (List Char) := none
deriving DecidableEq, Repr

/-! ## What a request asks for -/

/-- What follows `^\/v\d+\/` in the path. -/
def afterVersion (pathname : List Char) : Option (List Char) :=
  match "/v".toList.isPrefixOf? pathname with
  | none => none
  | some rest =>
    match rest.dropWhile Char.isDigit with
    -- `\d+` needs a digit
    | '/' :: path => if rest.head?.any Char.isDigit then some path else none
    | _ => none

/-- The word, then `(?:\/|$)`. -/
def startsWithSegment (path : List Char) (word : String) : Bool :=
  match word.toList.isPrefixOf? path with
  | none => false
  | some rest => rest.head?.all (· = '/')

/-- The first word, then `\/[^/]+\/`, the second word and `(?:\/|$)`. -/
def startsWithSegments (path : List Char) (first second : String) : Bool :=
  match (first ++ "/").toList.isPrefixOf? path with
  | none => false
  | some rest =>
    match rest.dropWhile (· ≠ '/') with
    | '/' :: tail => rest.head?.any (· ≠ '/') && startsWithSegment tail second
    | _ => false

/-- A pattern of `cloudOnlyPathPatterns` matches. -/
def isCloudOnlyPath (pathname : String) : Bool :=
  (afterVersion pathname.toList).any fun path =>
    ["agent", "browser", "monitor", "search/research", "research", "support", "team",
        "feedback"].any (startsWithSegment path) ||
      startsWithSegments path "scrape" "interact" ||
      startsWithSegments path "search" "feedback"

/-- Why a value of the body needs Cloud. -/
def cloudReason (value : JsonValue) : Option String :=
  if (value.member "actions").any JsonValue.isNonemptyArray then
    some "actions require Fire-engine-backed Cloud behavior"
  else if (value.member "agent").any JsonValue.truthy then
    some "agent extraction is Cloud-managed"
  else if (value.member "enterprise").any JsonValue.isNonemptyArray then
    some "enterprise search options require Firecrawl Cloud"
  else match value.member "proxy" with
    | some (.string proxy) =>
      if proxy = JsString.lit "stealth" ∨ proxy = JsString.lit "enhanced" then
        some "stealth/enhanced proxy requires Cloud-managed behavior"
      else none
    | _ => none

def requestNeedsCloud (pathname : String) (jsonBody : JsonValue) : NeedsCloudResult :=
  if isCloudOnlyPath pathname then
    ⟨true, "path requires a Firecrawl Cloud managed feature"⟩
  else match jsonBody.walk.findSome? cloudReason with
    | some reason => ⟨true, reason⟩
    | none => ⟨false, ""⟩

/-- The name of a header in a body that makes it sensitive. -/
def isSensitiveName (key : JsString) : Bool :=
  let lower := JsString.toLowerCase key
  lower = JsString.lit "authorization" || lower = JsString.lit "cookie" ||
    lower = JsString.lit "x-api-key" || JsString.includes lower "token" ||
    JsString.includes lower "secret"

/-- A `headers` member with a sensitive name in it; the keys of an array are its indices. -/
def hasSensitiveName : JsonValue → Bool
  | .object members => members.any fun entry => isSensitiveName entry.1
  | _ => false

/-- The name of a header in lower case; names are ASCII. -/
def lowerName (name : String) : List Char := name.toList.map Char.toLower

/-- The request itself has credentials. -/
def hasCredentialHeaders (headers : Headers) : Bool :=
  headers.any fun header =>
    lowerName header.1 = "authorization".toList || lowerName header.1 = "cookie".toList

def hasSensitiveHeaders (headers : Headers) (jsonBody : JsonValue) : Bool :=
  hasCredentialHeaders headers || (findObjectsByKey jsonBody "headers").any hasSensitiveName

example : (["/v1/agent", "/v2/scrape/7/interact/", "/v1/agents", "/v2/scrape//interact"].map fun p =>
    (requestNeedsCloud p .null).required) = [true, true, false, false] := by decide +kernel

/-! ## The first backend and the keys -/

def chooseInitialBackend (routeMode : RouteMode) (needsCloud : NeedsCloudResult) : InitialBackend :=
  match routeMode with
  | .cloudFirst | .cloudOnly | .hybrid => .cloud
  | .selfHostedOnly => if needsCloud.required then .reject else .selfHosted
  | .selfHostedFirst => if needsCloud.required then .cloud else .selfHosted

/-- The result of `selectKeyPools`. -/
structure KeyPools where
  initialBackend : InitialBackend
  cloudApiKeys : List String
  fallbackApiKeys : List String
deriving DecidableEq, Repr

def keysWithRole (entries : List CloudKeyEntry) (role : CloudKeyRole) : List String :=
  (entries.filter (·.role = role)).map CloudKeyEntry.key

def selectKeyPools (routeMode : RouteMode) (initialBackend : InitialBackend)
    (needsCloud : NeedsCloudResult) (entries : List CloudKeyEntry) : KeyPools :=
  if routeMode ≠ .hybrid then ⟨initialBackend, entries.map CloudKeyEntry.key, []⟩
  else
    let cloudApiKeys := keysWithRole entries .cloud
    let fallbackApiKeys := keysWithRole entries .fallback
    if cloudApiKeys ≠ [] then ⟨initialBackend, cloudApiKeys, fallbackApiKeys⟩
    -- with no Cloud-role key, Cloud is only for what needs it
    else ⟨if needsCloud.required then .cloud else .selfHosted, fallbackApiKeys, []⟩

/-! ## Falling back -/

def isFallbackAllowed (routeMode : RouteMode) (privacy : PrivacyFlags) : Bool :=
  (routeMode = .selfHostedFirst || routeMode = .hybrid) &&
    !privacy.hasSensitiveHeaders && !privacy.hasPrivateTargetUrl

def mayUseCloudKeys (initialBackend : InitialBackend) (routeMode : RouteMode)
    (privacy : PrivacyFlags) : Bool :=
  initialBackend = .cloud ||
    (initialBackend = .selfHosted && isFallbackAllowed routeMode privacy)

def isCloudQuotaFallbackAllowed (routeMode : RouteMode) (needsCloud : NeedsCloudResult) : Bool :=
  (routeMode = .cloudFirst || routeMode = .hybrid) && !needsCloud.required

/-! ## What a failed answer says

The text is only searched for ASCII words, so of `toLowerCase` only the characters matter that
become ASCII: the ASCII letters, the Kelvin sign and the dotted capital I.
-/

def toLowerCase (text : List Char) : List Char :=
  text.flatMap fun c =>
    if c.val = 0x212A then ['k']
    else if c.val = 0x0130 then ['i', Char.ofNat 0x0307]
    else [c.toLower]

/-- `text.includes(word)`. -/
def includes (text : List Char) (word : String) : Bool := word.toList <:+: text

/-- `\w`. -/
def isWordChar (c : Char) : Bool := c.isAlphanum || c = '_'

/-- `\s`. -/
def isSpaceChar (c : Char) : Bool :=
  c.val ∈ [0x09, 0x0A, 0x0B, 0x0C, 0x0D, 0x20, 0xA0, 0x1680, 0x2028, 0x2029, 0x202F, 0x205F,
    0x3000, 0xFEFF] || (0x2000 ≤ c.val && c.val ≤ 0x200A)

/-- `\b` before a text that goes on with no word character. -/
def endsWord (rest : List Char) : Bool := rest.head?.all fun c => !isWordChar c

def httpMethods : List String := ["get", "post", "put", "patch", "delete", "head", "options"]

/-- `cannot\s+(?:get|post|put|patch|delete|head|options)\b` at the start of the text. -/
def startsCannotMethod (text : List Char) : Bool :=
  match "cannot".toList.isPrefixOf? text with
  | none => false
  | some rest =>
    rest.head?.any isSpaceChar && httpMethods.any fun m =>
      match m.toList.isPrefixOf? (rest.dropWhile isSpaceChar) with
      | none => false
      | some rest => endsWord rest

/-- `/\bcannot\s+(?:…)\b/.test(text)`, where `boundary` says that no word character precedes. -/
def matchesCannotMethod (boundary : Bool) : List Char → Bool
  | [] => false
  | c :: text =>
    (boundary && startsCannotMethod (c :: text)) || matchesCannotMethod (!isWordChar c) text

/-- What the body of an unsupported request says. -/
def saysUnsupported (text : List Char) : Bool :=
  includes text "fire-engine" ||
  includes text "not configured" ||
  includes text "not supported" ||
  includes text "unsupported" ||
  matchesCannotMethod true text ||
  includes text "actions" ||
  includes text "screenshot" ||
  includes text "branding"

def isFallbackEligible (result : ProxyResult) : Bool :=
  if result.kind = .networkError then true
  else match result.response with
    | none => false
    | some response =>
      if response.status ≥ 500 then true
      else response.status ≥ 400 && saysUnsupported (toLowerCase (result.body.getD []))

example : isFallbackEligible ⟨.response, .selfHosted, some ⟨404⟩, none,
    some "Cannot POST /v2/agent".toList⟩ = true := by decide +kernel

end Proxy
end FirecrawlGateway
