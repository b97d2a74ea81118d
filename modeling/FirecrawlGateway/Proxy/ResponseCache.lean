import FirecrawlGateway.Lib.JsMap
import FirecrawlGateway.Proxy.Policy

/-!
# The response cache

Model of `apps/api/src/proxy/response-cache.ts`. Parameters are the platform's: `JSON.parse`, how
a number is written, and SHA-256 of a text. The texts that are hashed are those of JSON, which has
no lone surrogates, and are lists of characters.
-/

namespace FirecrawlGateway
namespace Proxy

/-- `MAX_CACHED_ENTRY_BYTES`. -/
def maxCachedEntryBytes : ℕ := 2 * 1024 * 1024

/-- `MAX_INSPECTED_BODY_BYTES`. -/
def maxInspectedBodyBytes : ℕ := 64 * 1024

/-- What `/^\/v[12]\/scrape\/?$/` matches. -/
def scrapePaths : List String := ["/v1/scrape", "/v1/scrape/", "/v2/scrape", "/v2/scrape/"]

/-- `UNCACHEABLE_FIELDS`. -/
def uncacheableFields : List String :=
  ["actions", "headers", "profile", "changeTracking", "lockdown", "minAge"]

/-- `CONTROL_FIELDS`. -/
def controlFields : List JsString := [JsString.lit "maxAge", JsString.lit "storeInCache"]

/-! ## The key of a request -/

section CanonicalJson

variable (numberToString : ℚ → List Char)

/-- `JSON.stringify` of a number. -/
def stringifyNumber : JsNumber → List Char
  | .finite value => numberToString value
  | .negativeZero => ['0']
  | .infinite _ => "null".toList

/-- The members in the order of their keys, by code units. -/
def sortMembers (members : List (JsString × List Char)) : List (JsString × List Char) :=
  members.insertionSort fun left right => left.1 ≤ right.1

/-- `key:value`. -/
def canonicalMember (entry : JsString × List Char) : List Char :=
  JsString.quote entry.1 ++ ':' :: entry.2

mutual

def canonicalJson : JsonValue → List Char
  | .null => "null".toList
  | .bool b => (if b then "true" else "false").toList
  | .number n => stringifyNumber numberToString n
  | .string s => JsString.quote s
  | .array items => '[' :: [','].intercalate (canonicalItems items) ++ [']']
  | .object members =>
    '{' :: [','].intercalate ((sortMembers (canonicalMembers members)).map canonicalMember) ++ ['}']

def canonicalItems : List JsonValue → List (List Char)
  | [] => []
  | item :: items => canonicalJson item :: canonicalItems items

def canonicalMembers : List (JsString × JsonValue) → List (JsString × List Char)
  | [] => []
  | (key, item) :: members => (key, canonicalJson item) :: canonicalMembers members

end

end CanonicalJson

/-- `CacheEligibilityInput`. -/
structure CacheEligibilityInput where
  method : String
  upstreamUrl : String
  path : String
  headers : Headers
  apiKeyId : Option String
  bodyBuffer : List UInt8
  initialBackend : Backend
  needsCloud : NeedsCloudResult
  privacy : PrivacyFlags

/-- `CacheLookup`; `maxAgeMs` is `none` for `null`. -/
structure CacheLookup (ρ : Type*) where
  key : ρ
  maxAgeMs : Option ℚ

/-- The platform's functions that the key of a request is made with. -/
structure Hashing (ρ : Type*) where
  jsonParse : List UInt8 → Except String JsonValue
  numberToString : ℚ → List Char
  sha256 : List Char → ρ

/-- The part of the body a cache key is made of. -/
def keyMaterial (fields : List (JsString × JsonValue)) : JsonValue :=
  .object (fields.filter fun entry => entry.1 ∉ controlFields)

variable {ρ : Type*}

/-- The text that is hashed. -/
def keyText (numberToString : ℚ → List Char) (apiKeyId upstreamUrl : String)
    (material : JsonValue) : List Char :=
  apiKeyId.toList ++ '\n' :: (upstreamUrl.toList ++ '\n' :: canonicalJson numberToString material)

/-- The `maxAge` a lookup is made with: `none` where the request is not cacheable. -/
def requestMaxAge : Option JsonValue → Option (Option ℚ)
  | none => some none
  | some (.number (.finite maxAge)) => if maxAge = 0 then none else some (some maxAge)
  | some _ => none

/-- The end of `cacheLookupFor`, for a body that is an object. -/
def lookupForFields (h : Hashing ρ) (apiKeyId upstreamUrl : String)
    (fields : List (JsString × JsonValue)) : Option (CacheLookup ρ) :=
  let body := JsonValue.object fields
  match body.member "url" with
  | some (.string _) =>
    if uncacheableFields.any fun name => (body.member name).isSome then none
    else if body.member "zeroDataRetention" matches some (.bool true) then none
    else if body.member "storeInCache" matches some (.bool false) then none
    else (requestMaxAge (body.member "maxAge")).map fun maxAgeMs =>
      { key := h.sha256 (keyText h.numberToString apiKeyId upstreamUrl (keyMaterial fields))
        maxAgeMs := maxAgeMs }
  | _ => none

def cacheLookupFor (h : Hashing ρ) (input : CacheEligibilityInput) : Option (CacheLookup ρ) :=
  if input.method ≠ "POST" ∨ input.path ∉ scrapePaths then none
  else match input.apiKeyId with
    | none => none
    | some apiKeyId =>
      let cacheControl := toLowerCase (input.headers.get "cache-control").toText
      if apiKeyId = "" then none
      else if input.initialBackend ≠ .cloud ∨ input.needsCloud.required then none
      else if input.privacy.hasSensitiveHeaders || input.privacy.hasPrivateTargetUrl then none
      else if includes cacheControl "no-cache" || includes cacheControl "no-store" then none
      else if input.bodyBuffer = [] ∨ maxInspectedBodyBytes < input.bodyBuffer.length then none
      else match h.jsonParse input.bodyBuffer with
        | .ok (.object fields) => lookupForFields h apiKeyId input.upstreamUrl fields
        | _ => none

/-! ## `ResponseCache` -/

structure CachedResponse where
  status : ℕ
  contentType : String
  body : List UInt8
  storedAt : ℤ
deriving DecidableEq

structure ResponseCache (ρ : Type*) where
  entries : JsMap ρ CachedResponse
  totalBytes : ℤ := 0
  ttlMs : ℤ
  maxBytes : ℕ

namespace ResponseCache

variable [DecidableEq ρ]

def enabled (c : ResponseCache ρ) : Bool := c.ttlMs > 0 && c.maxBytes > 0

def setTtlMs (c : ResponseCache ρ) (ttlMs : ℤ) : ResponseCache ρ :=
  if ttlMs = c.ttlMs then c
  -- a cache that is turned off forgets what it has
  else if ttlMs ≤ 0 then { c with ttlMs := ttlMs, entries := ∅, totalBytes := 0 }
  else { c with ttlMs := ttlMs }

def remove (c : ResponseCache ρ) (key : ρ) (entry : CachedResponse) : ResponseCache ρ :=
  if c.entries.get key = some entry then
    { c with entries := c.entries.delete key, totalBytes := c.totalBytes - entry.body.length }
  else c

/-- `get`; `now` is what the clock says. -/
def get (c : ResponseCache ρ) (now : ℤ) (key : ρ) (maxAgeMs : Option ℚ) :
    ResponseCache ρ × Option CachedResponse :=
  match c.entries.get key with
  | none => (c, none)
  | some entry =>
    let age := now - entry.storedAt
    if age ≥ c.ttlMs then (c.remove key entry, none)
    else if maxAgeMs.any fun maxAge => (age : ℚ) > maxAge then (c, none)
    -- the entry moves to the end
    else ({ c with entries := (c.entries.delete key).set key entry }, some entry)

/-- The loop of `set`: every round evicts the oldest of the remaining entries. -/
def evict : ℕ → ResponseCache ρ → ResponseCache ρ
  | 0, c => c
  | rounds + 1, c =>
    if c.totalBytes > c.maxBytes then
      match c.entries.entries.head? with
      | none => c
      | some (key, entry) => evict rounds (c.remove key entry)
    else c

def set (c : ResponseCache ρ) (key : ρ) (entry : CachedResponse) : ResponseCache ρ :=
  if !c.enabled ∨ entry.body.length > maxCachedEntryBytes then c
  else if entry.body.length > c.maxBytes then c
  else
    -- the bytes of a replaced entry are given back first
    let c := match c.entries.get key with
      | none => c
      | some previous => c.remove key previous
    let entries := c.entries.set key entry
    evict entries.size
      { c with entries := entries, totalBytes := c.totalBytes + entry.body.length }

end ResponseCache

end Proxy
end FirecrawlGateway
