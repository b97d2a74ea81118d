import FirecrawlGateway.ApiKeys.ApiKeysService
import FirecrawlGateway.Common.Crypto
import FirecrawlGateway.Lib.JsonValue

/-!
# The API keys controller

Model of `ApiKeysController` (`apps/api/src/api-keys/api-keys.controller.ts`) and of
`createApiKey`. The requests of the admin come between the sections of `ApiKeysService`, and change
what they change through them. A request whose body is refused changes nothing.
-/

namespace FirecrawlGateway
namespace ApiKeysController

open ApiKeysService (ApiKey ApiKeyLimits)

/-! ## Limits -/

/-- What `apiError(400, message)` throws, or an error of `encryptSettingValue`. -/
inductive Failure
  | badRequest (message : String)
  | thrown (message : String)
deriving DecidableEq, Repr

def maxRateLimitPerMinute : ℕ := 100000

def maxMonthlyQuota : ℕ := 100000000

/-- `new Date(value)` of a string in milliseconds, if it is a date: `TimeClip` bounds it. -/
structure Dates where
  newDate : JsString → Option ℤ
  clipped : ∀ value t, newDate value = some t → -8640000000000000 ≤ t ∧ t ≤ 8640000000000000

/-- A whole number from 1 to `max`; `undefined` leaves the field unchanged, `null` clears it. -/
def parseWhole (max : ℕ) (message : String) :
    Option JsonValue → Except Failure (Option (Option ℕ))
  | none => .ok none
  | some .null => .ok (some none)
  | some (.number (.finite q)) =>
    if q.den = 1 ∧ 1 ≤ q ∧ q ≤ max then .ok (some (some q.num.toNat))
    else .error (.badRequest message)
  | some _ => .error (.badRequest message)

def parseRateLimit : Option JsonValue → Except Failure (Option (Option ℕ)) :=
  parseWhole maxRateLimitPerMinute
    "rate_limit_per_minute must be an integer between 1 and 100000, or null"

def parseMonthlyQuota : Option JsonValue → Except Failure (Option (Option ℕ)) :=
  parseWhole maxMonthlyQuota "monthly_quota must be an integer between 1 and 100000000, or null"

def parseExpiresAt (dates : Dates) (now : ℤ) :
    Option JsonValue → Except Failure (Option (Option ℤ))
  | none => .ok none
  | some .null => .ok (some none)
  | some (.string value) =>
    match dates.newDate value with
    | none => .error (.badRequest "expires_at must be a valid ISO timestamp")
    | some date =>
      if date ≤ now then .error (.badRequest "expires_at must be in the future")
      else .ok (some (some date))
  | some _ => .error (.badRequest "expires_at must be an ISO timestamp or null")

def parseLimits (dates : Dates) (now : ℤ) (body : JsonValue) : Except Failure ApiKeyLimits := do
  let expiresAt ← parseExpiresAt dates now (body.member "expires_at")
  let rateLimitPerMinute ← parseRateLimit (body.member "rate_limit_per_minute")
  let monthlyQuota ← parseMonthlyQuota (body.member "monthly_quota")
  pure ⟨expiresAt, rateLimitPerMinute, monthlyQuota⟩

/-! ## New keys -/

/-- The configuration and the functions of others. -/
structure Config where
  dates : Dates
  aes : Aes256Gcm
  firecrawlKeysEncryptionKey : String
  hashApiKey : String → String

/-- What a call of `createApiKey` draws: 32 bytes of the key, an id, and the `iv` of a value. -/
structure Drawn where
  bytes : List UInt8
  id : String
  iv : List UInt8

/-- A key that is being created. -/
structure Creation where
  id : String
  name : String
  key : String
  keyValue : String
  limits : ApiKeyLimits
deriving DecidableEq, Repr

/-- `createApiKey` up to its `await`. -/
def createApiKey (c : Config) (drawn : Drawn) (name : String) (limits : ApiKeyLimits) :
    Except Failure Creation :=
  let key := "fc_" ++ String.ofList (Base64Url.encode drawn.bytes)
  match encryptSettingValue c.aes key c.firecrawlKeysEncryptionKey drawn.iv with
  | .ok keyValue => .ok ⟨drawn.id, name, key, keyValue, limits⟩
  | .error message => .error (.thrown message)

/-- The row that is inserted; the table has the defaults. -/
def Creation.row (c : Config) (creation : Creation) (now : ℤ) : ApiKey where
  id := creation.id
  name := creation.name
  keyHash := c.hashApiKey creation.key
  keyValue := some creation.keyValue
  keyPrefix := String.ofList (creation.key.toList.take 8)
  revoked := false
  createdAt := now
  updatedAt := now
  lastUsedAt := none
  expiresAt := creation.limits.expiresAt.getD none
  rateLimitPerMinute := creation.limits.rateLimitPerMinute.getD none
  monthlyQuota := creation.limits.monthlyQuota.getD none

/-! ## Requests -/

/-- `create` up to its `await`. -/
def create (c : Config) (drawn : Drawn) (now : ℤ) (body : JsonValue) : Except Failure Creation :=
  match body.member "name" with
  | some (.string name) =>
    -- the empty name is falsy
    if name = [] then .error (.badRequest "name is required")
    else do
      let limits ← parseLimits c.dates now body
      createApiKey c drawn (JsString.toText name) limits
  | _ => .error (.badRequest "name is required")

/-- What `update` asks of the service. -/
def update (c : Config) (now : ℤ) (body : JsonValue) : Except Failure ApiKeyLimits := do
  let limits ← parseLimits c.dates now body
  if limits.expiresAt = none ∧ limits.rateLimitPerMinute = none ∧ limits.monthlyQuota = none then
    throw (.badRequest "expires_at, rate_limit_per_minute, or monthly_quota is required")
  else pure limits

/-! ## Interleavings -/

/-- The service, and the calls of `create` at their `await`. -/
structure System where
  service : ApiKeysService.System
  creations : ℕ → Option Creation := fun _ => none

/-- The limits that the controller accepts. -/
def InBounds (rateLimitPerMinute monthlyQuota : Option ℕ) : Prop :=
  (∀ n ∈ rateLimitPerMinute, 1 ≤ n ∧ n ≤ maxRateLimitPerMinute) ∧
    ∀ n ∈ monthlyQuota, 1 ≤ n ∧ n ≤ maxMonthlyQuota

instance (rateLimitPerMinute monthlyQuota : Option ℕ) :
    Decidable (InBounds rateLimitPerMinute monthlyQuota) :=
  inferInstanceAs (Decidable (_ ∧ _))

/-- The requests of the admin by number, and every other section of the service. Other instances
have a controller of their own, so that they keep the limits in bounds, too. -/
inductive Event
  | create (call : ℕ) (drawn : Drawn) (now : ℤ) (body : JsonValue)
  /-- The database takes the insert of a call of `create`, or refuses it. -/
  | inserts (call : ℕ) (now : ℤ)
  | refuses (call : ℕ)
  | update (call : ℕ) (id : String) (now : ℤ) (body : JsonValue)
  | revoke (call : ℕ) (id : String)
  | service (event : ApiKeysService.Event)

/-- The events of the service that come from elsewhere than from this controller. -/
def Elsewhere : ApiKeysService.Event → Prop
  | .creates row => InBounds row.rateLimitPerMinute row.monthlyQuota
  | .changes _ (.limits limits) _ =>
    InBounds (limits.rateLimitPerMinute.getD none) (limits.monthlyQuota.getD none)
  | .revokeApiKey _ _ => False
  | .updateApiKeyLimits _ _ _ => False
  | _ => True

instance : DecidablePred Elsewhere := fun e =>
  match e with
  | .creates _ => inferInstanceAs (Decidable (InBounds _ _))
  | .changes _ (.limits _) _ => inferInstanceAs (Decidable (InBounds _ _))
  | .changes _ .revoke _ => isTrue trivial
  | .changes _ (.touch _) _ => isTrue trivial
  | .revokeApiKey _ _ => isFalse id
  | .updateApiKeyLimits _ _ _ => isFalse id
  | .validateApiKey .. => isTrue trivial
  | .query _ => isTrue trivial
  | .fulfil _ => isTrue trivial
  | .reject _ => isTrue trivial
  | .goOn .. => isTrue trivial
  | .returns _ => isTrue trivial
  | .execute .. => isTrue trivial
  | .resolves _ => isTrue trivial
  | .rejects _ => isTrue trivial
  | .clearValidationCache => isTrue trivial

def setCreation (s : System) (call : ℕ) (creation : Option Creation) : System :=
  { s with creations := Function.update s.creations call creation }

/-- A section of the service. -/
def serve (c : Config) (s : System) (event : ApiKeysService.Event) : Option System :=
  (ApiKeysService.step c.hashApiKey s.service event).map fun service =>
    { s with service := service }

def step (c : Config) (s : System) : Event → Option System
  | .create call drawn now body =>
    if s.creations call ≠ none then none
    else
      match create c drawn now body with
      | .ok creation => some (setCreation s call (some creation))
      -- the request is refused before it comes to the service
      | .error _ => some s
  | .inserts call now =>
    match s.creations call with
    | some creation => serve c (setCreation s call none) (.creates (creation.row c now))
    | none => none
  | .refuses call =>
    match s.creations call with
    | some _ => some (setCreation s call none)
    | none => none
  | .update call id now body =>
    match update c now body with
    | .ok limits => serve c s (.updateApiKeyLimits call id limits)
    | .error _ => some s
  | .revoke call id => serve c s (.revokeApiKey call id)
  | .service event => if Elsewhere event then serve c s event else none

end ApiKeysController
end FirecrawlGateway
