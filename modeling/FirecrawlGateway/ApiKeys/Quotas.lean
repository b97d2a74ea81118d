import FirecrawlGateway.ApiKeys.ApiKeysService
import FirecrawlGateway.Common.SharedRateLimits
import FirecrawlGateway.Lib.UtcCalendar

/-!
# Rate limits and monthly quotas of API keys

Model of `quotaWindow`, `hitRateLimit`, `hitQuota` and `quotaUsage` of `ApiKeysService`
(`apps/api/src/api-keys/api-keys.service.ts`), over the counters that share a table. A
`GatewayEvent` is a request that reaches one of the limiters, or anything else that counters, the
database and the cleanup do.
-/

namespace FirecrawlGateway
namespace Quotas

open RateLimitCounter UtcCalendar
open ApiKeysService (ApiKeyRecord)

/-! ## Windows -/

structure QuotaWindow where
  counterKey : String
  /-- `none` for an invalid date. -/
  resetAt : Option ℤ
deriving DecidableEq, Repr

/-- `String(month + 1).padStart(2, "0")`. -/
def monthText (month : ℤ) : String :=
  if month + 1 < 10 then "0" ++ toString (month + 1) else toString (month + 1)

def quotaWindow (keyId : String) (now : ℤ) : QuotaWindow :=
  let year := utcFullYear now
  let month := utcMonth now
  { counterKey := "quota:" ++ keyId ++ ":" ++ toString year ++ "-" ++ monthText month
    resetAt := utc year (month + 1) 1 }

/-! ## Limits -/

/-- `ApiKeyRateLimitResult`. -/
structure ApiKeyRateLimitResult where
  limit : ℕ
  remaining : ℕ
  resetAt : ℤ
  exceeded : Bool
deriving DecidableEq, Repr

/-- What `hitRateLimit` and `hitQuota` make of a hit. -/
def limitResult (limit count : ℕ) (resetAt : ℤ) : ApiKeyRateLimitResult where
  limit := limit
  remaining := limit - count
  resetAt := resetAt
  exceeded := limit < count

/-- A request at a limiter: of a client address in `RateLimitMiddleware`, or of an API key in
`hitRateLimit` or `hitQuota`, which reads the clock before `hit` does. -/
inductive Call
  | client (ip : String)
  | rateLimit (key : ApiKeyRecord)
  | quota (key : ApiKeyRecord) (readAt : ℤ)
deriving DecidableEq, Repr

/-- The `hit` that a request makes; a key without the limit makes none. -/
def Call.hit (now : ℤ) : Call → Option Event
  | .client ip => some (.hit ip none now)
  | .rateLimit key => key.rateLimitPerMinute.map fun _ => .hit ("key:" ++ key.id) none now
  | .quota key readAt => key.monthlyQuota.map fun _ =>
    .hit (quotaWindow key.id readAt).counterKey (quotaWindow key.id readAt).resetAt now

/-- `quotaUsage` for one key: a row that has not ended. -/
def quotaUsage (table : String → Option Row) (keyId : String) (now : ℤ) : Option ℕ :=
  ((table (quotaWindow keyId now).counterKey).filter (1000 * now < ·.resetAt)).map Row.count

/-! ## Runs -/

variable {ι : Type}

/-- A request at counter `i`, or what happens besides. -/
inductive GatewayEvent (ι : Type)
  | request (i : ι) (call : Call) (now : ℤ)
  | other (e : ClusterEvent ι)

/-- Whether an event is a hit. -/
def isHit : ClusterEvent ι → Bool
  | .act _ (.hit ..) => true
  | _ => false

/-- What an event is for the counters, where hits come from requests only. -/
def GatewayEvent.toCluster : GatewayEvent ι → Option (ClusterEvent ι)
  | .request i call now => (call.hit now).map (.act i)
  | .other e => if isHit e then none else some e

def gatewayStep [DecidableEq ι] (o : ι → Options) (s : Cluster ι) (e : GatewayEvent ι) :
    Option (Cluster ι) :=
  e.toCluster.bind (clusterStep o s)

/-- A request of API key `keyId` at its quota in the UTC month of `now`. -/
def GatewayEvent.isQuotaCall (keyId : String) (now : ℤ) : GatewayEvent ι → Bool
  | .request _ (.quota key readAt) _ => key.id = keyId ∧ utcFullYear readAt = utcFullYear now ∧
      utcMonth readAt = utcMonth now
  | _ => false

/-- A request of a client whose address is this text: behind a trusted proxy it is the client's
own `X-Forwarded-For`, and is counted without a prefix in the table that has the quotas. -/
def GatewayEvent.isClientAt (text : String) : GatewayEvent ι → Bool
  | .request _ (.client ip) _ => ip = text
  | _ => false

end Quotas
end FirecrawlGateway
