import FirecrawlGateway.Credits.CreditRoutingService
import FirecrawlGateway.Lib.DoubleArithmetic
import FirecrawlGateway.Settings.SettingsController

/-!
# The maintenance run

Model of `CronService.runMaintenance` (`apps/api/src/cron/cron.service.ts`) on the rows of the
tables it changes.
-/

namespace FirecrawlGateway
namespace CronService

open CloudKeySetting (loadCloudKeyEntries)
open CreditRouting (CreditUsageDetails)
open NumberText (multiply subtract timeClip toNumber)
open SettingsController (SettingKey Table)
open SettingsService (Statement)

/-! ## Tables -/

/-- A row of `api_keys`, with its times in milliseconds. -/
structure ApiKeyRow where
  id : String
  revoked : Bool
  createdAt : ℤ
  lastUsedAt : Option ℤ
deriving DecidableEq, Repr

/-- A row of `rate_limits`. -/
structure RateLimitRow where
  key : String
  resetAt : ℤ
deriving DecidableEq, Repr

/-- A row of `audit_logs`. -/
structure AuditLogRow where
  id : String
  createdAt : ℤ
deriving DecidableEq, Repr

structure Database where
  apiKeys : List ApiKeyRow
  rateLimits : List RateLimitRow
  auditLogs : List AuditLogRow
deriving DecidableEq, Repr

/-- Prisma refuses a query with an invalid date; it is assumed that the database takes every query
with a valid one. -/
inductive Failure
  | invalidDate
deriving DecidableEq, Repr

/-- What the clocks say in a run: `Date.now()` in the step that revokes keys and in the one that
prunes audit logs, and `NOW()` of the database. -/
structure Clock where
  revocation : ℤ
  retention : ℤ
  database : ℤ
deriving DecidableEq, Repr

/-- `SELECT ... WHERE expired ORDER BY time ASC LIMIT limit`. -/
def oldest {Row : Type} (time : Row → ℤ) (expired : Row → Bool) (limit : ℕ) (rows : List Row) :
    List Row :=
  ((rows.filter expired).mergeSort fun a b => time a ≤ time b).take limit

/-- `DELETE ... WHERE key IN (SELECT key ...)`, and the number of rows that it returns. -/
def deleteOldest {Row : Type} (key : Row → String) (time : Row → ℤ) (expired : Row → Bool)
    (limit : ℕ) (rows : List Row) : ℕ × List Row :=
  let selected := (oldest time expired limit rows).map key
  ((rows.filter (key · ∈ selected)).length, rows.filter (key · ∉ selected))

/-! ## `refreshCreditUsage` -/

/-- What the run is given: the cipher and its key, what `randomBytes(12)` gives, and what
`refreshCreditUsageForKeys` answers or throws. -/
structure Surroundings where
  aes : Aes256Gcm
  firecrawlKeysEncryptionKey : String
  iv : List UInt8
  refreshCreditUsageForKeys : List JsString → Except String (List CreditUsageDetails)

/-- The number of keys whose credits are known now; an error is caught. -/
def refreshCreditUsage (call : Surroundings) (settings : Table) : Option Statement × ℕ :=
  match (settings .firecrawlApiKeys).filter (· ≠ "") with
  | none => (none, 0)
  | some value =>
    match loadCloudKeyEntries call.aes value call.firecrawlKeysEncryptionKey call.iv with
    | (migration, .error _) => (migration, 0)
    | (migration, .ok entries) =>
      match call.refreshCreditUsageForKeys (entries.map CloudKeySetting.KeyEntry.key) with
      | .error _ => (migration, 0)
      | .ok details =>
        (migration, (details.filter fun item =>
          item.error.getD "" = "" ∧ item.remainingCredits.isSome).length)

/-! ## `revokeInactiveKeys` -/

/-- `days * 24 * 60 * 60 * 1000`. -/
def milliseconds (days : JsNumber) : Option JsNumber := do
  let hours ← multiply days (.finite 24)
  let minutes ← multiply hours (.finite 60)
  let seconds ← multiply minutes (.finite 60)
  multiply seconds (.finite 1000)

/-- The `threshold` for a value of the setting: `none` where the step is skipped, and `some none`
for an invalid date. -/
def inactivityThreshold (now : ℤ) (value : Option String) : Option (Option ℤ) :=
  match value.bind toNumber with
  | some (.finite days) =>
    if days ≤ 0 then none
    else some (((milliseconds (.finite days)).bind (subtract (.finite now))).bind timeClip)
  | _ => none

/-- The keys that `updateMany` revokes. -/
def inactive (threshold : ℤ) (row : ApiKeyRow) : Bool :=
  !row.revoked && row.createdAt < threshold && row.lastUsedAt.all (· < threshold)

def revokeInactiveKeys (now : ℤ) (settings : Table) (db : Database) :
    Database × Except Failure ℕ :=
  match inactivityThreshold now (settings .apiKeyInactivityRevokeDays) with
  | none => (db, .ok 0)
  | some none => (db, .error .invalidDate)
  | some (some threshold) =>
    ({ db with apiKeys := db.apiKeys.map fun row =>
        if inactive threshold row then { row with revoked := true } else row },
      .ok (db.apiKeys.countP (inactive threshold)))

/-! ## Pruning -/

def auditRetentionDays : ℤ := 30

def pruneBatchSize : ℕ := 5000

def maxPruneBatches : ℕ := 20

/-- The batches of `pruneBatched`, at most `batches` of them. -/
def pruneBatches {Row : Type} (runBatch : List Row → ℕ × List Row) :
    ℕ → ℕ → List Row → ℕ × List Row
  | 0, total, rows => (total, rows)
  | batches + 1, total, rows =>
    let (deleted, rows) := runBatch rows
    if deleted < pruneBatchSize then (total + deleted, rows)
    else pruneBatches runBatch batches (total + deleted) rows

def pruneBatched {Row : Type} (runBatch : List Row → ℕ × List Row) (rows : List Row) :
    ℕ × List Row :=
  pruneBatches runBatch maxPruneBatches 0 rows

/-- `reset_at < NOW()`. -/
def expired (now : ℤ) (row : RateLimitRow) : Bool := row.resetAt < now

def deleteExpiredRateLimits (now : ℤ) (db : Database) : Database × ℕ :=
  let (deleted, rows) := pruneBatched
    (deleteOldest RateLimitRow.key RateLimitRow.resetAt (expired now) pruneBatchSize) db.rateLimits
  ({ db with rateLimits := rows }, deleted)

/-- `created_at < cutoff`. -/
def old (cutoff : ℤ) (row : AuditLogRow) : Bool := row.createdAt < cutoff

/-- `new Date(Date.now() - AUDIT_RETENTION_DAYS * 24 * 60 * 60 * 1000)`. -/
def auditCutoff (now : ℤ) : Option ℤ :=
  ((milliseconds (.finite auditRetentionDays)).bind (subtract (.finite now))).bind timeClip

def pruneOldAuditLogs (now : ℤ) (db : Database) : Database × Except Failure ℕ :=
  match auditCutoff now with
  | none => (db, .error .invalidDate)
  | some cutoff =>
    let (deleted, rows) := pruneBatched
      (deleteOldest AuditLogRow.id AuditLogRow.createdAt (old cutoff) pruneBatchSize) db.auditLogs
    ({ db with auditLogs := rows }, .ok deleted)

/-! ## `runMaintenance` -/

structure Report where
  revoked : ℕ
  rateLimitsDeleted : ℕ
  auditLogsDeleted : ℕ
  creditUsageRefreshed : ℕ
deriving DecidableEq, Repr

def runMaintenance (call : Surroundings) (clock : Clock) (settings : Table) (db : Database) :
    Database × Except Failure Report :=
  let (_, creditUsageRefreshed) := refreshCreditUsage call settings
  match revokeInactiveKeys clock.revocation settings db with
  | (db, .error failure) => (db, .error failure)
  | (db, .ok revoked) =>
    let (db, rateLimitsDeleted) := deleteExpiredRateLimits clock.database db
    match pruneOldAuditLogs clock.retention db with
    | (db, .error failure) => (db, .error failure)
    | (db, .ok auditLogsDeleted) =>
      (db, .ok ⟨revoked, rateLimitsDeleted, auditLogsDeleted, creditUsageRefreshed⟩)

end CronService
end FirecrawlGateway
