import FirecrawlGateway.ApiKeys.ApiKeysService
import FirecrawlGateway.Cron.CronService

/-!
# The inactivity step beside the API keys service

Model of one instance on which `revokeInactiveKeys` (`apps/api/src/cron/cron.service.ts`) runs while
`ApiKeysService` answers requests. The step sends one `updateMany` to the database and does not
call the service, so that it leaves `validationCache` and `validationInFlight` alone.
-/

namespace FirecrawlGateway
namespace InactivitySweep

open ApiKeysService (ApiKey Change System Table)
open CronService (ApiKeyRow inactive inactivityThreshold)

/-! ## The statement -/

/-- The fields that the step reads. -/
def apiKeyRow (row : ApiKey) : ApiKeyRow where
  id := row.id
  revoked := row.revoked
  createdAt := row.createdAt
  lastUsedAt := row.lastUsedAt

/-- A row after `updateMany({ where, data: { revoked: true } })`. -/
def sweepRow (threshold now : ℤ) (row : ApiKey) : ApiKey :=
  if inactive threshold (apiKeyRow row) then Change.revoke.apply now row else row

lemma sweepRow_id (threshold now : ℤ) (row : ApiKey) : (sweepRow threshold now row).id = row.id := by
  unfold sweepRow
  split_ifs <;> rfl

lemma sweepRow_keyHash (threshold now : ℤ) (row : ApiKey) :
    (sweepRow threshold now row).keyHash = row.keyHash := by
  unfold sweepRow
  split_ifs <;> rfl

lemma map_sweepRow {β : Type*} (f : ApiKey → β) (threshold now : ℤ) (rows : List ApiKey)
    (hf : ∀ row, f (sweepRow threshold now row) = f row) :
    (rows.map (sweepRow threshold now)).map f = rows.map f := by
  rw [List.map_map]
  exact List.map_congr_left fun row _ => hf row

def revokeInactive (table : Table) (threshold now : ℤ) : Table where
  rows := table.rows.map (sweepRow threshold now)
  ids := by
    rw [map_sweepRow _ _ _ _ (sweepRow_id threshold now)]
    exact table.ids
  keyHashes := by
    rw [map_sweepRow _ _ _ _ (sweepRow_keyHash threshold now)]
    exact table.keyHashes

/-! ## Interleavings -/

/-- A call of `revokeInactiveKeys`: its `updateMany` is on the way, or taken by the database, or the
call is over. -/
inductive Sweep
  | sent (threshold : ℤ)
  | taken
  | returned
  | threw
deriving DecidableEq, Repr

structure Instance where
  service : System
  sweeps : ℕ → Option Sweep := fun _ => none

/-- An instance that has just started. -/
def start (table : Table) : Instance where
  service := ApiKeysService.start table

def setSweep (s : Instance) (call : ℕ) (sweep : Sweep) : Instance :=
  { s with sweeps := Function.update s.sweeps call (some sweep) }

/-- The database takes the `updateMany`. -/
def take (s : Instance) (threshold now : ℤ) : Instance :=
  { s with service := { s.service with
      past := s.service.history
      table := revokeInactive s.service.table threshold now } }

inductive Event
  | service (event : ApiKeysService.Event)
  /-- `revokeInactiveKeys` up to its `updateMany`, with the value of the setting. -/
  | revokeInactiveKeys (call : ℕ) (now : ℤ) (value : Option String)
  | takes (call : ℕ) (now : ℤ)
  | returns (call : ℕ)
  | rejects (call : ℕ)
deriving DecidableEq, Repr

def step (hashApiKey : String → String) (s : Instance) : Event → Option Instance
  | .service event =>
    (ApiKeysService.step hashApiKey s.service event).map fun service => { s with service := service }
  | .revokeInactiveKeys call now value =>
    if s.sweeps call ≠ none then none
    else match inactivityThreshold now value with
      | none => some (setSweep s call .returned)
      | some none => some (setSweep s call .threw)
      | some (some threshold) => some (setSweep s call (.sent threshold))
  | .takes call now =>
    match s.sweeps call with
    | some (.sent threshold) => some (setSweep (take s threshold now) call .taken)
    | _ => none
  | .returns call =>
    match s.sweeps call with
    | some .taken => some (setSweep s call .returned)
    | _ => none
  | .rejects call =>
    match s.sweeps call with
    | some (.sent _) => some (setSweep s call .threw)
    | some .taken => some (setSweep s call .threw)
    | _ => none

end InactivitySweep
end FirecrawlGateway
