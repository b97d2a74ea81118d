import FirecrawlGateway.Cron.CronService
import FirecrawlGateway.Lib.EventMachine
import FirecrawlGateway.Lib.JsMap

/-!
# The last use of API keys

Model of `touchApiKey` and `recordTouch` of `ApiKeysService`
(`apps/api/src/api-keys/api-keys.service.ts`) on any number of instances that share the table
`api_keys`, beside the inactivity step of the maintenance run, which reads `lastUsedAt`. An instance
writes the last use of a key at most once in a minute, as far as its tracker remembers.
-/

namespace FirecrawlGateway
namespace KeyTouches

open CronService (ApiKeyRow inactive inactivityThreshold)

def touchDebounceMs : ℤ := 60000

def touchTrackerMaxSize : ℕ := 10000

def recordTouch (tracker : JsMap String ℤ) (id : String) (timestamp : ℤ) : JsMap String ℤ :=
  let tracker :=
    if tracker.has id then tracker.delete id
    else if touchTrackerMaxSize ≤ tracker.size then
      match tracker.firstKey with
      | some oldest => if oldest ≠ "" then tracker.delete oldest else tracker
      | none => tracker
    else tracker
  tracker.set id timestamp

/-! ## Instances -/

/-- A call of `touchApiKey` that writes: its `update` is on the way, or taken by the database, or the
call is over. -/
inductive Touch
  | sent (id : String) (now : ℤ)
  | taken (id : String) (now : ℤ)
  | returned
  | threw
deriving DecidableEq, Repr

/-- Instances with the rows of `api_keys` by their ids. The last field is not in the source: the
touches that returned, with the times they were for. -/
structure Fleet (ι : Type) where
  rows : String → Option ApiKeyRow
  trackers : ι → JsMap String ℤ := fun _ => JsMap.empty
  calls : ι → ℕ → Option Touch := fun _ _ => none
  uses : List (String × ℤ) := []

inductive Event (ι : Type)
  | touchApiKey (i : ι) (call : ℕ) (id : String) (now : ℤ)
  | takes (i : ι) (call : ℕ)
  | returns (i : ι) (call : ℕ)
  | rejects (i : ι) (call : ℕ)
  | createApiKey (row : ApiKeyRow)
  | revokeApiKey (id : String)
  /-- The database takes the `updateMany` of `revokeInactiveKeys`, for a threshold that was computed
  at `now` from the value of the setting. -/
  | revokeInactiveKeys (now : ℤ) (value : Option String)

variable {ι : Type} [DecidableEq ι]

def Fleet.setCall (s : Fleet ι) (i : ι) (call : ℕ) (touch : Touch) : Fleet ι :=
  { s with calls := Function.update s.calls i (Function.update (s.calls i) call (some touch)) }

/-- `recordTouch` at the end of a call. -/
def Fleet.record (s : Fleet ι) (i : ι) (call : ℕ) (id : String) (timestamp used : ℤ) : Fleet ι :=
  { s.setCall i call .returned with
    trackers := Function.update s.trackers i (recordTouch (s.trackers i) id timestamp)
    uses := (id, used) :: s.uses }

/-- `touchApiKey` up to its `await`, or to its end where the last touch is recent. -/
def touchApiKey (s : Fleet ι) (i : ι) (call : ℕ) (id : String) (now : ℤ) : Fleet ι :=
  match (s.trackers i).get id with
  | some last =>
    if last ≠ 0 ∧ now - last < touchDebounceMs then s.record i call id last now
    else s.setCall i call (.sent id now)
  | none => s.setCall i call (.sent id now)

def Fleet.setRow (s : Fleet ι) (id : String) (row : ApiKeyRow) : Fleet ι :=
  { s with rows := Function.update s.rows id (some row) }

/-- A row after the `updateMany`. -/
def sweepRow (threshold : ℤ) (row : ApiKeyRow) : ApiKeyRow :=
  if inactive threshold row then { row with revoked := true } else row

def step (s : Fleet ι) : Event ι → Option (Fleet ι)
  | .touchApiKey i call id now =>
    if s.calls i call = none then some (touchApiKey s i call id now) else none
  | .takes i call =>
    match s.calls i call with
    | some (.sent id now) => (s.rows id).map fun row =>
      (s.setRow id { row with lastUsedAt := some now }).setCall i call (.taken id now)
    | _ => none
  | .returns i call =>
    match s.calls i call with
    | some (.taken id now) => some (s.record i call id now now)
    | _ => none
  | .rejects i call =>
    match s.calls i call with
    | some (.sent _ _) => some (s.setCall i call .threw)
    | some (.taken _ _) => some (s.setCall i call .threw)
    | _ => none
  | .createApiKey row => if s.rows row.id = none then some (s.setRow row.id row) else none
  | .revokeApiKey id => (s.rows id).map fun row => s.setRow id { row with revoked := true }
  | .revokeInactiveKeys now value =>
    match inactivityThreshold now value with
    | some (some threshold) =>
      some { s with rows := fun id => (s.rows id).map (sweepRow threshold) }
    | _ => some s

end KeyTouches
end FirecrawlGateway
