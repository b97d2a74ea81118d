import FirecrawlGateway.Audit.StatsRequest
import FirecrawlGateway.Lib.EventMachine

/-!
# The cards of the dashboard

Model of `loadStats`, of the effect that calls it and of `currentStats` and `metrics` in
`apps/admin/src/pages/Dashboard.tsx`. Requests for totals overlap and come back in any order, while
the filters and the log change. Each request has a number, and only the latest may update the cards.
-/

namespace FirecrawlGateway
namespace Cards

open AuditStats

/-- The browser's time zone and its name, the names that the service knows, and its database. -/
structure Platform where
  timeZone : JsString
  zone : TimeZone
  isKnown : JsString → Bool
  database : Database

/-- What the service saw when it answered: the log, the time, and how often the log had changed. It
is not in the source. -/
structure Seen where
  log : List AuditLog
  time : ℤ
  version : ℕ

/-- A call of `loadStats` after its number was taken. A request that was answered has what the
service answered. -/
inductive Request
  | sent (query : List Char)
  | answered (query : List Char) (answer : Option Totals) (seen : Seen)
  | received (query : List Char) (answer : Option Totals) (seen : Seen)
  | failed (query : List Char)

/-- The audit log and one dashboard. `timer` and `effect` say whether the timeout is set and whether
the effect has yet to run. The last two fields are not in the source: how often the log changed, and
how often it had when the dashboard last noticed. -/
structure Dashboard where
  log : List AuditLog
  filters : DashboardFilters := {}
  entries : List AuditEntry := []
  effect : Bool := true
  timer : Bool := false
  statsQueryRef : List Char := []
  statsSeqRef : ℕ := 0
  requests : ℕ → Option Request := fun _ => none
  statsState : Option (List Char × Totals) := none
  version : ℕ := 0
  noticed : ℕ := 0

inductive Event
  /-- Rows are written or deleted. -/
  | change (log : List AuditLog)
  /-- The filters are set and the page is rendered with them. -/
  | render (filters : DashboardFilters)
  | effect
  | timeout
  /-- `fetchData` replaces the entries of the table and calls `loadStats`. -/
  | fetchData (entries : List AuditEntry)
  | answer (n : ℕ) (now : ℤ)
  | receive (n : ℕ)
  /-- The request rejects. -/
  | fail (n : ℕ)

variable (p : Platform)

/-- `statsQuery` of the filters that are rendered. -/
def statsQueryOf (s : Dashboard) : List Char := statsQuery p.timeZone s.filters

/-- `loadStats` up to its `await`. -/
def loadStats (s : Dashboard) : Dashboard :=
  { s with
    statsSeqRef := s.statsSeqRef + 1
    requests := Function.update s.requests (s.statsSeqRef + 1) (some (.sent s.statsQueryRef)) }

def setRequest (s : Dashboard) (n : ℕ) (request : Request) : Dashboard :=
  { s with requests := Function.update s.requests n (some request) }

/-- Only the latest request may update the cards. -/
def setStatsState (s : Dashboard) (n : ℕ) (value : Option (List Char × Totals)) : Dashboard :=
  if n = s.statsSeqRef then { s with statsState := value } else s

def step (s : Dashboard) : Event → Option Dashboard
  | .change log => some { s with log := log, version := s.version + 1 }
  | .render filters =>
    -- the effect depends on the query and on the text of the search
    let changed := statsQuery p.timeZone filters ≠ statsQueryOf p s ∨
      filters.search ≠ s.filters.search
    some { s with filters := filters, effect := s.effect ∨ changed }
  | .effect =>
    if s.effect then
      some { s with effect := false, timer := true, statsQueryRef := statsQueryOf p s }
    else none
  | .timeout => if s.timer then some (loadStats { s with timer := false }) else none
  | .fetchData entries => some (loadStats { s with entries := entries, noticed := s.version })
  | .answer n now =>
    match s.requests n with
    | some (.sent query) =>
      some (setRequest s n (.answered query (stats p.isKnown p.database query now s.log)
        ⟨s.log, now, s.version⟩))
    | _ => none
  | .receive n =>
    match s.requests n with
    | some (.answered query answer seen) =>
      -- an error of the service is thrown
      some (setStatsState (setRequest s n (.received query answer seen)) n
        (answer.map fun totals => (query, totals)))
    | _ => none
  | .fail n =>
    match s.requests n with
    | some (.sent query) => some (setStatsState (setRequest s n (.failed query)) n none)
    | some (.answered query _ _) => some (setStatsState (setRequest s n (.failed query)) n none)
    | _ => none

/-! ## What is shown -/

/-- `currentStats`. -/
def currentStats (s : Dashboard) : Option Totals :=
  (s.statsState.filter fun state => state.1 = statsQueryOf p s).map Prod.snd

/-- `metrics`, where the entries of the table were filtered at the time `now`. -/
def metrics (now : ℤ) (s : Dashboard) : AuditMetrics :=
  match currentStats p s with
  | some totals => statsToMetrics totals
  | none => useAuditMetrics (shownEntries p.database.texts p.zone now s.filters s.entries)

end Cards
end FirecrawlGateway
