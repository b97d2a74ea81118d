import FirecrawlGateway.Audit.AuditStats
import FirecrawlGateway.Lib.DoubleArithmetic
import FirecrawlGateway.Lib.FormUrlencoded
import FirecrawlGateway.Lib.UtcCalendar

/-!
# The totals of the dashboard

The way from the filters of the dashboard to its cards: `statsQuery` of
`apps/admin/src/pages/Dashboard.tsx` makes a query string, `parseStatsFilter` of
`apps/api/src/audit/audit.controller.ts` reads it, `statsQuery` of
`apps/api/src/audit/audit-stats.ts` and `readAuditStats` of `audit.service.ts` count the rows, and
`statsToMetrics` of `apps/admin/src/hooks/useAuditMetrics.ts` makes the numbers of the cards. While
there are no totals, `useAuditMetrics` makes them from the entries of the table.
-/

namespace FirecrawlGateway.AuditStats

open JsString (toChars toText)
open NumberText (numberToString rounded toNumber)
open Proxy (Backend)
open UtcCalendar

/-! ## Filters -/

inductive StatsRange
  | all
  | today
  | week
  | month
  | custom
deriving DecidableEq

def StatsRange.text : StatsRange → JsString
  | .all => JsString.lit "all"
  | .today => JsString.lit "today"
  | .week => JsString.lit "week"
  | .month => JsString.lit "month"
  | .custom => JsString.lit "custom"

def StatusClass.text : StatusClass → JsString
  | .success => JsString.lit "2xx"
  | .clientError => JsString.lit "4xx"
  | .serverError => JsString.lit "5xx"

/-- A number that a part of a date can be. -/
structure DatePart (min max : ℕ) where
  value : ℕ
  le_value : min ≤ value
  value_le : value ≤ max
deriving DecidableEq

/-- The filters of the dashboard; what is not set there is the empty string, or `"all"`. -/
structure DashboardFilters where
  backendFilter : Option Backend := none
  statusFilter : Option StatusClass := none
  apiKeyFilter : JsString := []
  fallbackOnly : Bool := false
  slowOnly : Bool := false
  search : JsString := []
  dateRange : StatsRange := .all
  dayFilter : Option (DatePart 1 31) := none
  monthFilter : Option (DatePart 1 12) := none
  yearFilter : Option (DatePart 1970 9999) := none

/-- `AuditStatsFilter` with the fields of a date. -/
structure StatsFilter extends AuditStatsFilter where
  range : Option StatsRange := none
  day : Option (DatePart 1 31) := none
  month : Option (DatePart 1 12) := none
  year : Option (DatePart 1970 9999) := none
  timeZone : Option JsString := none

/-! ## The request -/

/-- `String(Number(part))` of a part of a date that is chosen. -/
def partText {min max : ℕ} (part : DatePart min max) : JsString :=
  JsString.lit (numberToString part.value)

/-- The parameters, each with its value where it is set. -/
def statsFields (timeZone : JsString) (f : DashboardFilters) : List (String × Option JsString) :=
  let search := JsString.trim f.search
  let ranged := f.dateRange ≠ .all
  let custom := f.dateRange = .custom
  [("backend", f.backendFilter.map backendText),
    ("status", f.statusFilter.map StatusClass.text),
    ("api_key_id", if f.apiKeyFilter ≠ [] then some f.apiKeyFilter else none),
    ("fallback", if f.fallbackOnly then some (JsString.lit "true") else none),
    ("slow", if f.slowOnly then some (JsString.lit "true") else none),
    ("search", if search ≠ [] then some search else none),
    ("range", if ranged then some f.dateRange.text else none),
    ("tz", if ranged then some timeZone else none),
    ("day", if custom then f.dayFilter.map partText else none),
    ("month", if custom then f.monthFilter.map partText else none),
    ("year", if custom then f.yearFilter.map partText else none)]

/-- The parameters that are set, with U+FFFD for a lone surrogate. -/
def setFields (fields : List (String × Option JsString)) : List (List Char × List Char) :=
  fields.filterMap fun field => field.2.map fun value => (field.1.toList, toChars value)

/-- `statsQuery`, in the time zone of the browser. -/
def statsQuery (timeZone : JsString) (f : DashboardFilters) : List Char :=
  FormUrlencoded.serialize (setFields (statsFields timeZone f))

/-! ## Reading the request -/

/-- The parameters of a request, each once. -/
abbrev Query := List (List Char × List Char)

def Query.get (query : Query) (name : String) : Option JsString :=
  (query.find? (·.1 = name.toList)).map fun p => p.2.flatMap JsonReader.utf16

/-- `^[A-Za-z0-9_-]{1,64}$`, with further characters. -/
def isToken (further : List UInt16) (s : JsString) : Bool :=
  1 ≤ s.length && s.length ≤ 64 && s.all fun u =>
    (0x30 ≤ u && u ≤ 0x39) || (0x41 ≤ u && u ≤ 0x5A) || (0x61 ≤ u && u ≤ 0x7A) || u = 0x5F ||
      u = 0x2D || u ∈ further

/-- `isValidTimeZone`, where `Intl` says which names it knows. -/
def isValidTimeZone (isKnown : JsString → Bool) (value : JsString) : Bool :=
  isToken [0x2B, 0x2F] value && isKnown value

def isNotEmpty (s : JsString) : Bool := s ≠ []

/-- `oneOf`, with what each text stands for. -/
def oneOf {α : Type} (value : Option JsString) (name : String) (allowed : List (JsString × α)) :
    Except String (Option α) :=
  match value.filter isNotEmpty with
  | none => .ok none
  | some value =>
    match allowed.lookup value with
    | none => .error (name ++ " is invalid")
    | some a => .ok (some a)

def intParam (value : Option JsString) (name : String) (min max : ℕ) :
    Except String (Option (DatePart min max)) :=
  match value.filter isNotEmpty with
  | none => .ok none
  | some value =>
    match toNumber (toText value) with
    | some (.finite q) =>
      if h : q.den = 1 ∧ min ≤ q.num.toNat ∧ q.num.toNat ≤ max ∧ 0 ≤ q then
        .ok (some ⟨q.num.toNat, h.2.1, h.2.2.1⟩)
      else .error (name ++ " is invalid")
    | _ => .error (name ++ " is invalid")

def parseStatsFilter (isKnown : JsString → Bool) (query : Query) : Except String StatsFilter := do
  let search := query.get "search"
  if search.any (200 < ·.length) then throw "search is too long"
  let tz := (query.get "tz").filter isNotEmpty
  if tz.any fun tz => !isValidTimeZone isKnown tz then throw "tz is invalid"
  let apiKeyId := (query.get "api_key_id").filter isNotEmpty
  if apiKeyId.any fun apiKeyId => !isToken [] apiKeyId then throw "api_key_id is invalid"
  let backend ← oneOf (query.get "backend") "backend"
    ([.selfHosted, .cloud].map fun backend => (backendText backend, backend))
  let status ← oneOf (query.get "status") "status"
    ([.success, .clientError, .serverError].map fun status => (StatusClass.text status, status))
  let range ← oneOf (query.get "range") "range"
    ([.all, .today, .week, .month, .custom].map fun range => (StatsRange.text range, range))
  let day ← intParam (query.get "day") "day" 1 31
  let month ← intParam (query.get "month") "month" 1 12
  let year ← intParam (query.get "year") "year" 1970 9999
  return {
    backend := backend
    status := status
    fallbackOnly := query.get "fallback" = some (JsString.lit "true")
    slowOnly := query.get "slow" = some (JsString.lit "true")
    search := search
    apiKeyId := apiKeyId
    range := range
    day := day
    month := month
    year := year
    timeZone := tz }

/-! ## Ranges of dates -/

/-- A time zone: what an instant reads on its clocks, as the instant that reads so in UTC, and the
instant at which its clocks read so. -/
structure TimeZone where
  toLocal : ℤ → ℤ
  toInstant : ℤ → ℤ

/-- `date_trunc('day', ...)`, and `setHours(0, 0, 0, 0)` of a local time. -/
def truncDay (t : ℤ) : ℤ := dayTimes.start (dayTimes.index t)

/-- `date_trunc('month', ...)`. -/
def truncMonth (t : ℤ) : ℤ := monthTimes.start (monthTimes.index t)

/-- `... + interval '1 month'`, of the beginning of a month. -/
def nextMonth (t : ℤ) : ℤ := monthTimes.start (monthTimes.index t + 1)

/-- The conditions of `buildStatsWhere` on `created_at`, at the time `now`. -/
def dateConditions (zone : TimeZone) (now : ℤ) (filter : StatsFilter) : List (ℤ → Bool) :=
  match filter.range.getD .all with
  | .all => []
  | .custom =>
    (filter.day.toList.map fun day createdAt =>
      decide (utcDate (zone.toLocal createdAt) = day.value)) ++
    (filter.month.toList.map fun month createdAt =>
      decide (utcMonth (zone.toLocal createdAt) + 1 = month.value)) ++
    filter.year.toList.map fun year createdAt =>
      decide (utcFullYear (zone.toLocal createdAt) = year.value)
  | .today =>
    let start := truncDay (zone.toLocal now)
    [fun createdAt => zone.toInstant start ≤ createdAt,
      fun createdAt => createdAt < zone.toInstant (start + msPerDay)]
  | .week =>
    -- 168 hours
    [fun createdAt => zone.toInstant (truncDay (zone.toLocal (now - 7 * msPerDay))) ≤ createdAt]
  | .month =>
    let start := truncMonth (zone.toLocal now)
    [fun createdAt => zone.toInstant start ≤ createdAt,
      fun createdAt => createdAt < zone.toInstant (nextMonth start)]

/-- The tests of `filteredEntries` on `created_at`, in the time zone of the browser. -/
def keepsDate (zone : TimeZone) (now : ℤ) (f : DashboardFilters) (createdAt : ℤ) : Bool :=
  let entryDate := zone.toLocal createdAt
  let today := zone.toLocal now
  match f.dateRange with
  | .all => true
  | .today =>
    utcDate entryDate = utcDate today && utcMonth entryDate = utcMonth today &&
      utcFullYear entryDate = utcFullYear today
  | .week => zone.toInstant (truncDay (zone.toLocal (now - 7 * msPerDay))) ≤ createdAt
  | .month => utcMonth entryDate = utcMonth today && utcFullYear entryDate = utcFullYear today
  | .custom =>
    f.dayFilter.all (fun day => utcDate entryDate = day.value) &&
      f.monthFilter.all (fun month => utcMonth entryDate + 1 = month.value) &&
      f.yearFilter.all fun year => utcFullYear entryDate = year.value

/-! ## Totals -/

/-- `AuditStats`. -/
structure Totals where
  total : ℕ
  selfHosted : ℕ
  cloud : ℕ
  fallbacks : ℕ
  successCount : ℕ
  errorCount : ℕ
  avgDurationMs : ℤ
deriving DecidableEq

/-- `round` of the database, which rounds halves away from zero. -/
def roundAway (x : ℚ) : ℤ := if 0 ≤ x then ⌊x + 1 / 2⌋ else ⌈x - 1 / 2⌉

/-- The row that `statsQuery` selects; `avg` of no rows is null. -/
def statsOf (rows : List AuditLog) : Totals where
  total := rows.length
  selfHosted := rows.countP fun row => row.backendUsed.chars = "self-hosted".toList
  cloud := rows.countP fun row => row.backendUsed.chars = "cloud".toList
  fallbacks := rows.countP fun row => row.fallbackUsed
  successCount := rows.countP fun row => 200 ≤ row.statusCode ∧ row.statusCode < 300
  errorCount := rows.countP fun row => 400 ≤ row.statusCode
  avgDurationMs :=
    if rows = [] then 0 else roundAway ((rows.map AuditLog.durationMs).sum / rows.length)

/-- Whether the database takes the parameter of a condition. -/
def accepted : Condition → Bool
  | .backendUsed value => (parameter value).isSome
  | .apiKeyId value => (parameter value).isSome
  | .search pattern => (parameter pattern).isSome
  | _ => true

/-- The database: its text functions, and the time zones it knows. -/
structure Database where
  texts : TextPlatform
  timeZone : JsString → Option TimeZone

/-- A query without conditions on `created_at` asks for no time zone. -/
def StatsFilter.isDated (filter : StatsFilter) : Bool :=
  match filter.range.getD .all with
  | .all => false
  | .custom => filter.day.isSome || filter.month.isSome || filter.year.isSome
  | _ => true

/-- The conditions on `created_at`, where the database knows the time zone. -/
def dateWhere (database : Database) (now : ℤ) (filter : StatsFilter) : Option (List (ℤ → Bool)) :=
  if filter.isDated then
    (database.timeZone (filter.timeZone.getD (JsString.lit "UTC"))).map fun zone =>
      dateConditions zone now filter
  else some []

/-- `readAuditStats` at the time `now`; `none` is a failed query. -/
def readAuditStats (database : Database) (now : ℤ) (filter : StatsFilter) (log : List AuditLog) :
    Option Totals :=
  let conditions := buildStatsWhere database.texts filter.toAuditStatsFilter
  if conditions.all accepted then
    (dateWhere database now filter).map fun dates => statsOf (log.filter fun row =>
      Selected database.texts conditions row ∧ ∀ date ∈ dates, date row.createdAt = true)
  else none

/-- `stats` of the controller; `none` is an error. -/
def stats (isKnown : JsString → Bool) (database : Database) (text : List Char) (now : ℤ)
    (log : List AuditLog) : Option Totals :=
  (parseStatsFilter isKnown (FormUrlencoded.parse text)).toOption.bind fun filter =>
    readAuditStats database now filter log

/-! ## Cards -/

structure AuditMetrics where
  total : ℕ
  selfHosted : ℕ
  cloud : ℕ
  fallbacks : ℕ
  avgDuration : ℤ
  successCount : ℕ
  errorCount : ℕ
  successShare : ℚ
  cloudShare : ℚ
  fallbackShare : ℚ
deriving DecidableEq

/-- `total ? (count / total) * 100 : 0`, in doubles. -/
def share (count total : ℕ) : ℚ := if total = 0 then 0 else rounded (rounded (count / total) * 100)

def statsToMetrics (stats : Totals) : AuditMetrics where
  total := stats.total
  selfHosted := stats.selfHosted
  cloud := stats.cloud
  fallbacks := stats.fallbacks
  avgDuration := stats.avgDurationMs
  successCount := stats.successCount
  errorCount := stats.errorCount
  successShare := share stats.successCount stats.total
  cloudShare := share stats.cloud stats.total
  fallbackShare := share stats.fallbacks stats.total

/-- `Math.round`, of a number that is not negative. -/
def mathRound (x : ℚ) : ℤ := ⌊x + 1 / 2⌋

def useAuditMetrics (entries : List AuditEntry) : AuditMetrics :=
  let total := entries.length
  let cloud := entries.countP fun e => e.backendUsed = JsString.lit "cloud"
  let fallbacks := entries.countP fun e => e.fallbackUsed
  let durations := entries.map AuditEntry.durationMs
  let successCount := entries.countP fun e => 200 ≤ e.statusCode ∧ e.statusCode < 300
  { total := total
    selfHosted := entries.countP fun e => e.backendUsed = JsString.lit "self-hosted"
    cloud := cloud
    fallbacks := fallbacks
    avgDuration :=
      if durations.length = 0 then 0
      else
        let sum := durations.foldl (fun (sum : ℚ) (v : ℤ) => rounded (sum + v)) 0
        mathRound (rounded (sum / durations.length))
    successCount := successCount
    errorCount := entries.countP fun e => 400 ≤ e.statusCode
    successShare := share successCount total
    cloudShare := share cloud total
    fallbackShare := share fallbacks total }

/-- The filters that `filteredEntries` applies, less those on `created_at`. -/
def DashboardFilters.filter (f : DashboardFilters) : AuditStatsFilter where
  backend := f.backendFilter
  status := f.statusFilter
  fallbackOnly := f.fallbackOnly
  slowOnly := f.slowOnly
  search := some f.search
  apiKeyId := some f.apiKeyFilter

/-- The entries that the table shows, where `filteredEntries` was made at the time `now`. -/
def shownEntries (platform : TextPlatform) (zone : TimeZone) (now : ℤ) (f : DashboardFilters)
    (entries : List AuditEntry) : List AuditEntry :=
  (filteredEntries platform f.filter entries).filter fun entry =>
    keepsDate zone now f entry.createdAt

end FirecrawlGateway.AuditStats
