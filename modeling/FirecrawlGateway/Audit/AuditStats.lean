import FirecrawlGateway.Lib.AsciiText
import FirecrawlGateway.Lib.SqlLike
import FirecrawlGateway.Proxy.Policy

/-!
# Filters of the audit log

Model of `buildStatsWhere` in `apps/api/src/audit/audit-stats.ts`, which says what the cards of the
dashboard count, and of `filteredEntries` in `apps/admin/src/pages/Dashboard.tsx`, which says what
its table shows, less the ranges of dates. Conditions have the meaning that PostgreSQL gives them.
-/

namespace FirecrawlGateway.AuditStats

open JsString (IsAsciiText asciiLower isAscii toChars)
open Proxy (Backend)

/-! ## Texts -/

/-- The lower case of any text, as JavaScript and as the database have it. -/
structure TextPlatform where
  /-- `toLowerCase`. -/
  toLowerCase : JsString → JsString
  /-- `lower`. -/
  lower : List Char → List Char
  toLowerCase_ascii : ∀ s, s.all isAscii = true → toLowerCase s = s.map asciiLower
  lower_ascii : ∀ t, IsAsciiText t → lower t = t.map Char.toLower

def HasNoNul (chars : List Char) : Prop := ∀ c ∈ chars, c.toNat ≠ 0

instance (chars : List Char) : Decidable (HasNoNul chars) :=
  List.decidableBAll (fun c : Char => c.toNat ≠ 0) chars

/-- A text in the database, which has no NUL. -/
structure DbText where
  chars : List Char
  hasNoNul : HasNoNul chars
deriving DecidableEq

def DbText.toJs (text : DbText) : JsString := text.chars.flatMap JsonReader.utf16

/-- A string as a parameter of a query; the database refuses a NUL. -/
def parameter (s : JsString) : Option DbText :=
  if h : HasNoNul (toChars s) then some ⟨toChars s, h⟩ else none

/-- `concat_ws`: the columns that are not null, with a separator between them. -/
def concatWs (separator : List Char) (columns : List (Option DbText)) : List Char :=
  List.intercalate separator (columns.reduceOption.map DbText.chars)

/-- The characters with a meaning in `LIKE ... ESCAPE '\'`. -/
def wildcards : SqlLike.Wildcards Char where
  anyString := '%'
  anyChar := '_'
  escape := '\\'
  anyString_ne_escape := by decide

/-! ## Rows and entries -/

/-- A row of `audit_logs`, less its id and its request; `createdAt` is in milliseconds. -/
structure AuditLog where
  createdAt : ℤ
  method : DbText
  path : DbText
  routeMode : DbText
  backendUsed : DbText
  fallbackUsed : Bool
  fallbackReason : DbText
  statusCode : ℤ
  durationMs : ℤ
  targetUrl : DbText
  apiKeyId : Option DbText

structure AuditEntry where
  createdAt : ℤ
  method : JsString
  path : JsString
  routeMode : JsString
  backendUsed : JsString
  fallbackUsed : Bool
  fallbackReason : JsString
  statusCode : ℤ
  durationMs : ℤ
  targetUrl : JsString
  apiKeyId : Option JsString

/-- `toEntry`: a row as the dashboard gets it. -/
def toEntry (row : AuditLog) : AuditEntry where
  createdAt := row.createdAt
  method := row.method.toJs
  path := row.path.toJs
  routeMode := row.routeMode.toJs
  backendUsed := row.backendUsed.toJs
  fallbackUsed := row.fallbackUsed
  fallbackReason := row.fallbackReason.toJs
  statusCode := row.statusCode
  durationMs := row.durationMs
  targetUrl := row.targetUrl.toJs
  apiKeyId := row.apiKeyId.map DbText.toJs

/-! ## Filters -/

/-- `"2xx"`, `"4xx"` or `"5xx"`. -/
inductive StatusClass
  | success
  | clientError
  | serverError
deriving DecidableEq

def StatusClass.least : StatusClass → ℤ
  | .success => 200
  | .clientError => 400
  | .serverError => 500

def StatusClass.bound (status : StatusClass) : ℤ := status.least + 100

def backendText : Backend → JsString
  | .cloud => JsString.lit "cloud"
  | .selfHosted => JsString.lit "self-hosted"

/-- The filters that both sides have. -/
structure AuditStatsFilter where
  backend : Option Backend := none
  status : Option StatusClass := none
  fallbackOnly : Bool := false
  slowOnly : Bool := false
  search : Option JsString := none
  apiKeyId : Option JsString := none

/-! ## The query -/

/-- A condition of the query, with the values of its parameters. -/
inductive Condition
  /-- `backend_used = value`. -/
  | backendUsed (value : JsString)
  /-- `status_code >= least AND status_code < bound`. -/
  | statusCode (least bound : ℤ)
  /-- `fallback_used = true`. -/
  | fallbackUsed
  /-- `duration_ms >= least`. -/
  | durationMs (least : ℤ)
  /-- `api_key_id = value`. -/
  | apiKeyId (value : JsString)
  /-- `lower(concat_ws(' ', path, target_url, ...)) LIKE pattern ESCAPE '\'`. -/
  | search (pattern : JsString)

/-- `search.replace(/[\\%_]/g, "\\$&")`. -/
def escapeSearch (search : JsString) : JsString :=
  search.flatMap fun u => if u = 0x5C ∨ u = 0x25 ∨ u = 0x5F then [0x5C, u] else [u]

def searchPattern (search : JsString) : JsString :=
  JsString.lit "%" ++ (escapeSearch search ++ JsString.lit "%")

def buildStatsWhere (platform : TextPlatform) (filter : AuditStatsFilter) : List Condition :=
  let search := filter.search.map fun search => platform.toLowerCase (JsString.trim search)
  filter.backend.toList.map (fun backend => Condition.backendUsed (backendText backend)) ++
  filter.status.toList.map (fun status => Condition.statusCode status.least status.bound) ++
  (if filter.fallbackOnly then [Condition.fallbackUsed] else []) ++
  (if filter.slowOnly then [Condition.durationMs 1000] else []) ++
  (filter.apiKeyId.filter (· ≠ [])).toList.map Condition.apiKeyId ++
  (search.filter (· ≠ [])).toList.map fun search => Condition.search (searchPattern search)

/-- The text that a search is looked for in. -/
def searchedText (row : AuditLog) : List Char :=
  concatWs [' '] [some row.path, some row.targetUrl, some row.method, some row.backendUsed,
    some row.routeMode, some row.fallbackReason]

/-- Whether a condition is true of a row; `none` is a failed query. -/
def holds (platform : TextPlatform) (row : AuditLog) : Condition → Option Bool
  | .backendUsed value => (parameter value).map fun text => row.backendUsed = text
  | .statusCode least bound => some (least ≤ row.statusCode ∧ row.statusCode < bound)
  | .fallbackUsed => some row.fallbackUsed
  | .durationMs least => some (least ≤ row.durationMs)
  | .apiKeyId value => (parameter value).map fun text => row.apiKeyId = some text
  | .search pattern => (parameter pattern).bind fun text =>
    SqlLike.like wildcards (platform.lower (searchedText row)) text.chars

/-- `WHERE` with `AND` between the conditions. -/
def Selected (platform : TextPlatform) (conditions : List Condition) (row : AuditLog) : Prop :=
  ∀ condition ∈ conditions, holds platform row condition = some true

instance (platform : TextPlatform) (conditions : List Condition) (row : AuditLog) :
    Decidable (Selected platform conditions row) :=
  inferInstanceAs (Decidable (∀ condition ∈ conditions, holds platform row condition = some true))

/-! ## The table -/

def searchedFields (entry : AuditEntry) : List JsString :=
  [entry.path, entry.targetUrl, entry.method, entry.backendUsed, entry.routeMode,
    entry.fallbackReason]

/-- `join(" ")`. -/
def joinSpace (fields : List JsString) : JsString := List.intercalate (JsString.lit " ") fields

/-- The test of an entry in `filteredEntries`. A filter that is not set is the empty string there. -/
def keeps (platform : TextPlatform) (filter : AuditStatsFilter) (entry : AuditEntry) : Bool :=
  let normalizedSearch := platform.toLowerCase (JsString.trim (filter.search.getD []))
  if normalizedSearch ≠ [] ∧
      ¬normalizedSearch <:+: platform.toLowerCase (joinSpace (searchedFields entry)) then false
  else if ∃ backend ∈ filter.backend, entry.backendUsed ≠ backendText backend then false
  else if ∃ key ∈ filter.apiKeyId, key ≠ [] ∧ entry.apiKeyId ≠ some key then false
  else if filter.fallbackOnly ∧ ¬entry.fallbackUsed then false
  else if filter.slowOnly ∧ entry.durationMs < 1000 then false
  else if ∃ status ∈ filter.status,
      ¬(entry.statusCode ≥ status.least ∧ entry.statusCode < status.bound) then false
  else true

def filteredEntries (platform : TextPlatform) (filter : AuditStatsFilter) (entries : List AuditEntry) :
    List AuditEntry :=
  entries.filter (keeps platform filter)

end FirecrawlGateway.AuditStats
