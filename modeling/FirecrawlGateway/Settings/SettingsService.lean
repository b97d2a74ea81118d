import FirecrawlGateway.Lib.EventMachine
import FirecrawlGateway.Lib.JsMap
import FirecrawlGateway.Lib.WriteHistory

/-!
# The settings service

Model of `SettingsService` (`apps/api/src/settings/settings.service.ts`). Every method is cut at
its `await`s, and the database takes each statement at a moment of its own between the call and
the answer, so that any interleaving of calls is a list of `Event`s.
-/

namespace FirecrawlGateway
namespace SettingsService

/-! ## Data -/

/-- A row of the settings table; times are in milliseconds. -/
structure Row where
  value : String
  updatedAt : ℤ
deriving DecidableEq, Repr

structure SettingRecord where
  key : String
  value : String
  updatedAt : ℤ
deriving DecidableEq, Repr

def toRecord (key : String) (row : Row) : SettingRecord := ⟨key, row.value, row.updatedAt⟩

/-- An entry of `cache`. -/
structure Cached where
  value : Option SettingRecord
  expiresAt : ℤ
deriving DecidableEq, Repr

/-- `ttl`. -/
def ttl : ℤ := 5000

/-- Where the answer to a `request` of `track` is. -/
inductive Answer
  /-- The database has not taken the query. -/
  | asked
  /-- The database has read the row. -/
  | read (row : Option Row)
  | fulfilled (value : Option SettingRecord)
  | rejected
deriving DecidableEq, Repr

/-- A promise that `track` follows. The requests of one `findMany` share its `query` number;
`tracking` until `track` has gone on after its `await`. -/
structure Request where
  key : String
  query : ℕ
  answer : Answer := .asked
  tracking : Bool := true
deriving DecidableEq, Repr

/-- What a read waits for, for one key: nothing, or a request, by its number. -/
inductive Lookup
  | value (value : Option SettingRecord)
  | request (request : ℕ)
deriving DecidableEq, Repr

/-- A call of `getSetting` or `getSettings`. -/
inductive Reader
  | waiting (lookups : List (String × Lookup))
  | returned (values : List (String × Option SettingRecord))
deriving DecidableEq, Repr

/-- The statement of `setSetting`, or of `replaceSettingIfUnchanged`. -/
inductive Statement
  | upsert (value : String)
  | updateMany (expected value : String)
deriving DecidableEq, Repr

/-- A call of `setSetting` or `replaceSettingIfUnchanged`. Once the database took its statement,
`index` is the place of the row it left behind in the row's history. -/
structure Writer where
  key : String
  statement : Statement
  index : Option ℕ := none
deriving DecidableEq, Repr

/-- The fields of the service, its calls, and the settings table: `history` has every state of a
row, the first one first, and the last one is what the database holds. -/
structure System where
  cache : JsMap String Cached := ∅
  inflight : JsMap String ℕ := ∅
  requests : List Request := []
  readers : ℕ → Option Reader := fun _ => none
  writers : ℕ → Option Writer := fun _ => none
  history : String → List (Option Row)

/-- A service that has just started, over a table with some rows. -/
def start (table : String → Option Row) : System where
  history key := [table key]

/-- What the database holds. -/
def System.row (s : System) (key : String) : Option Row := ((s.history key).getLast?).join

/-! ## Reads -/

/-- `cached && cached.expiresAt > now`. -/
def freshEntry (s : System) (key : String) (now : ℤ) : Option Cached :=
  (s.cache.get key).filter (·.expiresAt > now)

/-- What a read finds for a key without asking the database; `none` is a miss. -/
def lookUp (s : System) (key : String) (now : ℤ) : System × Option Lookup :=
  match freshEntry s key now with
  | some cached => (s, some (.value cached.value))
  | none =>
    ({ s with cache := s.cache.delete key }, (s.inflight.get key).map .request)

/-- `track` up to its `await`: a new request for a key. -/
def track (s : System) (key : String) (query : ℕ) : System × ℕ :=
  ({ s with
      inflight := s.inflight.set key s.requests.length
      requests := s.requests ++ [{ key := key, query := query }] },
    s.requests.length)

/-- `getSetting` up to its `await`. -/
def getSetting (s : System) (key : String) (now : ℤ) : System × List (String × Lookup) :=
  match lookUp s key now with
  | (s, some lookup) => (s, [(key, lookup)])
  | (s, none) =>
    let (s, request) := track s key s.requests.length
    (s, [(key, .request request)])

/-- The first loop of `getSettings`: hits and joined requests, and the missing keys. -/
def lookUpAll (now : ℤ) : System → List String → System × List (String × Lookup) × List String
  | s, [] => (s, [], [])
  | s, key :: keys =>
    let (s, found) := lookUp s key now
    let (s, lookups, missing) := lookUpAll now s keys
    match found with
    | some lookup => (s, (key, lookup) :: lookups, missing)
    | none => (s, lookups, key :: missing)

/-- The second loop of `getSettings`: one request for each missing key. -/
def trackAll (query : ℕ) : System → List String → System × List (String × Lookup)
  | s, [] => (s, [])
  | s, key :: keys =>
    let (s, request) := track s key query
    let (s, lookups) := trackAll query s keys
    (s, (key, .request request) :: lookups)

/-- `getSettings` up to its `await`; `new Set` keeps the first of equal keys. -/
def getSettings (s : System) (keys : List String) (now : ℤ) : System × List (String × Lookup) :=
  let (s, lookups, missing) := lookUpAll now s keys.eraseDups
  let (s, tracked) := trackAll s.requests.length s missing
  (s, lookups ++ tracked)

/-- The value a lookup has, once it has one. -/
def settled (s : System) : Lookup → Option (Option SettingRecord)
  | .value value => some value
  | .request request =>
    match (s.requests[request]?).map Request.answer with
    | some (.fulfilled value) => some value
    | _ => none

/-- `track` after its `await`, when the request was fulfilled and when it was rejected. -/
def trackFulfilled (s : System) (key : String) (request : ℕ) (value : Option SettingRecord)
    (now : ℤ) : System :=
  if s.inflight.get key = some request then
    { s with
      cache := s.cache.set key ⟨value, now + ttl⟩
      inflight := s.inflight.delete key }
  else s

def trackRejected (s : System) (key : String) (request : ℕ) : System :=
  if s.inflight.get key = some request then { s with inflight := s.inflight.delete key } else s

/-! ## Writes -/

/-- `this.cache.delete(key); this.inflight.delete(key)`. -/
def invalidate (s : System) (key : String) : System :=
  { s with cache := s.cache.delete key, inflight := s.inflight.delete key }

/-- `clearCache`. -/
def clearCache (s : System) : System := { s with cache := ∅, inflight := ∅ }

/-- The database takes the statement of a write. -/
def execute (s : System) (key : String) (updatedAt : ℤ) : Statement → System
  | .upsert value =>
    { s with history := Function.update s.history key (s.history key ++ [some ⟨value, updatedAt⟩]) }
  | .updateMany expected value =>
    -- no row matches, and the count is 0
    if (s.row key).map Row.value ≠ some expected then s
    else { s with
      history := Function.update s.history key (s.history key ++ [some ⟨value, updatedAt⟩]) }

/-! ## Interleavings -/

/-- The atomic sections, with what they meet: calls by number, the clock, and how the database
answers. The requests of one `findMany` may be answered apart, and a read may return before
`track` goes on, so these are some interleavings more than the promises of the source allow. -/
inductive Event
  | getSetting (call : ℕ) (key : String) (now : ℤ)
  | getSettings (call : ℕ) (keys : List String) (now : ℤ)
  /-- The database takes the query of some requests. -/
  | query (query : ℕ)
  /-- The answer for a request is there. -/
  | fulfil (request : ℕ)
  | reject (request : ℕ)
  /-- `track` goes on. -/
  | track (request : ℕ) (now : ℤ)
  /-- A read whose lookups have values returns. -/
  | returns (call : ℕ)
  | setSetting (call : ℕ) (key value : String)
  | replaceSettingIfUnchanged (call : ℕ) (key expected value : String)
  /-- The database takes the statement of a write. -/
  | execute (call : ℕ) (updatedAt : ℤ)
  /-- A write resolves, or is rejected. -/
  | resolves (call : ℕ)
  | rejects (call : ℕ)
  | clearCache
deriving DecidableEq, Repr

/-- A request that changes its answer. -/
def setAnswer (s : System) (request : ℕ) (answer : Answer) : System :=
  { s with requests := s.requests.modify request fun r => { r with answer := answer } }

/-- `track` has done its part for a request. -/
def stopTracking (s : System) (request : ℕ) : System :=
  { s with requests := s.requests.modify request fun r => { r with tracking := false } }

/-- The database reads the row of a request. -/
def readRow (s : System) (query : ℕ) (r : Request) : Request :=
  if r.query = query ∧ r.answer = .asked then { r with answer := .read (s.row r.key) } else r

def beginRead (s : System) (call : ℕ) (lookups : List (String × Lookup)) : System :=
  { s with readers := Function.update s.readers call (some (.waiting lookups)) }

def beginWrite (s : System) (call : ℕ) (writer : Writer) : System :=
  { s with writers := Function.update s.writers call (some writer) }

/-- The values of a read, once every lookup has one. -/
def settledAll (s : System) (lookups : List (String × Lookup)) :
    Option (List (String × Option SettingRecord)) :=
  lookups.mapM fun l => (settled s l.2).map fun value => (l.1, value)

def step (s : System) : Event → Option System
  | .getSetting call key now =>
    if s.readers call ≠ none then none
    else
      let (s, lookups) := getSetting s key now
      some (beginRead s call lookups)
  | .getSettings call keys now =>
    if s.readers call ≠ none then none
    else
      let (s, lookups) := getSettings s keys now
      some (beginRead s call lookups)
  | .query query => some { s with requests := s.requests.map (readRow s query) }
  | .fulfil request =>
    match s.requests[request]? with
    | some { key, answer := .read row, .. } =>
      some (setAnswer s request (.fulfilled (row.map (toRecord key))))
    | _ => none
  | .reject request =>
    match s.requests[request]? with
    | some { answer := .asked, .. } => some (setAnswer s request .rejected)
    | some { answer := .read _, .. } => some (setAnswer s request .rejected)
    | _ => none
  | .track request now =>
    match s.requests[request]? with
    | some { key, answer := .fulfilled value, tracking := true, .. } =>
      some (stopTracking (trackFulfilled s key request value now) request)
    | some { key, answer := .rejected, tracking := true, .. } =>
      some (stopTracking (trackRejected s key request) request)
    | _ => none
  | .returns call =>
    match s.readers call with
    | some (.waiting lookups) =>
      (settledAll s lookups).map fun values =>
        { s with readers := Function.update s.readers call (some (.returned values)) }
    | _ => none
  | .setSetting call key value =>
    if s.writers call ≠ none then none
    else some (beginWrite s call { key := key, statement := .upsert value })
  | .replaceSettingIfUnchanged call key expected value =>
    if s.writers call ≠ none then none
    else some (beginWrite s call { key := key, statement := .updateMany expected value })
  | .execute call updatedAt =>
    match s.writers call with
    | some { key, statement, index := none } =>
      let s := execute s key updatedAt statement
      some (beginWrite s call ⟨key, statement, some ((s.history key).length - 1)⟩)
    | _ => none
  | .resolves call =>
    match s.writers call with
    | some { key, index := some _, .. } =>
      some { invalidate s key with writers := Function.update s.writers call none }
    | _ => none
  | .rejects call =>
    match s.writers call with
    | some _ => some { s with writers := Function.update s.writers call none }
    | none => none
  | .clearCache => some (clearCache s)

end SettingsService
end FirecrawlGateway
