import FirecrawlGateway.Lib.EventMachine
import FirecrawlGateway.Lib.JsMap
import FirecrawlGateway.Lib.ReadThrough
import FirecrawlGateway.Lib.WriteHistory

/-!
# The API keys service

Model of `validateApiKey`, `revokeApiKey` and `updateApiKeyLimits` of `ApiKeysService`
(`apps/api/src/api-keys/api-keys.service.ts`). Every method is cut at its `await`s, and the
database takes each statement at a moment of its own between the call and the answer, so that
any interleaving of calls is a list of `Event`s.
-/

namespace FirecrawlGateway
namespace ApiKeysService

open ReadThrough

/-! ## Data -/

/-- A row of the `api_keys` table; dates are in milliseconds. -/
structure ApiKey where
  id : String
  name : String
  keyHash : String
  keyValue : Option String
  keyPrefix : String
  revoked : Bool
  createdAt : ℤ
  updatedAt : ℤ
  lastUsedAt : Option ℤ
  expiresAt : Option ℤ
  rateLimitPerMinute : Option ℕ
  monthlyQuota : Option ℕ
deriving DecidableEq, Repr

/-- `ApiKeyRecord`; a date stands for its ISO string. -/
structure ApiKeyRecord where
  id : String
  name : String
  keyHash : String
  keyValue : Option String
  keyPrefix : String
  revoked : Bool
  createdAt : ℤ
  updatedAt : ℤ
  lastUsedAt : Option ℤ
  expiresAt : Option ℤ
  rateLimitPerMinute : Option ℕ
  monthlyQuota : Option ℕ
deriving DecidableEq, Repr

def toKey (key : ApiKey) : ApiKeyRecord where
  id := key.id
  name := key.name
  keyHash := key.keyHash
  keyValue := key.keyValue
  keyPrefix := key.keyPrefix
  revoked := key.revoked
  createdAt := key.createdAt
  updatedAt := key.updatedAt
  lastUsedAt := key.lastUsedAt
  expiresAt := key.expiresAt
  rateLimitPerMinute := key.rateLimitPerMinute
  monthlyQuota := key.monthlyQuota

/-- `ApiKeyLimits`: `some none` clears a limit, `none` leaves it unchanged. -/
structure ApiKeyLimits where
  expiresAt : Option (Option ℤ) := none
  rateLimitPerMinute : Option (Option ℕ) := none
  monthlyQuota : Option (Option ℕ) := none
deriving DecidableEq, Repr

/-- `API_KEY_VALIDATION_CACHE_TTL_MS`. -/
def apiKeyValidationCacheTtlMs : ℤ := 30000

def validationCacheMaxSize : ℕ := 10000

/-! ## The table -/

/-- The `data` of an `update`. -/
inductive Change
  | revoke
  | limits (data : ApiKeyLimits)
  | touch (lastUsedAt : ℤ)
deriving DecidableEq, Repr

/-- The row after an `update`; `limitsData` leaves out what the caller did not provide. -/
def Change.apply (now : ℤ) (row : ApiKey) : Change → ApiKey
  | .revoke => { row with revoked := true, updatedAt := now }
  | .limits data =>
    { row with
      expiresAt := data.expiresAt.getD row.expiresAt
      rateLimitPerMinute := data.rateLimitPerMinute.getD row.rateLimitPerMinute
      monthlyQuota := data.monthlyQuota.getD row.monthlyQuota
      updatedAt := now }
  | .touch lastUsedAt => { row with lastUsedAt := some lastUsedAt, updatedAt := now }

@[simp] lemma Change.apply_id (now : ℤ) (row : ApiKey) (change : Change) :
    (change.apply now row).id = row.id := by
  cases change <;> rfl

@[simp] lemma Change.apply_keyHash (now : ℤ) (row : ApiKey) (change : Change) :
    (change.apply now row).keyHash = row.keyHash := by
  cases change <;> rfl

lemma Change.apply_revoked {now : ℤ} {row : ApiKey} (change : Change) (h : row.revoked = true) :
    (change.apply now row).revoked = true := by
  cases change with
  | revoke => rfl
  | limits data => exact h
  | touch lastUsedAt => exact h

/-- The `api_keys` table. Ids are its primary key; a hash stands for one row because
`createApiKey` draws 32 random bytes for each key. -/
structure Table where
  rows : List ApiKey
  ids : (rows.map ApiKey.id).Nodup
  keyHashes : (rows.map ApiKey.keyHash).Nodup

/-- `findFirst({ where: { keyHash, revoked: false } })`. -/
def Table.findFirst (table : Table) (keyHash : String) : Option ApiKey :=
  table.rows.find? fun row => row.keyHash = keyHash ∧ row.revoked = false

/-- The rows after an `update` of one of them. -/
def updateRows (rows : List ApiKey) (id : String) (change : Change) (now : ℤ) : List ApiKey :=
  rows.map fun row => if row.id = id then change.apply now row else row

lemma updateRows_map {β : Type*} (f : ApiKey → β) (rows : List ApiKey) (id : String)
    (change : Change) (now : ℤ) (hf : ∀ row, f (change.apply now row) = f row) :
    (updateRows rows id change now).map f = rows.map f := by
  unfold updateRows
  rw [List.map_map]
  refine List.map_congr_left fun row _ => ?_
  show f (if row.id = id then change.apply now row else row) = f row
  split_ifs
  · exact hf row
  · rfl

/-- `update({ where: { id }, data })`, which leaves the rows of other ids alone. -/
def Table.update (table : Table) (id : String) (change : Change) (now : ℤ) : Table where
  rows := updateRows table.rows id change now
  ids := by
    rw [updateRows_map _ _ _ _ _ fun row => Change.apply_id now row change]
    exact table.ids
  keyHashes := by
    rw [updateRows_map _ _ _ _ _ fun row => Change.apply_keyHash now row change]
    exact table.keyHashes

/-- `create`, when the id and the hash are new. -/
def Table.create (table : Table) (row : ApiKey) : Option Table :=
  if h : row.id ∉ table.rows.map ApiKey.id ∧ row.keyHash ∉ table.rows.map ApiKey.keyHash then
    some {
      rows := row :: table.rows
      ids := List.nodup_cons.mpr ⟨h.1, table.ids⟩
      keyHashes := List.nodup_cons.mpr ⟨h.2, table.keyHashes⟩ }
  else none

/-! ## State -/

/-- An entry of `validationCache`. -/
structure Cached where
  value : Option ApiKeyRecord
  expiresAt : ℤ
deriving DecidableEq, Repr

/-- Where the answer to a `request` of `validateApiKey` is. -/
inductive Answer
  /-- The database has not taken the query. -/
  | asked
  /-- The database has read the row. -/
  | read (row : Option ApiKey)
  | fulfilled (value : Option ApiKeyRecord)
  | rejected
deriving DecidableEq, Repr

/-- A promise in flight; `awaited` until the call that made it has gone on after its `await`. -/
structure Request where
  keyHash : String
  answer : Answer := .asked
  awaited : Bool := true
deriving DecidableEq, Repr

/-- A call of `validateApiKey`. -/
inductive Progress
  | waiting (lookup : Lookup (Option ApiKeyRecord))
  | returned (value : Option ApiKeyRecord)
  | threw
deriving DecidableEq, Repr

structure Validation where
  key : String
  progress : Progress
deriving DecidableEq, Repr

/-- What the database made of an `update`: no row has the id (`P2025`), or the row it left
behind, with the place of the table in the history of tables. -/
inductive Outcome
  | pending
  | notFound
  | updated (index : ℕ) (row : ApiKey)
deriving DecidableEq, Repr

/-- A call of `revokeApiKey` or `updateApiKeyLimits`. -/
structure Writer where
  id : String
  change : Change
  outcome : Outcome := .pending
deriving DecidableEq, Repr

/-- The fields of the service, its calls, and the table with what it was before. -/
structure System where
  validationCache : JsMap String Cached := ∅
  validationInFlight : JsMap String ℕ := ∅
  requests : List Request := []
  validations : ℕ → Option Validation := fun _ => none
  writers : ℕ → Option Writer := fun _ => none
  past : List Table := []
  table : Table

/-- A service that has just started. -/
def start (table : Table) : System where
  table := table

/-- The tables there were, the first one first; the last one is what the database holds. -/
def System.history (s : System) : List Table := s.past ++ [s.table]

/-! ## Validation -/

/-- `cached && cached.expiresAt > Date.now()`. -/
def freshEntry (s : System) (keyHash : String) (now : ℤ) : Option Cached :=
  (s.validationCache.get keyHash).filter (·.expiresAt > now)

/-- `validateApiKey` up to its `await`. -/
def validateApiKey (s : System) (keyHash : String) (now : ℤ) :
    System × Lookup (Option ApiKeyRecord) :=
  match freshEntry s keyHash now with
  | some cached => (s, .value cached.value)
  | none =>
    let s := { s with validationCache := s.validationCache.delete keyHash }
    match s.validationInFlight.get keyHash with
    | some existing => (s, .request existing)
    | none =>
      let request := s.requests.length
      ({ s with
          requests := s.requests ++ [{ keyHash := keyHash }]
          validationInFlight := s.validationInFlight.set keyHash request },
        .request request)

/-- The cache once it has room for one more key. -/
def makeRoom (cache : JsMap String Cached) (keyHash : String) : JsMap String Cached :=
  if cache.has keyHash then cache.delete keyHash
  else if cache.size ≥ validationCacheMaxSize then
    match cache.firstKey with
    | some oldest => if oldest ≠ "" then cache.delete oldest else cache
    | none => cache
  else cache

def recordValidation (cache : JsMap String Cached) (keyHash : String)
    (value : Option ApiKeyRecord) (now : ℤ) : JsMap String Cached :=
  (makeRoom cache keyHash).set keyHash ⟨value, now + apiKeyValidationCacheTtlMs⟩

/-- The `finally` of `validateApiKey`. -/
def leave (s : System) (keyHash : String) (request : ℕ) : System :=
  if s.validationInFlight.get keyHash = some request then
    { s with validationInFlight := s.validationInFlight.delete keyHash }
  else s

/-- `validateApiKey` after its `await`, when the request was fulfilled. -/
def goOn (s : System) (keyHash : String) (request : ℕ) (value : Option ApiKeyRecord) (now : ℤ) :
    System :=
  if s.validationInFlight.get keyHash = some request then
    leave { s with validationCache := recordValidation s.validationCache keyHash value now }
      keyHash request
  else leave s keyHash request

/-- What a validation has, once it has it: `none` while it waits. -/
def settled (s : System) : Lookup (Option ApiKeyRecord) → Option Progress
  | .value value => some (.returned value)
  | .request request =>
    match (s.requests[request]?).map Request.answer with
    | some (.fulfilled value) => some (.returned value)
    | some .rejected => some .threw
    | _ => none

/-! ## Updates -/

/-- The database takes an `update`. -/
def execute (s : System) (id : String) (change : Change) (now : ℤ) : System × Outcome :=
  match s.table.rows.find? (·.id = id) with
  | none => (s, .notFound)
  | some row =>
    ({ s with past := s.history, table := s.table.update id change now },
      .updated s.history.length (change.apply now row))

/-- `this.validationCache.delete(…); this.validationInFlight.delete(…)`. -/
def invalidate (s : System) (keyHash : String) : System :=
  { s with
    validationCache := s.validationCache.delete keyHash
    validationInFlight := s.validationInFlight.delete keyHash }

def clearValidationCache (s : System) : System :=
  { s with validationCache := ∅, validationInFlight := ∅ }

/-! ## Interleavings -/

/-- The atomic sections, with what they meet: calls by number, the clock, and how the database
answers. A validation may return before the call that made its request goes on, so these are
some interleavings more than the promises of the source allow. -/
inductive Event
  | validateApiKey (call : ℕ) (key : String) (now : ℤ)
  /-- The database takes the query of a request. -/
  | query (request : ℕ)
  /-- The answer for a request is there. -/
  | fulfil (request : ℕ)
  | reject (request : ℕ)
  /-- `validateApiKey` goes on after its `await`. -/
  | goOn (request : ℕ) (now : ℤ)
  /-- A validation returns what its lookup came to, or throws. -/
  | returns (call : ℕ)
  | revokeApiKey (call : ℕ) (id : String)
  | updateApiKeyLimits (call : ℕ) (id : String) (limits : ApiKeyLimits)
  /-- The database takes the statement of an update. -/
  | execute (call : ℕ) (now : ℤ)
  /-- An update resolves, or is rejected. -/
  | resolves (call : ℕ)
  | rejects (call : ℕ)
  | clearValidationCache
  /-- What others do to the table: `createApiKey`, `touchApiKey`, the maintenance job, another
  instance. -/
  | creates (row : ApiKey)
  | changes (id : String) (change : Change) (now : ℤ)
deriving DecidableEq, Repr

def setAnswer (s : System) (request : ℕ) (answer : Answer) : System :=
  { s with requests := s.requests.modify request fun r => { r with answer := answer } }

def stopAwaiting (s : System) (request : ℕ) : System :=
  { s with requests := s.requests.modify request fun r => { r with awaited := false } }

def setValidation (s : System) (call : ℕ) (validation : Validation) : System :=
  { s with validations := Function.update s.validations call (some validation) }

def setWriter (s : System) (call : ℕ) (writer : Option Writer) : System :=
  { s with writers := Function.update s.writers call writer }

/-- `hashApiKey` is the SHA-256 hash of a key. -/
def step (hashApiKey : String → String) (s : System) : Event → Option System
  | .validateApiKey call key now =>
    if s.validations call ≠ none then none
    else
      let (s, lookup) := validateApiKey s (hashApiKey key) now
      some (setValidation s call ⟨key, .waiting lookup⟩)
  | .query request =>
    match s.requests[request]? with
    | some { keyHash, answer := .asked, .. } =>
      some (setAnswer s request (.read (s.table.findFirst keyHash)))
    | _ => none
  | .fulfil request =>
    match s.requests[request]? with
    | some { answer := .read row, .. } => some (setAnswer s request (.fulfilled (row.map toKey)))
    | _ => none
  | .reject request =>
    match s.requests[request]? with
    | some { answer := .asked, .. } => some (setAnswer s request .rejected)
    | some { answer := .read _, .. } => some (setAnswer s request .rejected)
    | _ => none
  | .goOn request now =>
    match s.requests[request]? with
    | some { keyHash, answer := .fulfilled value, awaited := true } =>
      some (stopAwaiting (goOn s keyHash request value now) request)
    | some { keyHash, answer := .rejected, awaited := true } =>
      some (stopAwaiting (leave s keyHash request) request)
    | _ => none
  | .returns call =>
    match s.validations call with
    | some { key, progress := .waiting lookup } =>
      (settled s lookup).map fun progress => setValidation s call ⟨key, progress⟩
    | _ => none
  | .revokeApiKey call id =>
    if s.writers call ≠ none then none
    else some (setWriter s call (some { id := id, change := .revoke }))
  | .updateApiKeyLimits call id limits =>
    if s.writers call ≠ none then none
    else some (setWriter s call (some { id := id, change := .limits limits }))
  | .execute call now =>
    match s.writers call with
    | some { id, change, outcome := .pending } =>
      let (s, outcome) := execute s id change now
      some (setWriter s call (some ⟨id, change, outcome⟩))
    | _ => none
  | .resolves call =>
    match s.writers call with
    | some { outcome := .updated _ row, .. } =>
      some (setWriter (invalidate s row.keyHash) call none)
    | some { outcome := .notFound, .. } => some (setWriter s call none)
    | _ => none
  | .rejects call =>
    match s.writers call with
    | some _ => some (setWriter s call none)
    | none => none
  | .clearValidationCache => some (clearValidationCache s)
  | .creates row =>
    (s.table.create row).map fun table => { s with past := s.history, table := table }
  | .changes id change now => some (execute s id change now).1

end ApiKeysService
end FirecrawlGateway
