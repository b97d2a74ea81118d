import FirecrawlGateway.Lib.EventMachine
import FirecrawlGateway.Proxy.RequestHandling

/-!
# The response cache of one instance

Requests, the collectors of their responses, and changes of the lifetime on one `ProxyService`, cut
at their `await`s. What upstream produces waits in the collector's branch of the split stream until
it is read. The whole stream, and the request it answers, stay with the collector; the source keeps
neither.
-/

namespace FirecrawlGateway
namespace CacheRuns

open Proxy

variable {ρ : Type*}

/-! ## State -/

/-- A request the cache did not answer, until it is routed. -/
structure Pending (ρ : Type*) where
  request : ClientRequest
  outside : Outside ρ
  ctx : ProxyContext
  plan : RoutePlan
  lookup : Option (CacheLookup ρ)

inductive Ending
  | closed
  | failed
deriving DecidableEq

/-- Where `collectForCache` is: in its loop, at its end after `set`, or at any other end. -/
inductive Progress
  | reading
  | stored (time : ℤ)
  | discarded
deriving DecidableEq

/-- A call of `collectForCache`, with the response it collects. -/
structure Collector (ρ : Type*) where
  source : Pending ρ
  result : ProxyResult
  contentType : String
  key : ρ
  stream : List (List UInt8) := []
  ending : Option Ending := none
  clientGone : Bool := false
  taken : ℕ := 0
  chunks : List (List UInt8) := []
  size : ℕ := 0
  progress : Progress := .reading

/-- The instance; requests have numbers. -/
structure System (ρ : Type*) where
  clock : ℤ := 0
  cache : ResponseCache ρ
  pending : ℕ → Option (Pending ρ) := fun _ => none
  collectors : ℕ → Option (Collector ρ) := fun _ => none

/-- A new instance: the lifetime comes with the first request. -/
def start (maxBytes : ℕ) : System ρ := { cache := { entries := ∅, ttlMs := 0, maxBytes := maxBytes } }

def setPending (s : System ρ) (n : ℕ) (r : Option (Pending ρ)) : System ρ :=
  { s with pending := Function.update s.pending n r }

def setCollector (s : System ρ) (n : ℕ) (c : Collector ρ) : System ρ :=
  { s with collectors := Function.update s.collectors n (some c) }

@[simp] lemma setPending_self (s : System ρ) (n : ℕ) (r : Option (Pending ρ)) :
    (setPending s n r).pending n = r := Function.update_self _ _ _

@[simp] lemma setPending_of_ne (s : System ρ) {n m : ℕ} (h : m ≠ n) (r : Option (Pending ρ)) :
    (setPending s n r).pending m = s.pending m := Function.update_of_ne h _ _

@[simp] lemma setCollector_self (s : System ρ) (n : ℕ) (c : Collector ρ) :
    (setCollector s n c).collectors n = some c := Function.update_self _ _ _

@[simp] lemma setCollector_of_ne (s : System ρ) {n m : ℕ} (h : m ≠ n) (c : Collector ρ) :
    (setCollector s n c).collectors m = s.collectors m := Function.update_of_ne h _ _

/-! ## Sections -/

section Request

variable [DecidableEq ρ] (p : Platform ρ) (config : ApiConfig)

/-- `handle` up to the cache: `none` where the request is turned away. -/
def planned (outside : Outside ρ) (request : ClientRequest) : Option (ProxyContext × RoutePlan) :=
  match createContext p request.originalUrl with
  | none => none
  | some ctx =>
    match authenticate config outside request ctx with
    | (_, .error _) => none
    | (ctx, .ok ()) =>
      match planRequest p config outside request ctx with
      | (_, .error _) => none
      | (ctx, .ok plan) => some (ctx, plan)

/-- The section of `handle` that asks the cache. -/
def askCache (s : System ρ) (n : ℕ) (request : ClientRequest) (outside : Outside ρ)
    (ctx : ProxyContext) (plan : RoutePlan) : System ρ :=
  let cache := s.cache.setTtlMs (responseCacheTtlMs p outside.settings)
  match lookupInCache p cache request ctx plan with
  | none => setPending { s with cache := cache } n (some ⟨request, outside, ctx, plan, none⟩)
  | some lookup =>
    match cache.get s.clock lookup.key lookup.maxAgeMs with
    | (cache, some _) => { s with cache := cache }
    | (cache, none) =>
      setPending { s with cache := cache } n (some ⟨request, outside, ctx, plan, some lookup⟩)

end Request

/-- `response.headers.get("content-type")`. -/
def contentTypeOf (headers : List (String × List Char)) : Option String :=
  (headers.lookup "content-type").map String.ofList

/-- The content type of the response a request was answered with. -/
def Pending.contentType (r : Pending ρ) (result : ProxyResult) : Option String :=
  contentTypeOf (r.outside.responseHeaders result)

/-- The guard of `captureForCache`; a streamed response has no body. -/
def isCaptured (result : ProxyResult) (contentType : Option String) : Bool :=
  result.backend = .cloud && result.kind = .response && result.response = some ⟨200⟩ &&
    result.body = none && isJsonContentType contentType

def captureForCache (r : Pending ρ) (key : ρ) (result : ProxyResult) : Option (Collector ρ) :=
  let contentType := r.contentType result
  if isCaptured result contentType then
    some
      { source := r
        result := result
        contentType := contentType.getD "application/json"
        key := key }
  else none

/-- `handle` after the routing. -/
def answered (s : System ρ) (n : ℕ) (r : Pending ρ) (answer : Except EarlyRejection Outcome) :
    System ρ :=
  let s := setPending s n none
  match answer, r.lookup with
  | .ok outcome, some lookup =>
    match captureForCache r lookup.key outcome.result with
    | some collector => setCollector s n collector
    | none => s
  | _, _ => s

/-! ### `collectForCache` -/

namespace Collector

def abandon (c : Collector ρ) : Collector ρ := { c with chunks := [], progress := .discarded }

/-- Both branches of the stream are cancelled, and with them the upstream. -/
def isCancelled (c : Collector ρ) : Bool := c.clientGone && c.progress = .discarded

/-- A round of the loop that reads a chunk. -/
def push (c : Collector ρ) (chunk : List UInt8) : Collector ρ :=
  let c := { c with taken := c.taken + 1, size := c.size + chunk.length }
  if c.size > maxCachedEntryBytes then c.abandon else { c with chunks := c.chunks ++ [chunk] }

end Collector

/-- `parsed?.success === true`, where parsing does not throw. -/
def reportsSuccess : Except String JsonValue → Bool
  | .ok parsed => (parsed.member "success" matches some (.bool true))
  | .error _ => false

section Collect

variable [DecidableEq ρ] (p : Platform ρ)

/-- `collectForCache` after its loop. -/
def finish (s : System ρ) (n : ℕ) (c : Collector ρ) : System ρ :=
  let body := c.chunks.flatten
  if reportsSuccess (p.jsonParse body) then
    -- the age counts from here
    let entry := { status := 200, contentType := c.contentType, body := body, storedAt := s.clock }
    setCollector { s with cache := s.cache.set c.key entry } n
      { c with progress := .stored s.clock }
  else setCollector s n { c with progress := .discarded }

/-- What comes after the `await reader.read()` of a collector; `none` while it waits. -/
def resume (s : System ρ) (n : ℕ) (c : Collector ρ) : Option (System ρ) :=
  match c.ending, c.stream.drop c.taken with
  -- an error empties the branch
  | some .failed, _ => some (setCollector s n { c with progress := .discarded })
  | _, chunk :: _ => some (setCollector s n (c.push chunk))
  | some .closed, [] => some (finish p s n c)
  | none, [] => none

end Collect

/-! ## Interleavings -/

inductive Event (ρ : Type*)
  | clock (now : ℤ)
  /-- A request reaches the cache, unless it is turned away before; what its routing will meet
  comes with it. -/
  | request (n : ℕ) (request : ClientRequest) (outside : Outside ρ)
  /-- The routing of a request ends, after at most so many rounds. -/
  | routed (n fuel : ℕ)
  /-- Upstream produces a chunk, or ends the stream. -/
  | chunk (n : ℕ) (bytes : List UInt8)
  | ended (n : ℕ) (ending : Ending)
  | disconnect (n : ℕ)
  | read (n : ℕ)
  /-- The timer of a collector fires. -/
  | timeout (n : ℕ)

variable [DecidableEq ρ] (p : Platform ρ) (config : ApiConfig)

def step (s : System ρ) : Event ρ → Option (System ρ)
  | .clock now => some { s with clock := now }
  | .request n request outside =>
    -- a number stands for one request
    if (s.pending n).isSome || (s.collectors n).isSome then none
    else
      match planned p config outside request with
      | none => some s
      | some (ctx, plan) => some (askCache p s n request outside ctx plan)
  | .routed n fuel =>
    match s.pending n with
    | none => none
    | some r =>
      (handlePlan { r.outside.routing with cached := none } fuel r.ctx.routeMode r.plan).map
        fun (_, answer) => answered s n r answer
  | .chunk n bytes =>
    match s.collectors n with
    | none => none
    | some c =>
      -- a stream that is over or cancelled brings nothing more
      if c.ending.isSome || c.isCancelled then none
      else some (setCollector s n { c with stream := c.stream ++ [bytes] })
  | .ended n ending =>
    match s.collectors n with
    | none => none
    | some c =>
      if c.ending.isSome || c.isCancelled then none
      else some (setCollector s n { c with ending := some ending })
  | .disconnect n =>
    match s.collectors n with
    | none => none
    | some c => some (setCollector s n { c with clientGone := true })
  | .read n =>
    -- a collector that has given up or is done reads no more
    match s.collectors n with
    | none => none
    | some c => if c.progress ≠ .reading then none else resume p s n c
  | .timeout n =>
    match s.collectors n with
    | none => none
    | some c => if c.progress ≠ .reading then none else some (setCollector s n c.abandon)

/-- What a request meets that reaches the cache now. -/
def System.seen (s : System ρ) (outside : Outside ρ) : Outside ρ :=
  { outside with cache := s.cache, later := s.clock }

end CacheRuns
end FirecrawlGateway
