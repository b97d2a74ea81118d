import FirecrawlGateway.Lib.EventMachine
import FirecrawlGateway.Lib.JsMap

/-!
# The rate limit counter

Model of `apps/api/src/common/rate-limit-counter.ts`. Each method is a function on the fields
of `RateLimitCounter`, cut where it awaits; bucket objects are references into `heap`, upserts
and the promises of `flushBucket` are numbers. An interleaving is a list of `Event`s.

The number `pendingDelta` is kept as the list of the hits it counts, numbered per bucket, so
that one can follow a hit from its bucket into an upsert; `List.length` gives the number. The
last three fields of `Bucket` are not in the source: they only record what happened.
-/

namespace FirecrawlGateway
namespace RateLimitCounter

/-! ## Constants -/

/-- `RATE_LIMIT_WINDOW_MS`. -/
def rateLimitWindowMs : ℤ := 60000

/-- `FLUSH_INTERVAL_MS`. -/
def flushIntervalMs : ℤ := 5000

/-- `MAX_BUCKETS`. -/
def maxBuckets : ℕ := 10000

/-! ## The fields -/

/-- Why a bucket left the map: its window had ended, the map was full, or neither. -/
inductive Removal
  | expired
  | evicted
  | unexplained
deriving DecidableEq, Repr

/-- `RateLimitBucket`. -/
structure Bucket where
  pendingDelta : List ℕ := []
  syncedCount : ℕ := 0
  resetAt : ℤ := 0
  lastFlushAt : ℤ := 0
  fixedResetAt : Option ℤ := none
  /-- How many hits were counted in this bucket. -/
  made : ℕ := 0
  /-- Hits given up because the window had ended. -/
  dropped : List ℕ := []
  removed : Option Removal := none
deriving DecidableEq, Repr

inductive UpsertStatus
  | sent
  | resolved
  | rejected
deriving DecidableEq, Repr

/-- A `$queryRaw` of `flushBucket`, with the promise it returns; `finished` once the `finally`
handler has run. -/
structure Upsert where
  key : String := ""
  bucket : ℕ := 0
  delta : List ℕ := []
  fixedResetAt : Option ℤ := none
  status : UpsertStatus := .sent
  finished : Bool := false
deriving DecidableEq, Repr

/-- The private fields of `RateLimitCounter`, and the objects they refer to. -/
structure Counter where
  buckets : JsMap String ℕ := ∅
  flushInFlight : JsMap String ℕ := ∅
  flushTimers : JsMap String ℕ := ∅
  draining : Bool := false
  heap : ℕ → Bucket := fun _ => {}
  nextBucket : ℕ := 0
  upserts : ℕ → Upsert := fun _ => {}
  nextUpsert : ℕ := 0

/-- `RateLimitCounterOptions`. -/
structure Options where
  scheduleFlush : Bool

namespace Counter

/-- An assignment to fields of a bucket object. -/
def modify (c : Counter) (ref : ℕ) (f : Bucket → Bucket) : Counter :=
  { c with heap := Function.update c.heap ref (f (c.heap ref)) }

/-! ## Buckets -/

/-- `this.buckets.delete(key)`, with the reason there was. -/
def dropBucket (c : Counter) (now : ℤ) (key : String) : Counter :=
  match c.buckets.get key with
  | none => c
  | some ref =>
    let reason := if (c.heap ref).resetAt ≤ now then Removal.expired
      else if c.buckets.size ≥ maxBuckets then .evicted
      else .unexplained
    { c.modify ref fun b => { b with removed := some reason } with
      buckets := c.buckets.delete key }

/-- The eviction in `recordBucket`; `if (oldest)` is false for the empty key. -/
def evict (c : Counter) (now : ℤ) : Counter :=
  match c.buckets.firstKey with
  | some oldest => if oldest ≠ "" then c.dropBucket now oldest else c
  | none => c

def recordBucket (c : Counter) (now : ℤ) (key : String) (ref : ℕ) : Counter :=
  let c := if c.buckets.has key then c.dropBucket now key
    else if c.buckets.size ≥ maxBuckets then c.evict now
    else c
  { c with buckets := c.buckets.set key ref }

/-! ## Flushes -/

/-- `flushBucket` up to its `await`; the promise it returns is the upsert's, or a resolved one. -/
def flushBucket (c : Counter) (now : ℤ) (key : String) (ref : ℕ) (fixedResetAt : Option ℤ) :
    Counter × Option ℕ :=
  match c.flushInFlight.get key with
  -- whoever flushes this key meanwhile awaits the same promise
  | some u => (c, some u)
  | none =>
    let delta := (c.heap ref).pendingDelta
    if delta = [] then (c.modify ref fun b => { b with lastFlushAt := now }, none)
    else
      let u := c.nextUpsert
      let upsert : Upsert :=
        { key := key, bucket := ref, delta := delta, fixedResetAt := fixedResetAt }
      -- captured and zeroed before the `await`, so that hits made meanwhile start a new delta
      let c := c.modify ref fun b => { b with pendingDelta := [], lastFlushAt := now }
      ({ c with upserts := Function.update c.upserts u upsert, nextUpsert := u + 1,
                flushInFlight := c.flushInFlight.set key u }, some u)

/-- How the database answered: `rows[0]` of a committed upsert, or a rejection. -/
inductive Outcome
  | resolved (entry : Option (ℕ × ℤ))
  | rejected
deriving DecidableEq, Repr

/-- The `then` or `catch` handler of an upsert. -/
def settleUpsert (c : Counter) (u : ℕ) (outcome : Outcome) : Counter :=
  let upsert := c.upserts u
  match outcome with
  | .resolved entry =>
    let c := { c with upserts := Function.update c.upserts u { upsert with status := .resolved } }
    match entry with
    | some (count, resetAt) =>
      c.modify upsert.bucket fun b => { b with syncedCount := count, resetAt := resetAt }
    | none => c
  | .rejected =>
    let c := { c with upserts := Function.update c.upserts u { upsert with status := .rejected } }
    c.modify upsert.bucket fun b => { b with pendingDelta := b.pendingDelta ++ upsert.delta }

/-- The `finally` handler of an upsert. -/
def finishUpsert (c : Counter) (u : ℕ) : Counter :=
  let upsert := c.upserts u
  let c := { c with upserts := Function.update c.upserts u { upsert with finished := true } }
  if c.flushInFlight.get upsert.key = some u then
    { c with flushInFlight := c.flushInFlight.delete upsert.key }
  else c

def flushIfCurrent (c : Counter) (now : ℤ) (key : String) (ref : ℕ) : Counter × Option ℕ :=
  if (c.heap ref).resetAt ≤ now then
    (c.modify ref fun b => { b with pendingDelta := [], dropped := b.dropped ++ b.pendingDelta },
      none)
  else c.flushBucket now key ref (c.heap ref).fixedResetAt

/-- `scheduleFlush`; when the timer fires is left open. -/
def scheduleFlush (c : Counter) (key : String) (ref : ℕ) : Counter :=
  if c.draining || c.flushTimers.has key then c
  else { c with flushTimers := c.flushTimers.set key ref }

/-! ## `hit` -/

/-- The bucket of `key`, after dropping an expired one and making a new one where needed. -/
def currentBucket (c : Counter) (now : ℤ) (key : String) (fixedResetAt : Option ℤ) :
    Counter × ℕ :=
  let c := match c.buckets.get key with
    | some ref => if (c.heap ref).resetAt ≤ now then c.dropBucket now key else c
    | none => c
  match c.buckets.get key with
  | some ref => (c, ref)
  | none =>
    let ref := c.nextBucket
    let bucket : Bucket :=
      { resetAt := fixedResetAt.getD (now + rateLimitWindowMs), fixedResetAt := fixedResetAt }
    let c := { c with heap := Function.update c.heap ref bucket, nextBucket := ref + 1 }
    (c.recordBucket now key ref, ref)

/-- `bucket.pendingDelta += 1`. -/
def countHit (c : Counter) (ref : ℕ) : Counter :=
  c.modify ref fun b => { b with pendingDelta := b.pendingDelta ++ [b.made], made := b.made + 1 }

/-- The end of `hit`, after its `await` if it has one: schedule a flush, and return `count` and
`resetAt`. -/
def finishHit (o : Options) (c : Counter) (key : String) (ref : ℕ) : Counter × ℕ × ℤ :=
  let bucket := c.heap ref
  let c := if o.scheduleFlush && bucket.pendingDelta ≠ [] then c.scheduleFlush key ref else c
  (c, bucket.syncedCount + bucket.pendingDelta.length, bucket.resetAt)

/-! ## `drain` -/

/-- The start of `drain`: no more timers. -/
def startDrain (c : Counter) : Counter := { c with draining := true, flushTimers := ∅ }

/-- The buckets a pass of `drain` has to flush. -/
def pendingBuckets (c : Counter) : List (String × ℕ) :=
  c.buckets.entries.filter fun e => (c.heap e.2).pendingDelta ≠ []

/-- The flushes of one pass of `drain`, and the promises it then waits for. -/
def flushAll (now : ℤ) : Counter → List (String × ℕ) → Counter × List ℕ
  | c, [] => (c, [])
  | c, (key, ref) :: pending =>
    let (c, promise) := c.flushIfCurrent now key ref
    let (c, promises) := flushAll now c pending
    (c, promise.toList ++ promises)

end Counter

open Counter

/-! ## Interleavings -/

/-- A `hit` awaiting a flush; it is hit number `ordinal` of its bucket. -/
structure Waiting where
  key : String
  bucket : ℕ
  ordinal : ℕ
  on : Option ℕ
deriving DecidableEq, Repr

/-- The `finally` callback of a fired timer, awaiting the flush. -/
structure TimerTask where
  key : String
  bucket : ℕ
  on : Option ℕ
deriving DecidableEq, Repr

/-- What a `drain` awaits: the flushes in flight, or the flushes of its own pass. -/
inductive DrainStage
  | settling
  | flushing
deriving DecidableEq, Repr

structure DrainTask where
  pass : ℕ
  stage : DrainStage
  on : List ℕ
deriving DecidableEq, Repr

/-- What a `hit` returned. -/
structure Return where
  bucket : ℕ
  ordinal : ℕ
  count : ℕ
  resetAt : ℤ
deriving DecidableEq, Repr

/-- A counter and everything that runs on it. -/
structure System where
  counter : Counter := {}
  waiting : List Waiting := []
  timerTasks : List TimerTask := []
  drains : List DrainTask := []
  returned : List Return := []

/-- One synchronous section, with the time it reads. Timers may fire at any time. -/
inductive Event
  | hit (key : String) (fixedResetAt : Option ℤ) (now : ℤ)
  | resumeHit (i : ℕ)
  | settle (u : ℕ) (outcome : Outcome)
  | finish (u : ℕ)
  | fire (key : String) (now : ℤ)
  | resumeTimer (i : ℕ) (now : ℤ)
  | drain
  | resumeDrain (i : ℕ) (now : ℤ)
deriving DecidableEq, Repr

/-- A promise of `flushBucket` is settled. -/
def settled (c : Counter) (promise : Option ℕ) : Bool := promise.all fun u => (c.upserts u).finished

/-- `hit` up to its `await`, or to its end if it does not await. -/
def stepHit (o : Options) (s : System) (key : String) (fixedResetAt : Option ℤ) (now : ℤ) :
    System :=
  let (c, ref) := s.counter.currentBucket now key fixedResetAt
  let ordinal := (c.heap ref).made
  let c := c.countHit ref
  if now - (c.heap ref).lastFlushAt ≥ flushIntervalMs then
    -- even a resolved promise is awaited, so the hit never returns in this section
    let (c, promise) := c.flushBucket now key ref fixedResetAt
    { s with counter := c, waiting := s.waiting ++ [⟨key, ref, ordinal, promise⟩] }
  else
    let (c, count, resetAt) := finishHit o c key ref
    { s with counter := c, returned := s.returned ++ [⟨ref, ordinal, count, resetAt⟩] }

/-- `hit` after its `await`. -/
def stepResumeHit (o : Options) (s : System) (i : ℕ) (w : Waiting) : System :=
  let (c, count, resetAt) := finishHit o s.counter w.key w.bucket
  { s with counter := c, waiting := s.waiting.eraseIdx i,
           returned := s.returned ++ [⟨w.bucket, w.ordinal, count, resetAt⟩] }

/-- The callback of the timer of `key`. -/
def stepFire (s : System) (key : String) (ref : ℕ) (now : ℤ) : System :=
  let c := { s.counter with flushTimers := s.counter.flushTimers.delete key }
  -- a replaced or already flushed bucket needs nothing
  if c.buckets.get key ≠ some ref ∨ (c.heap ref).pendingDelta = [] then { s with counter := c }
  else
    let (c, promise) := c.flushIfCurrent now key ref
    { s with counter := c, timerTasks := s.timerTasks ++ [⟨key, ref, promise⟩] }

/-- The `finally` callback of the timer: try again on the next interval. -/
def stepResumeTimer (s : System) (i : ℕ) (task : TimerTask) (now : ℤ) : System :=
  let c := s.counter
  let bucket := c.heap task.bucket
  let c := if bucket.pendingDelta ≠ [] ∧ bucket.resetAt > now ∧
      c.buckets.get task.key = some task.bucket then c.scheduleFlush task.key task.bucket else c
  { s with counter := c, timerTasks := s.timerTasks.eraseIdx i }

/-- `drain` after one of its `await`s. -/
def stepResumeDrain (s : System) (i : ℕ) (task : DrainTask) (now : ℤ) : System :=
  match task.stage with
  | .settling =>
    let pending := s.counter.pendingBuckets
    if pending = [] then { s with drains := s.drains.eraseIdx i }
    else
      let (c, promises) := flushAll now s.counter pending
      let next : DrainTask := { task with stage := .flushing, on := promises }
      { s with counter := c, drains := s.drains.set i next }
  | .flushing =>
    if task.pass + 1 < 3 then
      let next : DrainTask := ⟨task.pass + 1, .settling, s.counter.flushInFlight.values⟩
      { s with drains := s.drains.set i next }
    else { s with drains := s.drains.eraseIdx i }

/-- One event. What awaits a promise goes on only when it is settled. -/
def step (o : Options) (s : System) : Event → Option System
  | .hit key fixedResetAt now => some (stepHit o s key fixedResetAt now)
  | .resumeHit i =>
    match s.waiting[i]? with
    | some w => if settled s.counter w.on then some (stepResumeHit o s i w) else none
    | none => none
  | .settle u outcome =>
    if u < s.counter.nextUpsert ∧ (s.counter.upserts u).status = .sent then
      some { s with counter := s.counter.settleUpsert u outcome }
    else none
  | .finish u =>
    if u < s.counter.nextUpsert ∧ (s.counter.upserts u).status ≠ .sent ∧
        (s.counter.upserts u).finished = false then
      some { s with counter := s.counter.finishUpsert u }
    else none
  | .fire key now =>
    match s.counter.flushTimers.get key with
    | some ref => some (stepFire s key ref now)
    | none => none
  | .resumeTimer i now =>
    match s.timerTasks[i]? with
    | some task => if settled s.counter task.on then some (stepResumeTimer s i task now) else none
    | none => none
  | .drain => some { s with
      counter := s.counter.startDrain
      drains := s.drains ++ [⟨0, .settling, s.counter.flushInFlight.values⟩] }
  | .resumeDrain i now =>
    match s.drains[i]? with
    | some task =>
      if task.on.all fun u => (s.counter.upserts u).finished then
        some (stepResumeDrain s i task now)
      else none
    | none => none

/-- The states a new counter gets to by some interleaving. -/
def Reachable (o : Options) (s : System) : Prop := EventMachine.Reachable (step o) {} s

end RateLimitCounter
end FirecrawlGateway
