import FirecrawlGateway.Common.RateLimitDrain

/-!
# Rate limit counters that share a table

Every process has its counters, and all of them write to the table `rate_limits`. A `Cluster` is
any number of counters with that table. The database runs an upsert at any time after it was sent,
whether or not the counter still waits for it: an acknowledgement can be lost. A counter is only
told of a row that was written. The last two fields of `Cluster` are not in the source: they only
record what happened.
-/

namespace FirecrawlGateway
namespace RateLimitCounter

/-! ## The table -/

/-- A row of `rate_limits`. A `timestamptz` counts microseconds. -/
structure Row where
  count : ℕ
  resetAt : ℤ
deriving DecidableEq, Repr

/-- The largest `INTEGER`. -/
def maxInteger : ℕ := 2147483647

/-- `COALESCE(fixedResetAt, NOW() + interval '1 minute')`. -/
def coalesceResetAt (now : ℤ) (fixedResetAt : Option ℤ) : ℤ :=
  (fixedResetAt.map (1000 * ·)).getD (now + 60000000)

/-- What the upsert of `flushBucket` makes of the row of its key, at the database's `NOW()`. -/
def upsertRow (now : ℤ) (delta : ℕ) (fixedResetAt : Option ℤ) : Option Row → Row
  | none => ⟨delta, coalesceResetAt now fixedResetAt⟩
  | some row => {
      count := if row.resetAt ≤ now then delta else row.count + delta
      resetAt := if row.resetAt ≤ now then coalesceResetAt now fixedResetAt else row.resetAt }

/-- `RETURNING count, reset_at`, as `new Date(entry.reset_at).getTime()` reads it. -/
def Row.returning (row : Row) : ℕ × ℤ := (row.count, row.resetAt / 1000)

/-! ## The counters -/

variable {ι : Type}

/-- Counters of any number of processes, with the table they share. -/
structure Cluster (ι : Type) where
  table : String → Option Row := fun _ => none
  counters : ι → System := fun _ => {}
  /-- What the database answers to the upserts it has committed. -/
  answers : ι → ℕ → Option (ℕ × ℤ) := fun _ _ => none
  /-- The key a bucket was made for. -/
  keyOf : ι → ℕ → String := fun _ _ => ""
  /-- How many hits were counted on a key, by all counters. -/
  hits : String → ℕ := fun _ => 0

/-- A section of one counter, the commit of an upsert, or the deletion of an expired row by the
daily cleanup. -/
inductive ClusterEvent (ι : Type)
  | act (i : ι) (e : Event)
  | commit (i : ι) (u : ℕ) (now : ℤ)
  | prune (key : String) (now : ℤ)

/-- An upsert resolves with the row that was written for it, and may be rejected at any time. -/
def Answered (answers : ℕ → Option (ℕ × ℤ)) : Event → Prop
  | .settle u (.resolved entry) => entry ≠ none ∧ answers u = entry
  | _ => True

instance (answers : ℕ → Option (ℕ × ℤ)) : (e : Event) → Decidable (Answered answers e)
  | .settle _ (.resolved entry) => inferInstanceAs (Decidable (entry ≠ none ∧ _))
  | .settle _ .rejected => isTrue trivial
  | .hit .. => isTrue trivial
  | .resumeHit _ => isTrue trivial
  | .finish _ => isTrue trivial
  | .fire .. => isTrue trivial
  | .resumeTimer .. => isTrue trivial
  | .drain => isTrue trivial
  | .resumeDrain .. => isTrue trivial

namespace Cluster

variable [DecidableEq ι]

/-- The record of a hit. -/
def note (s : Cluster ι) (i : ι) : Event → Cluster ι
  | .hit key fixedResetAt now =>
    let ref := ((s.counters i).counter.currentBucket now key fixedResetAt).2
    { s with
      keyOf := Function.update s.keyOf i (Function.update (s.keyOf i) ref key)
      hits := Function.update s.hits key (s.hits key + 1) }
  | _ => s

/-- The row that an upsert writes. -/
def written (s : Cluster ι) (i : ι) (u : ℕ) (now : ℤ) : Row :=
  let upsert := (s.counters i).counter.upserts u
  upsertRow now upsert.delta.length upsert.fixedResetAt (s.table upsert.key)

/-- The database commits upsert `u` of counter `i`. -/
def commit (s : Cluster ι) (i : ι) (u : ℕ) (now : ℤ) : Cluster ι :=
  { s with
    table := Function.update s.table ((s.counters i).counter.upserts u).key (s.written i u now)
    answers := Function.update s.answers i
      (Function.update (s.answers i) u (s.written i u now).returning) }

/-- `DELETE FROM rate_limits WHERE reset_at < NOW()`, for one row. -/
def prune (s : Cluster ι) (key : String) (now : ℤ) : Cluster ι :=
  if (s.table key).any (·.resetAt < now) then
    { s with table := Function.update s.table key none }
  else s

end Cluster

variable [DecidableEq ι]

/-- One event. An upsert is committed once at most, and never with a count that is no `INTEGER`. -/
def clusterStep (o : ι → Options) (s : Cluster ι) : ClusterEvent ι → Option (Cluster ι)
  | .act i e =>
    if Answered (s.answers i) e then
      (step (o i) (s.counters i) e).map fun t =>
        { s.note i e with counters := Function.update s.counters i t }
    else none
  | .commit i u now =>
    if u < (s.counters i).counter.nextUpsert ∧ s.answers i u = none ∧
        (s.written i u now).count ≤ maxInteger then
      some (s.commit i u now)
    else none
  | .prune key now => some (s.prune key now)

/-- The states that new counters and an empty table get to by some interleaving. -/
def ClusterReachable (o : ι → Options) (s : Cluster ι) : Prop :=
  EventMachine.Reachable (clusterStep o) {} s

end RateLimitCounter
end FirecrawlGateway
