import FirecrawlGateway.Common.RateLimitSections
import FirecrawlGateway.Common.SharedRateLimits

/-!
# Where the hits on a key are

The hits that all counters made on a key are in the rows that were written, or they are unsaved:
pending, given up, or in an upsert that the database has not run. An upsert that committed although
its counter was told otherwise is written again, so its hits are `replayed`. `conservation` is this
balance, for every key in every state that keeps `Consistent`.
-/

namespace FirecrawlGateway
namespace RateLimitCounter

/-- The hits of a bucket that have not left the process, or never will. -/
def Bucket.kept (b : Bucket) : ℕ := b.pendingDelta.length + b.dropped.length

namespace Counter

/-- What the buckets of `key` hold, by a measure of a bucket. -/
def bucketHits (c : Counter) (keyOf : ℕ → String) (key : String) (size : Bucket → ℕ) : ℕ :=
  ∑ b ∈ Finset.range c.nextBucket, if keyOf b = key then size (c.heap b) else 0

/-- How many hits the upserts of `key` hold that meet `p`. -/
def upsertHits (c : Counter) (key : String) (p : ℕ → Prop) [DecidablePred p] : ℕ :=
  ∑ u ∈ Finset.range c.nextUpsert,
    if (c.upserts u).key = key ∧ p u then (c.upserts u).delta.length else 0

/-! ## One counter -/

lemma card_share (x : Upsert) (b : ℕ) (status : UpsertStatus) :
    (x.share b status).card = if x.bucket = b ∧ x.status = status then x.delta.length else 0 := by
  unfold Upsert.share
  split_ifs <;> rfl

/-- The hits made on a bucket, by where they are. -/
lemma Ledger.made {c : Counter} (h : Ledger c) {b : ℕ} (hb : b < c.nextBucket) :
    (c.heap b).made = Bucket.kept (c.heap b) + (c.upserted b .sent).card +
      (c.upserted b .resolved).card := by
  have hcard := congrArg Multiset.card (h.counted b hb)
  unfold Counter.counted at hcard
  simp only [Multiset.card_add, Multiset.coe_card, Multiset.card_range] at hcard
  unfold Bucket.kept
  omega

/-- The upserts of the buckets of a key are the upserts of the key. -/
lemma sum_upserted {c : Counter} {keyOf : ℕ → String} (hledger : Ledger c) (hkeyed : Keyed keyOf c)
    (key : String) (status : UpsertStatus) :
    ∑ b ∈ Finset.range c.nextBucket, (if keyOf b = key then (c.upserted b status).card else 0) =
      c.upsertHits key fun u => (c.upserts u).status = status := by
  have hswap : ∀ b, (if keyOf b = key then (c.upserted b status).card else 0) =
      ∑ u ∈ Finset.range c.nextUpsert, if (c.upserts u).bucket = b then
        (if (c.upserts u).key = key ∧ (c.upserts u).status = status then
          (c.upserts u).delta.length else 0) else 0 := by
    intro b
    unfold Counter.upserted
    rw [Multiset.card_sum]
    by_cases hb : keyOf b = key
    · rw [if_pos hb]
      refine Finset.sum_congr rfl fun u hu => ?_
      rw [card_share, ← hkeyed.upserts u (Finset.mem_range.mp hu)]
      by_cases hub : (c.upserts u).bucket = b
      · simp only [hub, hb, true_and, if_true]
      · rw [if_neg hub, if_neg fun h => hub h.1]
    · -- a bucket of another key has upserts of that key only
      rw [if_neg hb, eq_comm]
      refine Finset.sum_eq_zero fun u hu => ?_
      rw [← hkeyed.upserts u (Finset.mem_range.mp hu)]
      by_cases hub : (c.upserts u).bucket = b
      · rw [if_pos hub, hub, if_neg fun h => hb h.1]
      · rw [if_neg hub]
  simp only [hswap]
  rw [Finset.sum_comm]
  refine Finset.sum_congr rfl fun u hu => ?_
  rw [Finset.sum_ite_eq, if_pos]
  exact Finset.mem_range.mpr (hledger.bucket u (Finset.mem_range.mp hu))

/-- The hits made on the buckets of a key, by where they are. -/
lemma bucketHits_made {c : Counter} {keyOf : ℕ → String} (hledger : Ledger c)
    (hkeyed : Keyed keyOf c) (key : String) :
    c.bucketHits keyOf key Bucket.made = c.bucketHits keyOf key Bucket.kept +
      (c.upsertHits key fun u => (c.upserts u).status = .sent) +
      c.upsertHits key fun u => (c.upserts u).status = .resolved := by
  rw [← sum_upserted hledger hkeyed, ← sum_upserted hledger hkeyed]
  unfold bucketHits
  rw [← Finset.sum_add_distrib, ← Finset.sum_add_distrib]
  refine Finset.sum_congr rfl fun b hb => ?_
  split_ifs
  · exact hledger.made (Finset.mem_range.mp hb)
  · rfl

/-- The balance of one counter: `done u` says that the database has committed upsert `u`. -/
lemma balance {c : Counter} {keyOf : ℕ → String} (hledger : Ledger c) (hkeyed : Keyed keyOf c)
    {done : ℕ → Prop} [DecidablePred done]
    (hresolved : ∀ u < c.nextUpsert, (c.upserts u).status = .resolved → done u) (key : String) :
    c.bucketHits keyOf key Bucket.made +
        c.upsertHits key (fun u => done u ∧ (c.upserts u).status = .rejected) =
      c.upsertHits key done + (c.bucketHits keyOf key Bucket.kept +
        c.upsertHits key fun u => ¬ done u ∧ (c.upserts u).status = .sent) := by
  have hmade := bucketHits_made hledger hkeyed key
  -- an upsert counts by its status and whether it was committed
  have hupserts : (c.upsertHits key fun u => (c.upserts u).status = .sent) +
      (c.upsertHits key fun u => (c.upserts u).status = .resolved) +
      (c.upsertHits key fun u => done u ∧ (c.upserts u).status = .rejected) =
      c.upsertHits key done +
        c.upsertHits key fun u => ¬ done u ∧ (c.upserts u).status = .sent := by
    unfold upsertHits
    simp only [← Finset.sum_add_distrib]
    refine Finset.sum_congr rfl fun u hu => ?_
    have hdone := hresolved u (Finset.mem_range.mp hu)
    have hstatus : (c.upserts u).status = .sent ∨ (c.upserts u).status = .resolved ∨
        (c.upserts u).status = .rejected := by
      generalize (c.upserts u).status = status
      cases status <;> simp
    rcases hstatus with hsent | hresolved | hrejected
    · by_cases hcommitted : done u <;> simp [hsent, hcommitted]
    · simp [hresolved, hdone hresolved]
    · by_cases hcommitted : done u <;> simp [hrejected, hcommitted]
  omega

lemma kept_le_bucketHits {c : Counter} {keyOf : ℕ → String} {b : ℕ} (hb : b < c.nextBucket) :
    (c.heap b).pendingDelta.length ≤ c.bucketHits keyOf (keyOf b) Bucket.kept := by
  have hle : Bucket.kept (c.heap b) ≤ c.bucketHits keyOf (keyOf b) Bucket.kept := by
    unfold bucketHits
    have := Finset.single_le_sum (f := fun i => if keyOf i = keyOf b then Bucket.kept (c.heap i)
      else 0) (fun _ _ => Nat.zero_le _) (Finset.mem_range.mpr hb)
    rwa [if_pos rfl] at this
  exact (Nat.le_add_right _ _).trans hle

end Counter

namespace Cluster

open Counter

variable {ι : Type} [Fintype ι] (s : Cluster ι)

/-! ## All counters -/

/-- The hits on `key` in upserts that the database has committed. -/
def flushed (key : String) : ℕ :=
  ∑ i, (s.counters i).counter.upsertHits key fun u => s.answers i u ≠ none

/-- The hits on `key` that were committed but whose acknowledgement was lost. -/
def replayed (key : String) : ℕ :=
  ∑ i, (s.counters i).counter.upsertHits key fun u =>
    s.answers i u ≠ none ∧ ((s.counters i).counter.upserts u).status = .rejected

/-- The hits on `key` that are in no committed upsert: pending, given up at the end of a window, or
in an upsert that the database has not run. -/
def unsaved (key : String) : ℕ :=
  ∑ i, ((s.counters i).counter.bucketHits (s.keyOf i) key Bucket.kept +
    (s.counters i).counter.upsertHits key fun u =>
      ¬ s.answers i u ≠ none ∧ ((s.counters i).counter.upserts u).status = .sent)

/-- The buckets and upserts of every counter are in order, and the answers are of upserts that were
sent. -/
structure Consistent : Prop where
  sound : ∀ i, Sound (s.counters i).counter
  keyed : ∀ i, Keyed (s.keyOf i) (s.counters i).counter
  resolved : ∀ i, ∀ u < (s.counters i).counter.nextUpsert,
    ((s.counters i).counter.upserts u).status = .resolved → s.answers i u ≠ none
  answered : ∀ i u, s.answers i u ≠ none → u < (s.counters i).counter.nextUpsert
  hits : ∀ key, s.hits key =
    ∑ i, (s.counters i).counter.bucketHits (s.keyOf i) key Bucket.made

variable {s}

/-- The hits made on a key are saved or unsaved, apart from the replayed ones. -/
lemma Consistent.conservation (h : Consistent s) (key : String) :
    s.hits key + s.replayed key = s.flushed key + s.unsaved key := by
  rw [h.hits]
  unfold replayed flushed unsaved
  rw [← Finset.sum_add_distrib, ← Finset.sum_add_distrib]
  exact Finset.sum_congr rfl fun i _ => balance (h.sound i).ledger (h.keyed i) (h.resolved i) key

/-- What a bucket has pending is unsaved. -/
lemma pending_le_unsaved {i : ι} {b : ℕ} (hb : b < (s.counters i).counter.nextBucket) :
    ((s.counters i).counter.heap b).pendingDelta.length ≤ s.unsaved (s.keyOf i b) := by
  unfold unsaved
  refine le_trans ?_ (Finset.single_le_sum (fun _ _ => Nat.zero_le _) (Finset.mem_univ i))
  exact (kept_le_bucketHits hb).trans (Nat.le_add_right _ _)

end Cluster

end RateLimitCounter
end FirecrawlGateway
