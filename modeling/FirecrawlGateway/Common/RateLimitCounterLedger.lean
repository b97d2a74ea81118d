import FirecrawlGateway.Common.RateLimitCounter

/-!
# Where the hits of a bucket are

`counted` collects the hits of a bucket from everywhere they can be: its pending delta, the
upserts that were not rejected, and the hits given up at the end of a window. `Ledger` says
that these are all the hits made on the bucket, each exactly once; `Placed` says why a bucket
with hits is no longer in the map. Everything the methods do between two `await`s is a sequence
of `Change`s, and both properties are proved of these.
-/

namespace FirecrawlGateway
namespace RateLimitCounter

/-- The hits of bucket `b` in an upsert, if that is its status. -/
def Upsert.share (x : Upsert) (b : ℕ) (status : UpsertStatus) : Multiset ℕ :=
  if x.bucket = b ∧ x.status = status then x.delta else 0

namespace Counter

/-! ## Assignments -/

@[simp] lemma modify_heap_self (c : Counter) (ref : ℕ) (f : Bucket → Bucket) :
    (c.modify ref f).heap ref = f (c.heap ref) := Function.update_self ..

@[simp] lemma modify_heap_of_ne {c : Counter} {ref b : ℕ} (h : b ≠ ref) (f : Bucket → Bucket) :
    (c.modify ref f).heap b = c.heap b := Function.update_of_ne h ..

/-- An assignment that keeps a field of the bucket keeps it in every bucket. -/
lemma modify_heap {c : Counter} {ref : ℕ} {f : Bucket → Bucket} {α : Type} (g : Bucket → α)
    (h : g (f (c.heap ref)) = g (c.heap ref)) (b : ℕ) :
    g ((c.modify ref f).heap b) = g (c.heap b) := by
  by_cases hb : b = ref
  · subst hb
    rw [modify_heap_self, h]
  · rw [modify_heap_of_ne hb]

/-- A rewritten upsert that keeps a field keeps it in every upsert. -/
lemma update_upserts {c : Counter} {u : ℕ} {x : Upsert} {α : Type} (g : Upsert → α)
    (h : g x = g (c.upserts u)) (i : ℕ) :
    g (Function.update c.upserts u x i) = g (c.upserts i) := by
  by_cases hi : i = u
  · rw [hi, Function.update_self, h]
  · rw [Function.update_of_ne hi]

/-! ## The ledger of a bucket -/

/-- The hits of bucket `b` in the upserts of that status. -/
def upserted (c : Counter) (b : ℕ) (status : UpsertStatus) : Multiset ℕ :=
  ∑ u ∈ Finset.range c.nextUpsert, (c.upserts u).share b status

/-- All the places where hits of bucket `b` can be. -/
def counted (c : Counter) (b : ℕ) : Multiset ℕ :=
  (c.heap b).pendingDelta + c.upserted b .sent + c.upserted b .resolved + (c.heap b).dropped

/-- Every hit made on a bucket is in exactly one place. -/
structure Ledger (c : Counter) : Prop where
  counted : ∀ b < c.nextBucket, c.counted b = Multiset.range (c.heap b).made
  bucket : ∀ u < c.nextUpsert, (c.upserts u).bucket < c.nextBucket

/-- A bucket in the map exists, and one with hits that left it had reached its end or was
evicted. -/
structure Placed (c : Counter) : Prop where
  current : ∀ key ref, c.buckets.get key = some ref → ref < c.nextBucket
  removed : ∀ b < c.nextBucket, (c.heap b).made = 0 ∨ (∃ key, c.buckets.get key = some b) ∨
    (c.heap b).removed = some .expired ∨ (c.heap b).removed = some .evicted

/-- The answered upserts of bucket `b` hold what a new upsert would. -/
lemma upserted_of_new {c : Counter} (hc : Ledger c) {b : ℕ} (hb : c.nextBucket ≤ b)
    (status : UpsertStatus) : c.upserted b status = 0 := by
  refine Finset.sum_eq_zero fun u hu => if_neg fun h => ?_
  have := hc.bucket u (Finset.mem_range.mp hu)
  omega

/-- Rewriting one upsert moves only what that upsert holds. -/
lemma upserted_update {c : Counter} {u : ℕ} (hu : u < c.nextUpsert) (x : Upsert) (b : ℕ)
    (status : UpsertStatus) :
    upserted { c with upserts := Function.update c.upserts u x } b status +
      (c.upserts u).share b status = c.upserted b status + x.share b status := by
  have hmem : u ∈ Finset.range c.nextUpsert := Finset.mem_range.mpr hu
  have hrest : ∑ i ∈ (Finset.range c.nextUpsert).erase u,
        (Function.update c.upserts u x i).share b status =
      ∑ i ∈ (Finset.range c.nextUpsert).erase u, (c.upserts i).share b status :=
    Finset.sum_congr rfl fun i hi => by rw [Function.update_of_ne (Finset.ne_of_mem_erase hi)]
  show ∑ i ∈ Finset.range c.nextUpsert, (Function.update c.upserts u x i).share b status + _ = _
  unfold upserted
  rw [← Finset.sum_erase_add _ _ hmem, hrest, Function.update_self,
    ← Finset.sum_erase_add (Finset.range c.nextUpsert) _ hmem]
  exact add_right_comm _ _ _

/-- What every method does to the fields no hit depends on. -/
structure Neutral (c c' : Counter) : Prop where
  nextBucket : c'.nextBucket = c.nextBucket
  nextUpsert : c'.nextUpsert = c.nextUpsert
  share : ∀ u b status, (c'.upserts u).share b status = (c.upserts u).share b status
  bucket : ∀ u, (c'.upserts u).bucket = (c.upserts u).bucket
  pendingDelta : ∀ b, (c'.heap b).pendingDelta = (c.heap b).pendingDelta
  made : ∀ b, (c'.heap b).made = (c.heap b).made
  dropped : ∀ b, (c'.heap b).dropped = (c.heap b).dropped
  syncedCount : ∀ b, (c'.heap b).syncedCount = (c.heap b).syncedCount

lemma Neutral.upserted {c c' : Counter} (h : Neutral c c') (b : ℕ) (status : UpsertStatus) :
    c'.upserted b status = c.upserted b status := by
  unfold Counter.upserted
  rw [h.nextUpsert, Finset.sum_congr rfl fun u _ => h.share u b status]

lemma Neutral.refl (c : Counter) : Neutral c c :=
  ⟨rfl, rfl, fun _ _ _ => rfl, fun _ => rfl, fun _ => rfl, fun _ => rfl, fun _ => rfl, fun _ => rfl⟩

/-- An assignment to other fields of a bucket. -/
lemma neutral_modify {c : Counter} {ref : ℕ} {f : Bucket → Bucket}
    (hp : (f (c.heap ref)).pendingDelta = (c.heap ref).pendingDelta)
    (hm : (f (c.heap ref)).made = (c.heap ref).made)
    (hd : (f (c.heap ref)).dropped = (c.heap ref).dropped)
    (hs : (f (c.heap ref)).syncedCount = (c.heap ref).syncedCount) : Neutral c (c.modify ref f) :=
  ⟨rfl, rfl, fun _ _ _ => rfl, fun _ => rfl, modify_heap _ hp, modify_heap _ hm, modify_heap _ hd,
    modify_heap _ hs⟩

/-! ## Changes -/

/-- The heap with one more bucket. -/
def alloc (c : Counter) (bucket : Bucket) : Counter :=
  { c with heap := Function.update c.heap c.nextBucket bucket, nextBucket := c.nextBucket + 1 }

lemma alloc_heap_self (c : Counter) (bucket : Bucket) :
    (c.alloc bucket).heap c.nextBucket = bucket := Function.update_self ..

lemma alloc_heap_of_ne {c : Counter} {b : ℕ} (h : b ≠ c.nextBucket) (bucket : Bucket) :
    (c.alloc bucket).heap b = c.heap b := Function.update_of_ne h ..

/-- `flushBucket` when it sends an upsert. -/
def send (c : Counter) (now : ℤ) (key : String) (ref : ℕ) (fixedResetAt : Option ℤ) : Counter :=
  { c.modify ref fun b => { b with pendingDelta := [], lastFlushAt := now } with
    upserts := Function.update c.upserts c.nextUpsert
      { key := key, bucket := ref, delta := (c.heap ref).pendingDelta, fixedResetAt := fixedResetAt }
    nextUpsert := c.nextUpsert + 1
    flushInFlight := c.flushInFlight.set key c.nextUpsert }

/-- Giving up what a bucket has pending. -/
def giveUp (c : Counter) (ref : ℕ) : Counter :=
  c.modify ref fun b => { b with pendingDelta := [], dropped := b.dropped ++ b.pendingDelta }

/-- What a method can do to the hits, where `ended b` says that the window of `b` has ended. -/
inductive Change (ended : ℕ → Prop) (c : Counter) : Counter → Prop
  | neutral {c' : Counter} (h : Neutral c c') (hplaced : Placed c → Placed c') : Change ended c c'
  | alloc {bucket : Bucket} (hpending : bucket.pendingDelta = []) (hmade : bucket.made = 0)
      (hdropped : bucket.dropped = []) : Change ended c (c.alloc bucket)
  | count {key : String} {ref : ℕ} (h : c.buckets.get key = some ref) : Change ended c (c.countHit ref)
  | send {now : ℤ} {key : String} {ref : ℕ} {fixedResetAt : Option ℤ} (h : ref < c.nextBucket) :
      Change ended c (c.send now key ref fixedResetAt)
  | giveUp {ref : ℕ} (h : ended ref) : Change ended c (c.giveUp ref)

/-- A sequence of changes. -/
def Changes (ended : ℕ → Prop) : Counter → Counter → Prop := Relation.ReflTransGen (Change ended)

/-! ## What a change keeps -/

lemma Neutral.counted {c c' : Counter} (h : Neutral c c') (b : ℕ) :
    c'.counted b = c.counted b := by
  unfold Counter.counted
  rw [h.pendingDelta, h.dropped, h.upserted, h.upserted]

lemma Neutral.ledger {c c' : Counter} (h : Neutral c c') (hc : Ledger c) : Ledger c' where
  counted b hb := by
    rw [h.counted, h.made]
    exact hc.counted b (h.nextBucket ▸ hb)
  bucket u hu := by
    rw [h.bucket, h.nextBucket]
    exact hc.bucket u (h.nextUpsert ▸ hu)

lemma Ledger.alloc {c : Counter} (hc : Ledger c) {bucket : Bucket} (hp : bucket.pendingDelta = [])
    (hm : bucket.made = 0) (hd : bucket.dropped = []) : Ledger (c.alloc bucket) where
  counted b hb := by
    have hup : ∀ status, (c.alloc bucket).upserted b status = c.upserted b status := fun _ => rfl
    unfold Counter.counted
    rw [hup, hup]
    by_cases hnew : b = c.nextBucket
    · -- no upsert can hold hits of a bucket that did not exist
      rw [upserted_of_new hc hnew.ge, upserted_of_new hc hnew.ge, hnew, alloc_heap_self, hp, hm, hd]
      rfl
    · have hlt : b < c.nextBucket + 1 := hb
      rw [alloc_heap_of_ne hnew]
      exact hc.counted b (by omega)
  bucket u hu := (hc.bucket u hu).trans (Nat.lt_succ_self _)

/-- A hit is one more element of the pending delta. -/
lemma Ledger.countHit {c : Counter} (hc : Ledger c) (ref : ℕ) : Ledger (c.countHit ref) where
  counted b hb := by
    have hup : ∀ status, (c.countHit ref).upserted b status = c.upserted b status := fun _ => rfl
    have hold := hc.counted b hb
    unfold Counter.counted at hold ⊢
    rw [hup, hup]
    by_cases href : b = ref
    · -- the new hit is number `made`, so both sides gain the same element
      subst href
      unfold Counter.countHit
      rw [modify_heap_self, Multiset.range_succ, ← hold, ← Multiset.singleton_add]
      dsimp only
      rw [← Multiset.coe_add, ← Multiset.coe_singleton]
      abel
    · unfold Counter.countHit
      rw [modify_heap_of_ne href]
      exact hold
  bucket := hc.bucket

lemma send_upserted (c : Counter) (now : ℤ) (key : String) (ref : ℕ) (fixedResetAt : Option ℤ)
    (b : ℕ) (status : UpsertStatus) :
    (c.send now key ref fixedResetAt).upserted b status = c.upserted b status +
      if ref = b ∧ .sent = status then ((c.heap ref).pendingDelta : Multiset ℕ) else 0 := by
  unfold upserted
  show ∑ u ∈ Finset.range (c.nextUpsert + 1), (Function.update c.upserts c.nextUpsert _ u).share _ _ = _
  rw [Finset.sum_range_succ, Function.update_self]
  congr 1
  refine Finset.sum_congr rfl fun u hu => ?_
  rw [Function.update_of_ne (Finset.mem_range.mp hu).ne]

/-- An upsert takes the pending delta with it. -/
lemma Ledger.send {c : Counter} (hc : Ledger c) {now : ℤ} {key : String} {ref : ℕ}
    {fixedResetAt : Option ℤ} (href : ref < c.nextBucket) :
    Ledger (c.send now key ref fixedResetAt) where
  counted b hb := by
    have hold := hc.counted b hb
    have hresolved : (c.send now key ref fixedResetAt).upserted b .resolved =
        c.upserted b .resolved := by
      rw [send_upserted, if_neg fun h => UpsertStatus.noConfusion h.2, add_zero]
    unfold Counter.counted at hold ⊢
    rw [hresolved, send_upserted]
    by_cases hbref : b = ref
    · -- what leaves the pending delta is in flight
      subst hbref
      have hheap : (c.send now key b fixedResetAt).heap b =
        { c.heap b with pendingDelta := [], lastFlushAt := now } := Function.update_self ..
      rw [hheap, if_pos ⟨rfl, rfl⟩]
      dsimp only
      rw [← hold, Multiset.coe_nil]
      abel
    · have hheap : (c.send now key ref fixedResetAt).heap b = c.heap b :=
        Function.update_of_ne hbref ..
      rw [hheap, if_neg (by simp [Ne.symm hbref]), ← hold]
      abel
  bucket u hu := by
    show (Function.update c.upserts c.nextUpsert _ u).bucket < c.nextBucket
    have hu' : u < c.nextUpsert + 1 := hu
    by_cases hnew : u = c.nextUpsert
    · rw [hnew, Function.update_self]
      exact href
    · rw [Function.update_of_ne hnew]
      exact hc.bucket u (by omega)

lemma Ledger.giveUp {c : Counter} (hc : Ledger c) (ref : ℕ) : Ledger (c.giveUp ref) where
  counted b hb := by
    have hup : ∀ status, (c.giveUp ref).upserted b status = c.upserted b status := fun _ => rfl
    have hold := hc.counted b hb
    unfold Counter.counted at hold ⊢
    rw [hup, hup]
    by_cases href : b = ref
    · subst href
      unfold Counter.giveUp
      rw [modify_heap_self]
      dsimp only
      rw [← hold, Multiset.coe_nil, ← Multiset.coe_add]
      abel
    · unfold Counter.giveUp
      rw [modify_heap_of_ne href]
      exact hold
  bucket := hc.bucket

lemma Change.ledger {ended : ℕ → Prop} {c c' : Counter} (h : Change ended c c') (hc : Ledger c) :
    Ledger c' := by
  cases h with
  | neutral h _ => exact h.ledger hc
  | alloc hp hm hd => exact hc.alloc hp hm hd
  | count _ => exact hc.countHit _
  | send h => exact hc.send h
  | giveUp _ => exact hc.giveUp _

/-- An assignment to a bucket that keeps its hits and the reason it was removed. -/
lemma Placed.congr {c c' : Counter} (h : Placed c) (hbuckets : c'.buckets = c.buckets)
    (hnext : c'.nextBucket = c.nextBucket) (hmade : ∀ b, (c'.heap b).made = (c.heap b).made)
    (hremoved : ∀ b, (c'.heap b).removed = (c.heap b).removed) : Placed c' where
  current key ref hget := hnext ▸ h.current key ref (hbuckets ▸ hget)
  removed b hb := by
    rw [hmade, hremoved, hbuckets]
    exact h.removed b (hnext ▸ hb)

lemma Placed.alloc {c : Counter} (h : Placed c) {bucket : Bucket} (hm : bucket.made = 0) :
    Placed (c.alloc bucket) where
  current key ref hget := (h.current key ref hget).trans (Nat.lt_succ_self _)
  removed b hb := by
    by_cases hnew : b = c.nextBucket
    · exact Or.inl (by rw [hnew, alloc_heap_self, hm])
    · have hlt : b < c.nextBucket + 1 := hb
      rw [alloc_heap_of_ne hnew]
      exact h.removed b (by omega)

lemma Placed.countHit {c : Counter} (h : Placed c) {key : String} {ref : ℕ}
    (hget : c.buckets.get key = some ref) : Placed (c.countHit ref) where
  current := h.current
  removed b hb := by
    unfold Counter.countHit
    by_cases href : b = ref
    · exact Or.inr (Or.inl ⟨key, href ▸ hget⟩)
    · rw [modify_heap_of_ne href]
      exact h.removed b hb

lemma Placed.send {c : Counter} (h : Placed c) {now : ℤ} {key : String} {ref : ℕ}
    {fixedResetAt : Option ℤ} : Placed (c.send now key ref fixedResetAt) := by
  let zeroed := c.modify ref fun b => { b with pendingDelta := [], lastFlushAt := now }
  have hzeroed : Placed zeroed :=
    h.congr rfl rfl (modify_heap Bucket.made rfl) (modify_heap Bucket.removed rfl)
  exact hzeroed.congr rfl rfl (fun _ => rfl) fun _ => rfl

lemma Change.placed {ended : ℕ → Prop} {c c' : Counter} (h : Change ended c c') (hc : Placed c) :
    Placed c' := by
  cases h with
  | neutral _ hplaced => exact hplaced hc
  | alloc _ hm _ => exact hc.alloc hm
  | count hget => exact hc.countHit hget
  | send _ => exact hc.send
  | giveUp _ => exact hc.congr rfl rfl (modify_heap Bucket.made rfl) (modify_heap Bucket.removed rfl)

lemma Changes.ledger {ended : ℕ → Prop} {c c' : Counter} (h : Changes ended c c') (hc : Ledger c) :
    Ledger c' := by
  induction h with
  | refl => exact hc
  | tail _ hlast ih => exact hlast.ledger ih

lemma Changes.placed {ended : ℕ → Prop} {c c' : Counter} (h : Changes ended c c') (hc : Placed c) :
    Placed c' := by
  induction h with
  | refl => exact hc
  | tail _ hlast ih => exact hlast.placed ih

end Counter

end RateLimitCounter
end FirecrawlGateway
