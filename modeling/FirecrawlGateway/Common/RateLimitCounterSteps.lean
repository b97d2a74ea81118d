import FirecrawlGateway.Common.RateLimitCounterLedger

/-!
# The steps of the rate limit counter

Every method is a sequence of `Change`s, and so is every event but the answer to an upsert,
which has its own lemmas. `Sound` collects what holds of every reachable counter.
-/

namespace FirecrawlGateway
namespace RateLimitCounter

namespace Counter

variable {ended : ℕ → Prop}

/-- A single change. -/
lemma Changes.single {c c' : Counter} (h : Change ended c c') : Changes ended c c' :=
  Relation.ReflTransGen.single h

/-- An assignment to fields of a bucket that are neither hits nor the reason it was removed. -/
lemma changes_modify {c : Counter} {ref : ℕ} {f : Bucket → Bucket}
    (h : Neutral c (c.modify ref f)) (hremoved : (f (c.heap ref)).removed = (c.heap ref).removed) :
    Changes ended c (c.modify ref f) :=
  Changes.single (.neutral h fun hc => hc.congr rfl rfl h.made (modify_heap Bucket.removed hremoved))

/-! ## The map of buckets -/

/-- Which bucket a key has does not matter to the hits. -/
lemma Neutral.setBuckets {c c' : Counter} (h : Neutral c c') (buckets : JsMap String ℕ) :
    Neutral c { c' with buckets } :=
  ⟨h.nextBucket, h.nextUpsert, h.share, h.bucket, h.pendingDelta, h.made, h.dropped,
    h.syncedCount⟩

lemma neutral_dropBucket (c : Counter) (now : ℤ) (key : String) :
    Neutral c (c.dropBucket now key) := by
  unfold dropBucket
  cases c.buckets.get key with
  | none => exact Neutral.refl c
  | some ref => exact (neutral_modify rfl rfl rfl rfl).setBuckets _

/-- Dropping a bucket leaves the other keys where they are. -/
lemma dropBucket_get (c : Counter) (now : ℤ) (key k : String) :
    (c.dropBucket now key).buckets.get k = if k = key then none else c.buckets.get k := by
  unfold dropBucket
  split
  · rename_i hkey
    split_ifs with hk
    · rw [hk, hkey]
    · rfl
  · dsimp only
    split_ifs with hk
    · rw [hk, JsMap.get_delete_self]
    · rw [JsMap.get_delete_of_ne hk]

/-- A bucket may be dropped at the end of its window, or from a full map. -/
lemma Placed.dropBucket {c : Counter} (h : Placed c) {now : ℤ} {key : String}
    (hreason : ∀ ref, c.buckets.get key = some ref →
      (c.heap ref).resetAt ≤ now ∨ maxBuckets ≤ c.buckets.size) :
    Placed (c.dropBucket now key) where
  current k ref hget := by
    rw [dropBucket_get] at hget
    rw [(neutral_dropBucket c now key).nextBucket]
    split_ifs at hget
    exact h.current k ref hget
  removed b hb := by
    rw [(neutral_dropBucket c now key).nextBucket] at hb
    rw [(neutral_dropBucket c now key).made]
    rcases h.removed b hb with hmade | hplace
    · exact Or.inl hmade
    refine Or.inr ?_
    by_cases hkey : c.buckets.get key = some b
    · -- this is the bucket that goes
      refine Or.inr ?_
      unfold Counter.dropBucket
      rw [hkey]
      dsimp only
      rw [modify_heap_self]
      rcases hreason b hkey with hexpired | hfull
      · exact Or.inl (by rw [if_pos hexpired])
      · by_cases hexpired : (c.heap b).resetAt ≤ now
        · exact Or.inl (by rw [if_pos hexpired])
        · exact Or.inr (by rw [if_neg hexpired, if_pos hfull])
    · -- another bucket stays where it is
      rcases hplace with ⟨k, hk⟩ | hremoved
      · refine Or.inl ⟨k, ?_⟩
        have hkk : k ≠ key := by
          rintro rfl
          exact hkey hk
        rw [dropBucket_get, if_neg hkk, hk]
      · refine Or.inr ?_
        unfold Counter.dropBucket
        split
        · exact hremoved
        · rename_i ref href
          have hne : b ≠ ref := by
            rintro rfl
            exact hkey href
          dsimp only
          rwa [modify_heap_of_ne hne]

/-- The eviction removes at most one key. -/
lemma evict_cases (c : Counter) (now : ℤ) :
    c.evict now = c ∨ ∃ oldest, c.evict now = c.dropBucket now oldest := by
  unfold evict
  split
  · split_ifs
    · exact Or.inr ⟨_, rfl⟩
    · exact Or.inl rfl
  · exact Or.inl rfl

lemma neutral_recordBucket (c : Counter) (now : ℤ) (key : String) (ref : ℕ) :
    Neutral c (c.recordBucket now key ref) := by
  unfold recordBucket
  refine Neutral.setBuckets ?_ _
  split_ifs
  · exact neutral_dropBucket c now key
  · rcases evict_cases c now with hevict | ⟨oldest, hevict⟩
    · rw [hevict]
      exact Neutral.refl c
    · rw [hevict]
      exact neutral_dropBucket c now oldest
  · exact Neutral.refl c

/-- A bucket may be inserted under a key that has none. -/
lemma Placed.set {c : Counter} (hc : Placed c) {key : String} {ref : ℕ}
    (hkey : c.buckets.get key = none) (href : ref < c.nextBucket) :
    Placed { c with buckets := c.buckets.set key ref } where
  current k b hget := by
    by_cases hk : k = key
    · rw [hk, JsMap.get_set_self] at hget
      cases hget
      exact href
    · rw [JsMap.get_set_of_ne hk] at hget
      exact hc.current k b hget
  removed b hb := by
    rcases hc.removed b hb with hmade | ⟨k, hk⟩ | hremoved
    · exact Or.inl hmade
    · have hkk : k ≠ key := by
        rintro rfl
        rw [hkey] at hk
        cases hk
      exact Or.inr (Or.inl ⟨k, (JsMap.get_set_of_ne hkk ref).trans hk⟩)
    · exact Or.inr (Or.inr hremoved)

lemma Placed.recordBucket {c : Counter} (hc : Placed c) {now : ℤ} {key : String} {ref : ℕ}
    (hkey : c.buckets.get key = none) (href : ref < c.nextBucket) :
    Placed (c.recordBucket now key ref) := by
  have hhas : c.buckets.has key = false := by simp [JsMap.has, hkey]
  unfold Counter.recordBucket
  rw [if_neg (by simp [hhas])]
  split_ifs with hfull
  · rcases evict_cases c now with hevict | ⟨oldest, hevict⟩
    · rw [hevict]
      exact hc.set hkey href
    · rw [hevict]
      refine (hc.dropBucket fun _ _ => Or.inr hfull).set ?_ ?_
      · rw [dropBucket_get, hkey, ite_self]
      · rwa [(neutral_dropBucket c now oldest).nextBucket]
  · exact hc.set hkey href

/-- `hit` finds the bucket of the key, or drops an expired one and makes another. -/
lemma currentBucket_cases (c : Counter) (now : ℤ) (key : String) (fixedResetAt : Option ℤ) :
    (∃ ref, c.buckets.get key = some ref ∧ now < (c.heap ref).resetAt ∧
      c.currentBucket now key fixedResetAt = (c, ref)) ∨
    ∃ c₁ bucket, (c₁ = c ∧ c.buckets.get key = none ∨ ∃ ref, c₁ = c.dropBucket now key ∧
        c.buckets.get key = some ref ∧ (c.heap ref).resetAt ≤ now) ∧
      c₁.buckets.get key = none ∧
      bucket = { resetAt := fixedResetAt.getD (now + rateLimitWindowMs),
                 fixedResetAt := fixedResetAt : Bucket } ∧
      c.currentBucket now key fixedResetAt =
        ((c₁.alloc bucket).recordBucket now key c₁.nextBucket, c₁.nextBucket) := by
  unfold currentBucket
  cases hkey : c.buckets.get key with
  | none =>
    refine Or.inr ⟨c, _, Or.inl ⟨rfl, rfl⟩, hkey, rfl, ?_⟩
    dsimp only
    rw [hkey]
    rfl
  | some ref =>
    dsimp only
    by_cases hexpired : (c.heap ref).resetAt ≤ now
    · have hnone : (c.dropBucket now key).buckets.get key = none := by
        rw [dropBucket_get, if_pos rfl]
      refine Or.inr ⟨c.dropBucket now key, _, Or.inr ⟨ref, rfl, rfl, hexpired⟩, hnone, rfl, ?_⟩
      rw [if_pos hexpired, hnone]
      rfl
    · refine Or.inl ⟨ref, rfl, lt_of_not_ge hexpired, ?_⟩
      rw [if_neg hexpired, hkey]

lemma currentBucket_get (c : Counter) (now : ℤ) (key : String) (fixedResetAt : Option ℤ) :
    (c.currentBucket now key fixedResetAt).1.buckets.get key =
      some (c.currentBucket now key fixedResetAt).2 := by
  rcases currentBucket_cases c now key fixedResetAt with
    ⟨ref, hget, -, heq⟩ | ⟨c₁, bucket, -, -, -, heq⟩
  · rw [heq]
    exact hget
  · rw [heq]
    exact JsMap.get_set_self ..

lemma currentBucket_changes (c : Counter) (now : ℤ) (key : String) (fixedResetAt : Option ℤ) :
    Changes ended c (c.currentBucket now key fixedResetAt).1 := by
  rcases currentBucket_cases c now key fixedResetAt with
    ⟨ref, hget, -, heq⟩ | ⟨c₁, bucket, hc₁, hnone, rfl, heq⟩
  · rw [heq]
    exact Relation.ReflTransGen.refl
  · rw [heq]
    have hdrop : Changes ended c c₁ := by
      rcases hc₁ with ⟨rfl, -⟩ | ⟨ref, rfl, hget, hexpired⟩
      · exact Relation.ReflTransGen.refl
      · refine Changes.single (.neutral (neutral_dropBucket c now key) fun hc =>
          hc.dropBucket fun b hb => Or.inl ?_)
        rw [hget] at hb
        cases hb
        exact hexpired
    -- an expired bucket goes, a new one is made, and it takes the place in the map
    refine (hdrop.tail (.alloc rfl rfl rfl)).tail (.neutral (neutral_recordBucket _ _ _ _) ?_)
    exact fun hc => hc.recordBucket hnone (Nat.lt_succ_self _)

lemma currentBucket_lt {c : Counter} (hc : Placed c) (now : ℤ) (key : String)
    (fixedResetAt : Option ℤ) : (c.currentBucket now key fixedResetAt).2 <
      (c.currentBucket now key fixedResetAt).1.nextBucket := by
  have hchanges : Changes (fun _ => False) c (c.currentBucket now key fixedResetAt).1 :=
    currentBucket_changes c now key fixedResetAt
  exact (hchanges.placed hc).current key _ (currentBucket_get c now key fixedResetAt)

/-! ## Flushes -/

/-- `flushBucket` joins an upsert in flight, has nothing to do, or sends one. -/
lemma flushBucket_cases (c : Counter) (now : ℤ) (key : String) (ref : ℕ)
    (fixedResetAt : Option ℤ) :
    (c.flushBucket now key ref fixedResetAt).1 = c ∨
    (c.flushBucket now key ref fixedResetAt).1 =
      (c.modify ref fun b => { b with lastFlushAt := now }) ∨
    (c.flushBucket now key ref fixedResetAt).1 = c.send now key ref fixedResetAt := by
  unfold flushBucket
  split
  · exact Or.inl rfl
  · dsimp only
    split_ifs
    · exact Or.inr (Or.inl rfl)
    · exact Or.inr (Or.inr rfl)

lemma flushBucket_changes {c : Counter} {now : ℤ} {key : String} {ref : ℕ}
    {fixedResetAt : Option ℤ} (href : ref < c.nextBucket) :
    Changes ended c (c.flushBucket now key ref fixedResetAt).1 := by
  rcases flushBucket_cases c now key ref fixedResetAt with heq | heq | heq
  · rw [heq]
    exact Relation.ReflTransGen.refl
  · rw [heq]
    exact changes_modify (neutral_modify rfl rfl rfl rfl) rfl
  · rw [heq]
    exact Changes.single (.send href)

lemma flushIfCurrent_changes {c : Counter} {now : ℤ} {key : String} {ref : ℕ}
    (href : ref < c.nextBucket) (hended : (c.heap ref).resetAt ≤ now → ended ref) :
    Changes ended c (c.flushIfCurrent now key ref).1 := by
  unfold flushIfCurrent
  split_ifs with h
  · exact Changes.single (.giveUp (hended h))
  · exact flushBucket_changes href

/-- A flush does not move the end of a window; only its answer does. -/
lemma flushIfCurrent_keeps (c : Counter) (now : ℤ) (key : String) (ref : ℕ) :
    (c.flushIfCurrent now key ref).1.nextBucket = c.nextBucket ∧
      ∀ b, ((c.flushIfCurrent now key ref).1.heap b).resetAt = (c.heap b).resetAt := by
  unfold flushIfCurrent
  split_ifs with h
  · exact ⟨rfl, modify_heap
      (f := fun b => { b with pendingDelta := [], dropped := b.dropped ++ b.pendingDelta })
      Bucket.resetAt rfl⟩
  · rcases flushBucket_cases c now key ref (c.heap ref).fixedResetAt with heq | heq | heq
    · rw [heq]
      exact ⟨rfl, fun _ => rfl⟩
    · rw [heq]
      exact ⟨rfl, modify_heap Bucket.resetAt rfl⟩
    · rw [heq]
      exact ⟨rfl, modify_heap (f := fun b => { b with pendingDelta := [], lastFlushAt := now })
        Bucket.resetAt rfl⟩

lemma flushAll_changes {now : ℤ} {c : Counter} {pending : List (String × ℕ)}
    (hpending : ∀ e ∈ pending, e.2 < c.nextBucket)
    (hended : ∀ b < c.nextBucket, (c.heap b).resetAt ≤ now → ended b) :
    Changes ended c (flushAll now c pending).1 := by
  induction pending generalizing c with
  | nil => exact Relation.ReflTransGen.refl
  | cons e pending ih =>
    obtain ⟨key, ref⟩ := e
    obtain ⟨href, hrest⟩ := List.forall_mem_cons.mp hpending
    obtain ⟨hnext, hreset⟩ := flushIfCurrent_keeps c now key ref
    refine (flushIfCurrent_changes href (hended ref href)).trans (ih ?_ ?_)
    · rwa [hnext]
    · intro b hb hreset'
      rw [hreset] at hreset'
      exact hended b (hnext ▸ hb) hreset'

/-! ## Timers -/

/-- Forgetting timers and flushes in flight, and the start of `drain`. -/
lemma changes_of_fields (c : Counter) (flushInFlight flushTimers : JsMap String ℕ)
    (draining : Bool) :
    Changes ended c { c with flushInFlight, flushTimers, draining } :=
  Changes.single (.neutral ⟨rfl, rfl, fun _ _ _ => rfl, fun _ => rfl, fun _ => rfl,
    fun _ => rfl, fun _ => rfl, fun _ => rfl⟩ fun hc => hc.congr rfl rfl (fun _ => rfl) fun _ => rfl)

lemma scheduleFlush_changes (c : Counter) (key : String) (ref : ℕ) :
    Changes ended c (c.scheduleFlush key ref) := by
  unfold scheduleFlush
  split_ifs
  · exact Relation.ReflTransGen.refl
  · exact changes_of_fields _ _ _ _

lemma finishHit_changes (o : Options) (c : Counter) (key : String) (ref : ℕ) :
    Changes ended c (finishHit o c key ref).1 := by
  unfold finishHit
  dsimp only
  split_ifs
  · exact scheduleFlush_changes c key ref
  · exact Relation.ReflTransGen.refl

/-- A handled answer is not read again. -/
lemma finishUpsert_changes (c : Counter) (u : ℕ) : Changes ended c (c.finishUpsert u) := by
  have hshare : ∀ i b status,
      (Function.update c.upserts u { c.upserts u with finished := true } i).share b status =
        (c.upserts i).share b status :=
    fun i b status => update_upserts (c := c) (u := u) (x := { c.upserts u with finished := true })
      (fun x => x.share b status) rfl i
  have hfinished : Changes ended c
      { c with upserts := Function.update c.upserts u { c.upserts u with finished := true } } :=
    Changes.single (.neutral ⟨rfl, rfl, hshare, update_upserts Upsert.bucket rfl, fun _ => rfl,
      fun _ => rfl, fun _ => rfl, fun _ => rfl⟩ fun hc =>
        hc.congr rfl rfl (fun _ => rfl) fun _ => rfl)
  unfold finishUpsert
  dsimp only
  split_ifs
  · exact hfinished.trans (changes_of_fields _ _ _ _)
  · exact hfinished

end Counter

end RateLimitCounter
end FirecrawlGateway
