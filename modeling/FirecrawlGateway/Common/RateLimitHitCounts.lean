import FirecrawlGateway.Common.RateLimitCounterTheorems

/-!
# The count a hit returns

The hits of a bucket are pending, in flight or committed; a hit returns the pending ones and the
last count of the database. Inside one window the count is therefore short of the instance's own
hits exactly when more hits are in flight than were made since and than other instances add.
-/

namespace FirecrawlGateway
namespace RateLimitCounter

open Counter

/-! ## Hits in flight and hits committed -/

/-- The hits of bucket `b` whose upsert has not been answered. -/
def inFlightCount (c : Counter) (b : ℕ) : ℕ := (c.upserted b .sent).card

/-- The hits of bucket `b` in upserts that committed. -/
def committedCount (c : Counter) (b : ℕ) : ℕ := (c.upserted b .resolved).card

/-- What the window of bucket `b` sees: no event after its end, and from a committed upsert a
count of at least what this instance has committed so far. -/
def OneWindow (b : ℕ) (s : System) : Event → Prop
  | .hit _ _ now => b < s.counter.nextBucket → now < (s.counter.heap b).resetAt
  | .fire _ now => b < s.counter.nextBucket → now < (s.counter.heap b).resetAt
  | .resumeTimer _ now => b < s.counter.nextBucket → now < (s.counter.heap b).resetAt
  | .resumeDrain _ now => b < s.counter.nextBucket → now < (s.counter.heap b).resetAt
  | .settle u (.resolved entry) => (s.counter.upserts u).bucket = b →
      ∃ count resetAt, entry = some (count, resetAt) ∧
        committedCount s.counter b + (s.counter.upserts u).delta.length ≤ count
  | _ => True

instance (b : ℕ) (s : System) (u : ℕ) : (outcome : Outcome) →
    Decidable (OneWindow b s (.settle u outcome))
  | .rejected => isTrue trivial
  | .resolved none => decidable_of_iff ((s.counter.upserts u).bucket ≠ b)
      (by simp [OneWindow])
  | .resolved (some (count, _)) => decidable_of_iff ((s.counter.upserts u).bucket = b →
      committedCount s.counter b + (s.counter.upserts u).delta.length ≤ count)
      (by simp [OneWindow])

instance (b : ℕ) (s : System) : DecidablePred (OneWindow b s)
  | .hit _ _ _ => inferInstanceAs (Decidable (_ → _))
  | .fire _ _ => inferInstanceAs (Decidable (_ → _))
  | .resumeTimer _ _ => inferInstanceAs (Decidable (_ → _))
  | .resumeDrain _ _ => inferInstanceAs (Decidable (_ → _))
  | .settle _ _ => inferInstance
  | .resumeHit _ => isTrue trivial
  | .finish _ => isTrue trivial
  | .drain => isTrue trivial

/-- When a hit on bucket `b` returns, the hits in flight are made up for by the hits made after
it and by what `syncedCount` holds beyond the committed ones. -/
def Covered (b : ℕ) (s : System) : Event → Prop
  | .hit key _ now => s.counter.buckets.get key = some b →
      now - (s.counter.heap b).lastFlushAt < flushIntervalMs →
      inFlightCount s.counter b ≤ (s.counter.heap b).syncedCount - committedCount s.counter b
  | .resumeHit i => ∀ w, s.waiting[i]? = some w → w.bucket = b →
      inFlightCount s.counter b ≤ ((s.counter.heap b).made - (w.ordinal + 1)) +
        ((s.counter.heap b).syncedCount - committedCount s.counter b)
  | _ => True

instance (b : ℕ) (s : System) : DecidablePred (Covered b s)
  | .hit _ _ _ => inferInstanceAs (Decidable (_ → _ → _))
  | .resumeHit i => inferInstanceAs (Decidable (∀ w ∈ s.waiting[i]?, w.bucket = b → _))
  | .settle _ _ => isTrue trivial
  | .fire _ _ => isTrue trivial
  | .resumeTimer _ _ => isTrue trivial
  | .resumeDrain _ _ => isTrue trivial
  | .finish _ => isTrue trivial
  | .drain => isTrue trivial

/-- Every hit on bucket `b` that returned counted itself and the hits before it. -/
def CountsOwnHits (b : ℕ) (s : System) : Prop :=
  ∀ ret ∈ s.returned, ret.bucket = b → ret.ordinal + 1 ≤ ret.count

/-! ## What holds inside a window -/

/-- Nothing was given up, and the last count of the database covers what was committed. -/
structure Synced (b : ℕ) (c : Counter) : Prop where
  dropped : b < c.nextBucket → (c.heap b).dropped = []
  committed : b < c.nextBucket → committedCount c b ≤ (c.heap b).syncedCount

/-- The hits of a bucket, counted. -/
lemma made_eq {b : ℕ} {c : Counter} (hc : Ledger c) (hs : Synced b c) (hb : b < c.nextBucket) :
    (c.heap b).made = (c.heap b).pendingDelta.length + inFlightCount c b + committedCount c b := by
  have hcard := congrArg Multiset.card (hc.counted b hb)
  unfold Counter.counted at hcard
  rw [hs.dropped hb] at hcard
  simp only [Multiset.card_add, Multiset.coe_card, List.length_nil, Multiset.card_range,
    add_zero] at hcard
  exact hcard.symm

lemma Synced.congr {b : ℕ} {c c' : Counter} (hs : Synced b c) (hnext : c'.nextBucket = c.nextBucket)
    (hdropped : (c'.heap b).dropped = (c.heap b).dropped)
    (hcommitted : c'.upserted b .resolved = c.upserted b .resolved)
    (hsynced : (c'.heap b).syncedCount = (c.heap b).syncedCount) : Synced b c' where
  dropped hb := hdropped.trans (hs.dropped (hnext ▸ hb))
  committed hb := by
    unfold committedCount
    rw [hcommitted, hsynced]
    exact hs.committed (hnext ▸ hb)

lemma Synced.alloc {b : ℕ} {c : Counter} (hs : Synced b c) (hc : Ledger c) {bucket : Bucket}
    (hdropped : bucket.dropped = []) : Synced b (c.alloc bucket) := by
  by_cases hnew : b = c.nextBucket
  · have hup : (c.alloc bucket).upserted b .resolved = 0 := upserted_of_new hc hnew.ge .resolved
    constructor
    · intro _
      rw [hnew, alloc_heap_self, hdropped]
    · intro _
      unfold committedCount
      rw [hup, Multiset.card_zero]
      exact Nat.zero_le _
  · have hlt : b < c.nextBucket + 1 → b < c.nextBucket := by omega
    constructor
    · intro hb
      rw [alloc_heap_of_ne hnew]
      exact hs.dropped (hlt hb)
    · intro hb
      rw [alloc_heap_of_ne hnew]
      exact hs.committed (hlt hb)

lemma Synced.send {b : ℕ} {c : Counter} (hs : Synced b c) {now : ℤ} {key : String} {ref : ℕ}
    {fixedResetAt : Option ℤ} : Synced b (c.send now key ref fixedResetAt) := by
  let zeroed := c.modify ref fun b => { b with pendingDelta := [], lastFlushAt := now }
  have hzeroed : Synced b zeroed :=
    hs.congr rfl (modify_heap Bucket.dropped rfl b) rfl (modify_heap Bucket.syncedCount rfl b)
  refine hzeroed.congr rfl rfl ?_ rfl
  exact (send_upserted c now key ref fixedResetAt b .resolved).trans (by simp; rfl)

/-- Only a window that has ended gives hits up. -/
lemma Synced.change {ended : ℕ → Prop} {b : ℕ} {c c' : Counter} (hs : Synced b c)
    (h : Change ended c c') (hc : Ledger c) (hended : ¬ ended b) : Synced b c' := by
  cases h with
  | neutral h _ =>
    exact hs.congr h.nextBucket (h.dropped b) (h.upserted b .resolved) (h.syncedCount b)
  | alloc _ _ hdropped => exact hs.alloc hc hdropped
  | count _ =>
    exact hs.congr rfl (modify_heap Bucket.dropped rfl b) rfl (modify_heap Bucket.syncedCount rfl b)
  | send _ => exact hs.send
  | @giveUp ref href =>
    have hne : b ≠ ref := by
      rintro rfl
      exact hended href
    have hheap : (c.giveUp ref).heap b = c.heap b := modify_heap_of_ne hne _
    exact hs.congr rfl (by rw [hheap]) rfl (by rw [hheap])

lemma Synced.changes {ended : ℕ → Prop} {b : ℕ} {c c' : Counter} (hs : Synced b c)
    (h : Changes ended c c') (hc : Ledger c) (hended : ¬ ended b) : Synced b c' := by
  induction h with
  | refl => exact hs
  | tail hinit hlast ih => exact ih.change hlast (Changes.ledger hinit hc) hended

/-- A change forgets no bucket, and no hit that was made. -/
lemma change_made {ended : ℕ → Prop} {c c' : Counter} (h : Change ended c c') {b : ℕ}
    (hb : b < c.nextBucket) : b < c'.nextBucket ∧ (c.heap b).made ≤ (c'.heap b).made := by
  cases h with
  | neutral h _ => exact ⟨h.nextBucket.symm ▸ hb, (h.made b).ge⟩
  | alloc _ _ _ => exact ⟨hb.trans (Nat.lt_succ_self _), by rw [alloc_heap_of_ne hb.ne]⟩
  | @count _ ref _ =>
    refine ⟨hb, ?_⟩
    unfold Counter.countHit
    by_cases href : b = ref
    · rw [href, modify_heap_self]
      exact Nat.le_succ _
    · rw [modify_heap_of_ne href]
  | @send now key ref fixedResetAt _ =>
    exact ⟨hb, (modify_heap (c := c) (f := fun b => { b with pendingDelta := [], lastFlushAt := now })
      Bucket.made rfl b).ge⟩
  | giveUp _ => exact ⟨hb, (modify_heap Bucket.made rfl b).ge⟩

lemma changes_made {ended : ℕ → Prop} {c c' : Counter} (h : Changes ended c c') {b : ℕ}
    (hb : b < c.nextBucket) : b < c'.nextBucket ∧ (c.heap b).made ≤ (c'.heap b).made := by
  induction h with
  | refl => exact ⟨hb, le_rfl⟩
  | tail _ hlast ih =>
    obtain ⟨hlt, hle⟩ := change_made hlast ih.1
    exact ⟨hlt, ih.2.trans hle⟩

/-- What an answered upsert adds to the committed hits of a bucket. -/
lemma committedCount_answer {c : Counter} {u : ℕ} (hu : u < c.nextUpsert)
    (hsent : (c.upserts u).status = .sent) (b : ℕ) :
    committedCount (c.answer u .resolved) b =
      committedCount c b + if (c.upserts u).bucket = b then (c.upserts u).delta.length else 0 := by
  unfold committedCount
  rw [answer_of_ne hu hsent .resolved .resolved (by simp), if_pos rfl, Multiset.card_add]
  unfold Upsert.share
  rw [hsent]
  split_ifs <;> simp_all

/-- The answers keep the last count of the database up with what was committed. -/
lemma Synced.settleUpsert {b : ℕ} {s : System} (hs : Synced b s.counter) {u : ℕ}
    (hu : u < s.counter.nextUpsert) (hsent : (s.counter.upserts u).status = .sent)
    {outcome : Outcome} (hwindow : OneWindow b s (.settle u outcome)) :
    Synced b (s.counter.settleUpsert u outcome) := by
  have hother : (s.counter.upserts u).bucket ≠ b →
      (s.counter.answer u .resolved).upserted b .resolved = s.counter.upserted b .resolved := by
    intro hne
    rw [answer_of_ne hu hsent .resolved .resolved (by simp), if_pos rfl]
    exact (congrArg _ (if_neg fun h => hne h.1)).trans (add_zero _)
  rcases settleUpsert_cases s.counter u outcome with ⟨-, heq⟩ | ⟨rfl, heq⟩ | ⟨count, resetAt, rfl, heq⟩
  · rw [heq]
    refine hs.congr rfl (modify_heap Bucket.dropped rfl b) ?_ (modify_heap Bucket.syncedCount rfl b)
    exact (answer_of_ne hu hsent .rejected .resolved (by simp) b).trans (by simp)
  · rw [heq]
    refine hs.congr rfl rfl (hother fun hb => ?_) rfl
    obtain ⟨_, _, hentry, -⟩ := hwindow hb
    cases hentry
  · rw [heq]
    by_cases hb : (s.counter.upserts u).bucket = b
    · -- the answer covers what was committed before it and its own delta
      obtain ⟨_, _, hentry, hcount⟩ := hwindow hb
      cases hentry
      have hcommitted := committedCount_answer hu hsent b
      rw [if_pos hb] at hcommitted
      constructor
      · intro hlt
        exact (modify_heap Bucket.dropped rfl b).trans (hs.dropped hlt)
      · intro _
        have hsync : (((s.counter.answer u .resolved).sync b count resetAt).heap b).syncedCount =
            count := by
          unfold sync
          rw [modify_heap_self]
        rw [hb, hsync]
        exact hcommitted.le.trans hcount
    · refine hs.congr rfl (modify_heap Bucket.dropped rfl b) (hother hb) ?_
      unfold sync
      rw [modify_heap_of_ne (Ne.symm hb)]
      rfl

/-! ## Hits that return -/

/-- `hit` uses the bucket of its key, or makes one with nothing in it. -/
lemma currentBucket_eq {c : Counter} (hplaced : Placed c) {b : ℕ} {now : ℤ}
    (hwindow : b < c.nextBucket → now < (c.heap b).resetAt) {key : String}
    {fixedResetAt : Option ℤ} :
    (c.buckets.get key = some b ∧ c.currentBucket now key fixedResetAt = (c, b)) ∨
    (c.buckets.get key ≠ some b ∧ ((c.currentBucket now key fixedResetAt).2 = b →
      ((c.currentBucket now key fixedResetAt).1.heap b).made = 0)) := by
  rcases currentBucket_cases c now key fixedResetAt with
    ⟨ref, hget, -, heq⟩ | ⟨c₁, bucket, hc₁, hnone, rfl, heq⟩
  · by_cases href : ref = b
    · exact Or.inl ⟨href ▸ hget, href ▸ heq⟩
    · refine Or.inr ⟨fun h => href (Option.some.inj (hget.symm.trans h)), fun h => ?_⟩
      rw [heq] at h
      exact absurd h href
  · refine Or.inr ⟨fun hget => ?_, fun h => ?_⟩
    · rcases hc₁ with ⟨-, hnone'⟩ | ⟨ref, -, hget', hexpired⟩
      · rw [hget] at hnone'
        cases hnone'
      · cases hget.symm.trans hget'
        exact absurd (hwindow (hplaced.current key b hget)) (not_lt.mpr hexpired)
    · rw [heq] at h ⊢
      cases h
      rw [(neutral_recordBucket _ now key _).made, alloc_heap_self]

/-- One hit more has returned. -/
lemma countsOwnHits_append {b : ℕ} {s s' : System} {ret : Return}
    (h : s'.returned = s.returned ++ [ret]) :
    CountsOwnHits b s' ↔ CountsOwnHits b s ∧ (ret.bucket = b → ret.ordinal + 1 ≤ ret.count) := by
  unfold CountsOwnHits
  rw [h]
  simp only [List.mem_append, List.mem_singleton, or_imp, forall_and, forall_eq]

/-- A hit awaits its flush, or returns at once. -/
lemma stepHit_cases {o : Options} {s : System} {key : String} {fixedResetAt : Option ℤ} {now : ℤ}
    {c : Counter} {ref : ℕ} (hcurrent : s.counter.currentBucket now key fixedResetAt = (c, ref)) :
    let s' := stepHit o s key fixedResetAt now
    (flushIntervalMs ≤ now - (c.heap ref).lastFlushAt ∧ s'.returned = s.returned ∧
      ∃ on, s'.waiting = s.waiting ++ [⟨key, ref, (c.heap ref).made, on⟩]) ∨
    (now - (c.heap ref).lastFlushAt < flushIntervalMs ∧ s'.waiting = s.waiting ∧
      s'.returned = s.returned ++ [⟨ref, (c.heap ref).made,
        (c.heap ref).syncedCount + ((c.heap ref).pendingDelta.length + 1), (c.heap ref).resetAt⟩]) := by
  have hflush : ((c.countHit ref).heap ref).lastFlushAt = (c.heap ref).lastFlushAt :=
    modify_heap Bucket.lastFlushAt rfl ref
  unfold stepHit
  rw [hcurrent]
  dsimp only
  rw [hflush]
  split_ifs with h
  · exact Or.inl ⟨h, rfl, _, rfl⟩
  · refine Or.inr ⟨not_le.mp h, rfl, ?_⟩
    unfold finishHit countHit
    simp only [modify_heap_self, List.length_append, List.length_singleton]

/-- What the events do to the hits that wait and the hits that returned. -/
lemma step_returned {o : Options} {s s' : System} {e : Event} (h : step o s e = some s') :
    (∃ key fixedResetAt now, e = .hit key fixedResetAt now ∧ s' = stepHit o s key fixedResetAt now) ∨
    (∃ i w, e = .resumeHit i ∧ s.waiting[i]? = some w ∧ s' = stepResumeHit o s i w) ∨
    (s'.waiting = s.waiting ∧ s'.returned = s.returned ∧ ∀ b, Covered b s e) := by
  cases e with
  | hit key fixedResetAt now =>
    cases h
    exact Or.inl ⟨key, fixedResetAt, now, rfl, rfl⟩
  | resumeHit i =>
    simp only [step] at h
    split at h
    · rename_i w hw
      split_ifs at h
      cases h
      exact Or.inr (Or.inl ⟨i, w, rfl, hw, rfl⟩)
    · cases h
  | settle u outcome =>
    simp only [step] at h
    split_ifs at h
    cases h
    exact Or.inr (Or.inr ⟨rfl, rfl, fun _ => trivial⟩)
  | finish u =>
    simp only [step] at h
    split_ifs at h
    cases h
    exact Or.inr (Or.inr ⟨rfl, rfl, fun _ => trivial⟩)
  | fire key now =>
    simp only [step] at h
    split at h
    · cases h
      refine Or.inr (Or.inr ?_)
      unfold stepFire
      dsimp only
      split_ifs <;> exact ⟨rfl, rfl, fun _ => trivial⟩
    · cases h
  | resumeTimer i now =>
    simp only [step] at h
    split at h
    · split_ifs at h
      cases h
      exact Or.inr (Or.inr ⟨rfl, rfl, fun _ => trivial⟩)
    · cases h
  | drain =>
    cases h
    exact Or.inr (Or.inr ⟨rfl, rfl, fun _ => trivial⟩)
  | resumeDrain i now =>
    simp only [step] at h
    split at h
    · split_ifs at h
      cases h
      refine Or.inr (Or.inr ?_)
      unfold stepResumeDrain
      dsimp only
      split
      · split_ifs <;> exact ⟨rfl, rfl, fun _ => trivial⟩
      · split_ifs <;> exact ⟨rfl, rfl, fun _ => trivial⟩
    · cases h

/-- What holds of bucket `b` along every run inside its window. -/
structure Windowed (b : ℕ) (s : System) : Prop where
  sound : Sound s.counter
  synced : Synced b s.counter
  waiting : ∀ w ∈ s.waiting, w.bucket = b →
    b < s.counter.nextBucket ∧ w.ordinal < (s.counter.heap b).made

lemma not_windowEnded {b : ℕ} {s : System} {e : Event} (hwindow : OneWindow b s e) :
    ¬ windowEnded s.counter e b := by
  cases e with
  | fire key now => exact fun h => not_le.mpr (hwindow h.1) h.2
  | resumeDrain i now => exact fun h => not_le.mpr (hwindow h.1) h.2
  | _ => exact id

/-- What a step does to bucket `b` but for the hits that wait. -/
lemma step_synced {o : Options} {b : ℕ} {s s' : System} {e : Event} (hs : Sound s.counter)
    (hsynced : Synced b s.counter) (hwindow : OneWindow b s e) (h : step o s e = some s') :
    Synced b s'.counter ∧ (b < s.counter.nextBucket →
      b < s'.counter.nextBucket ∧ (s.counter.heap b).made ≤ (s'.counter.heap b).made) := by
  rcases step_cases h hs.placed with ⟨u, outcome, rfl, hu, hsent, rfl⟩ | hchanges
  · obtain ⟨-, hnext, -, hmade, -, -⟩ := settleUpsert_keeps s.counter u outcome
    exact ⟨hsynced.settleUpsert hu hsent hwindow, fun hb => ⟨hnext.symm ▸ hb, (hmade b).ge⟩⟩
  · exact ⟨hsynced.changes hchanges hs.ledger (not_windowEnded hwindow),
      fun hb => changes_made hchanges hb⟩

/-- A hit that returns at once. -/
lemma stepHit_counts {o : Options} {b : ℕ} {s : System} {key : String} {fixedResetAt : Option ℤ}
    {now : ℤ} (hs : Windowed b s) (hwindow : OneWindow b s (.hit key fixedResetAt now)) :
    CountsOwnHits b (stepHit o s key fixedResetAt now) ↔
      CountsOwnHits b s ∧ Covered b s (.hit key fixedResetAt now) := by
  rcases currentBucket_eq hs.sound.placed hwindow with ⟨hget, hcurrent⟩ | ⟨hget, hmade⟩
  · have hb := hs.sound.placed.current key b hget
    rcases stepHit_cases hcurrent with ⟨hflush, hreturned, -⟩ | ⟨hflush, -, hreturned⟩
    · -- the hit awaits a flush and returns nothing yet
      have hcovered : Covered b s (.hit key fixedResetAt now) :=
        fun _ hrecent => absurd hrecent (not_lt.mpr hflush)
      unfold CountsOwnHits
      rw [hreturned, and_iff_left hcovered]
    · -- it is the newest hit: pending and synced must make up for what is in flight
      rw [countsOwnHits_append hreturned]
      refine and_congr_right fun _ => ?_
      have hparts := made_eq hs.sound.ledger hs.synced hb
      have hcommitted := hs.synced.committed hb
      constructor
      · intro h _ _
        have := h rfl
        dsimp only at this
        omega
      · intro h _
        have := h hget hflush
        dsimp only
        omega
  · have hcovered : Covered b s (.hit key fixedResetAt now) := fun h => absurd h hget
    rw [and_iff_left hcovered]
    rcases hcurrent : s.counter.currentBucket now key fixedResetAt with ⟨c, ref⟩
    rcases stepHit_cases hcurrent with ⟨-, hreturned, -⟩ | ⟨-, -, hreturned⟩
    · unfold CountsOwnHits
      rw [hreturned]
    · -- the first hit of a new bucket counts itself
      rw [countsOwnHits_append hreturned]
      refine and_iff_left fun href => ?_
      rw [hcurrent] at hmade
      have hzero := hmade href
      dsimp only at href hzero ⊢
      rw [href, hzero]
      omega

/-- A hit that returns after its flush. -/
lemma stepResumeHit_counts {o : Options} {b : ℕ} {s : System} {i : ℕ} {w : Waiting}
    (hs : Windowed b s) (hw : s.waiting[i]? = some w) :
    CountsOwnHits b (stepResumeHit o s i w) ↔ CountsOwnHits b s ∧ Covered b s (.resumeHit i) := by
  rw [countsOwnHits_append rfl]
  refine and_congr_right fun _ => ?_
  have hparts : w.bucket = b → (s.counter.heap b).made = (s.counter.heap b).pendingDelta.length +
      inFlightCount s.counter b + committedCount s.counter b ∧
      committedCount s.counter b ≤ (s.counter.heap b).syncedCount ∧
      w.ordinal < (s.counter.heap b).made := by
    intro hb
    obtain ⟨hlt, hordinal⟩ := hs.waiting w (List.mem_of_getElem? hw) hb
    exact ⟨made_eq hs.sound.ledger hs.synced hlt, hs.synced.committed hlt, hordinal⟩
  constructor
  · intro h w' hw' hb
    cases hw.symm.trans hw'
    obtain ⟨hmade, hcommitted, hordinal⟩ := hparts hb
    have hcount := h hb
    dsimp only at hcount
    rw [hb] at hcount
    omega
  · intro h hb
    obtain ⟨hmade, hcommitted, hordinal⟩ := hparts hb
    have hcovered := h w hw hb
    dsimp only at hb ⊢
    rw [hb]
    omega

/-- A step keeps what holds in a window, and the hits that return count themselves when they are
covered. -/
lemma step_windowed {o : Options} {b : ℕ} {s s' : System} {e : Event} (hs : Windowed b s)
    (hwindow : OneWindow b s e) (h : step o s e = some s') :
    Windowed b s' ∧ (CountsOwnHits b s' ↔ CountsOwnHits b s ∧ Covered b s e) := by
  obtain ⟨hsynced, hgrow⟩ := step_synced hs.sound hs.synced hwindow h
  have hsound := step_sound h hs.sound
  have hwaiting : ∀ w ∈ s.waiting, w.bucket = b →
      b < s'.counter.nextBucket ∧ w.ordinal < (s'.counter.heap b).made := by
    intro w hw hb
    obtain ⟨hlt, hordinal⟩ := hs.waiting w hw hb
    obtain ⟨hlt', hmade⟩ := hgrow hlt
    exact ⟨hlt', hordinal.trans_le hmade⟩
  rcases step_returned h with ⟨key, fixedResetAt, now, rfl, rfl⟩ | ⟨i, w, rfl, hw, rfl⟩ |
    ⟨hsame, hreturned, hcovered⟩
  · refine ⟨⟨hsound, hsynced, fun w hw hb => ?_⟩, stepHit_counts hs hwindow⟩
    have href := currentBucket_lt hs.sound.placed now key fixedResetAt
    rcases hc : s.counter.currentBucket now key fixedResetAt with ⟨c, ref⟩
    rw [hc] at href
    rcases stepHit_cases hc with ⟨-, -, on, hlist⟩ | ⟨-, hlist, -⟩
    · rw [hlist] at hw
      rcases List.mem_append.mp hw with hw | hw
      · exact hwaiting w hw hb
      · -- the hit that starts to wait is the last one made
        obtain rfl := List.mem_singleton.mp hw
        obtain rfl : ref = b := hb
        have hrest : Changes (fun _ => False) (c.countHit ref)
            (stepHit o s key fixedResetAt now).counter := stepHit_rest o hc href
        obtain ⟨hlt, hle⟩ := changes_made hrest href
        refine ⟨hlt, lt_of_lt_of_le ?_ hle⟩
        unfold Counter.countHit
        rw [modify_heap_self]
        exact Nat.lt_succ_self _
    · rw [hlist] at hw
      exact hwaiting w hw hb
  · refine ⟨⟨hsound, hsynced, fun w' hw' => hwaiting w' (List.mem_of_mem_eraseIdx hw')⟩,
      stepResumeHit_counts hs hw⟩
  · refine ⟨⟨hsound, hsynced, hsame ▸ hwaiting⟩, ?_⟩
    unfold CountsOwnHits
    rw [hreturned, and_iff_left (hcovered b)]

lemma windowed_init (b : ℕ) : Windowed b {} where
  sound := sound_init
  synced := ⟨fun _ => rfl, fun hb => absurd hb (Nat.not_lt_zero _)⟩
  waiting _ hw := absurd hw List.not_mem_nil

/-- In one window of a bucket, every hit is returned a count of at least the hits made up to it
exactly when every hit that returned was covered. -/
theorem hit_counts_own_iff {o : Options} (b : ℕ) {es : List Event} {t : System}
    (hwindow : EventMachine.Along (step o) (OneWindow b) {} es)
    (hrun : EventMachine.run (step o) {} es = some t) :
    CountsOwnHits b t ↔ EventMachine.Along (step o) (Covered b) {} es := by
  have hiff := EventMachine.run_iff_along (P := CountsOwnHits b)
    (fun _ _ _ hs hw h => step_windowed hs hw h) (windowed_init b) hwindow hrun
  rw [hiff]
  exact and_iff_right fun _ hret => absurd hret List.not_mem_nil

/-- Another instance made four hits before. The second flush is not answered when the third hit
returns, and these make up for it. -/
def sharedHits : List Event :=
  [.hit "k" none 10000, .settle 0 (.resolved (some (5, 70000))), .finish 0, .resumeHit 0,
    .hit "k" none 15000, .hit "k" none 15001]

theorem hit_counts_own_iff_sample : ∃ t : System,
    EventMachine.run (step ⟨true⟩) {} sharedHits = some t ∧ inFlightCount t.counter 0 = 1 ∧
      t.returned = [⟨0, 0, 5, 70000⟩, ⟨0, 2, 6, 70000⟩] ∧ CountsOwnHits 0 t := by
  have hrun : ∃ t : System, EventMachine.run (step ⟨true⟩) {} sharedHits = some t ∧
      inFlightCount t.counter 0 = 1 ∧ t.returned = [⟨0, 0, 5, 70000⟩, ⟨0, 2, 6, 70000⟩] :=
    ⟨_, rfl, by decide +kernel, by decide +kernel⟩
  obtain ⟨t, ht, hinFlight, hreturned⟩ := hrun
  have hwindow : EventMachine.Along (step ⟨true⟩) (OneWindow 0) {} sharedHits := by decide +kernel
  have hcovered : EventMachine.Along (step ⟨true⟩) (Covered 0) {} sharedHits := by decide +kernel
  exact ⟨t, ht, hinFlight, hreturned, (hit_counts_own_iff 0 hwindow ht).mpr hcovered⟩

/-- Two hits a millisecond apart; the first one's flush is not answered before the second
returns. -/
def overlappingHits : List Event := [.hit "k" none 10000, .hit "k" none 10001]

/-- The second hit of the window returns the count one: the first is in flight. -/
theorem hit_forgets_hits_in_flight : ∃ t : System,
    EventMachine.Along (step ⟨true⟩) (OneWindow 0) {} overlappingHits ∧
      EventMachine.run (step ⟨true⟩) {} overlappingHits = some t ∧
      ⟨0, 1, 1, 70000⟩ ∈ t.returned ∧ ¬ CountsOwnHits 0 t := by
  have hrun : (EventMachine.run (step ⟨true⟩) {} overlappingHits).map System.returned =
      some [⟨0, 1, 1, 70000⟩] := by decide +kernel
  obtain ⟨t, ht, hreturned⟩ := Option.map_eq_some_iff.mp hrun
  have hmem : ⟨0, 1, 1, 70000⟩ ∈ t.returned := by simp [hreturned]
  have hwindow : EventMachine.Along (step ⟨true⟩) (OneWindow 0) {} overlappingHits := by
    decide +kernel
  refine ⟨t, hwindow, ht, hmem, fun h => ?_⟩
  exact absurd (h _ hmem rfl) (by decide)

end RateLimitCounter
end FirecrawlGateway
