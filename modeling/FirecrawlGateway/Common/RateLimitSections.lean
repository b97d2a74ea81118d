import FirecrawlGateway.Common.RateLimitDrain

/-!
# What a section does to the upserts

Between two `await`s a counter may send upserts. `Section` says what such a section leaves alone
and what it may send; every event but a hit and the answer to an upsert is one, and a hit is one
once it is counted. `Keyed` says that buckets and upserts belong to one key each.
-/

namespace FirecrawlGateway
namespace RateLimitCounter

namespace Counter

/-- A section that counts no hit and reads no answer. What it sends takes the end of the window
from the bucket, or is `given` one for its key. -/
structure Section (given : String → Option ℤ → Prop) (c c' : Counter) : Prop where
  buckets : c'.buckets = c.buckets
  nextBucket : c'.nextBucket = c.nextBucket
  made : ∀ b, (c'.heap b).made = (c.heap b).made
  syncedCount : ∀ b, (c'.heap b).syncedCount = (c.heap b).syncedCount
  fixedResetAt : ∀ b, (c'.heap b).fixedResetAt = (c.heap b).fixedResetAt
  nextUpsert : c.nextUpsert ≤ c'.nextUpsert
  upserts : ∀ u < c.nextUpsert,
    c'.upserts u = { c.upserts u with finished := (c'.upserts u).finished }
  sent : ∀ u, c.nextUpsert ≤ u → u < c'.nextUpsert → (c'.upserts u).status = .sent ∧
    c.buckets.get (c'.upserts u).key = some (c'.upserts u).bucket ∧
    ((c'.upserts u).fixedResetAt = (c.heap (c'.upserts u).bucket).fixedResetAt ∨
      given (c'.upserts u).key (c'.upserts u).fixedResetAt)

variable {given : String → Option ℤ → Prop}

lemma section_of_upserts {c c' : Counter} (hbuckets : c'.buckets = c.buckets)
    (hnext : c'.nextBucket = c.nextBucket) (hheap : c'.heap = c.heap)
    (hupserts : c'.upserts = c.upserts) (hnextUpsert : c'.nextUpsert = c.nextUpsert) :
    Section given c c' := by
  constructor
  · exact hbuckets
  · exact hnext
  · exact fun b => by rw [hheap]
  · exact fun b => by rw [hheap]
  · exact fun b => by rw [hheap]
  · exact hnextUpsert.ge
  · exact fun _ _ => by rw [hupserts]
  · intro _ hold hnew
    omega

lemma Section.refl (c : Counter) : Section given c c := section_of_upserts rfl rfl rfl rfl rfl

lemma Section.trans {c₁ c₂ c₃ : Counter} (h : Section given c₁ c₂) (h' : Section given c₂ c₃) :
    Section given c₁ c₃ := by
  have hlt : ∀ u < c₁.nextUpsert, u < c₂.nextUpsert := fun u hu => hu.trans_le h.nextUpsert
  constructor
  · exact h'.buckets.trans h.buckets
  · exact h'.nextBucket.trans h.nextBucket
  · exact fun b => (h'.made b).trans (h.made b)
  · exact fun b => (h'.syncedCount b).trans (h.syncedCount b)
  · exact fun b => (h'.fixedResetAt b).trans (h.fixedResetAt b)
  · exact h.nextUpsert.trans h'.nextUpsert
  · intro u hu
    rw [h'.upserts u (hlt u hu), h.upserts u hu]
  · intro u hold hnew
    by_cases hu : u < c₂.nextUpsert
    · -- sent by the first section
      rw [h'.upserts u hu]
      exact h.sent u hold hu
    · have hsent := h'.sent u (not_lt.mp hu) hnew
      rw [h.buckets, h.fixedResetAt] at hsent
      exact hsent

/-- An assignment to fields of a bucket other than its count and the end of its window. -/
lemma section_modify {c : Counter} {ref : ℕ} {f : Bucket → Bucket}
    (hm : (f (c.heap ref)).made = (c.heap ref).made)
    (hs : (f (c.heap ref)).syncedCount = (c.heap ref).syncedCount)
    (hf : (f (c.heap ref)).fixedResetAt = (c.heap ref).fixedResetAt) :
    Section given c (c.modify ref f) where
  buckets := rfl
  nextBucket := rfl
  made := modify_heap Bucket.made hm
  syncedCount := modify_heap Bucket.syncedCount hs
  fixedResetAt := modify_heap Bucket.fixedResetAt hf
  nextUpsert := le_rfl
  upserts _ _ := rfl
  sent _ hold hnew := absurd hnew (not_lt.mpr hold)

lemma section_send {c : Counter} {now : ℤ} {key : String} {ref : ℕ} {fixedResetAt : Option ℤ}
    (hget : c.buckets.get key = some ref)
    (hpinned : fixedResetAt = (c.heap ref).fixedResetAt ∨ given key fixedResetAt) :
    Section given c (c.send now key ref fixedResetAt) := by
  have hold : ∀ u < c.nextUpsert,
      (c.send now key ref fixedResetAt).upserts u = c.upserts u := fun u hu =>
    Function.update_of_ne hu.ne _ _
  have hheap : Section given c
      (c.modify ref fun b => { b with pendingDelta := [], lastFlushAt := now }) :=
    section_modify rfl rfl rfl
  constructor
  · rfl
  · rfl
  · exact hheap.made
  · exact hheap.syncedCount
  · exact hheap.fixedResetAt
  · exact Nat.le_succ _
  · exact fun u hu => by rw [hold u hu]
  · intro u hle hlt
    -- the only new upsert
    obtain rfl : u = c.nextUpsert := Nat.le_antisymm (Nat.le_of_lt_succ hlt) hle
    have hself : (c.send now key ref fixedResetAt).upserts c.nextUpsert =
        { key := key, bucket := ref, delta := (c.heap ref).pendingDelta,
          fixedResetAt := fixedResetAt } := Function.update_self ..
    rw [hself]
    exact ⟨rfl, hget, hpinned⟩

lemma flushBucket_section {c : Counter} {now : ℤ} {key : String} {ref : ℕ}
    {fixedResetAt : Option ℤ} (hget : c.buckets.get key = some ref)
    (hpinned : fixedResetAt = (c.heap ref).fixedResetAt ∨ given key fixedResetAt) :
    Section given c (c.flushBucket now key ref fixedResetAt).1 := by
  rcases flushBucket_cases c now key ref fixedResetAt with heq | heq | heq
  · rw [heq]
    exact Section.refl c
  · rw [heq]
    exact section_modify rfl rfl rfl
  · rw [heq]
    exact section_send hget hpinned

lemma flushIfCurrent_section {c : Counter} {now : ℤ} {key : String} {ref : ℕ}
    (hget : c.buckets.get key = some ref) :
    Section given c (c.flushIfCurrent now key ref).1 := by
  unfold flushIfCurrent
  split_ifs
  · exact section_modify (f := fun b =>
      { b with pendingDelta := [], dropped := b.dropped ++ b.pendingDelta }) rfl rfl rfl
  · exact flushBucket_section hget (Or.inl rfl)

lemma flushAll_section {c : Counter} {now : ℤ} {pending : List (String × ℕ)}
    (hpending : ∀ e ∈ pending, c.buckets.get e.1 = some e.2) :
    Section given c (flushAll now c pending).1 := by
  induction pending generalizing c with
  | nil => exact Section.refl c
  | cons e pending ih =>
    obtain ⟨hhead, hrest⟩ := List.forall_mem_cons.mp hpending
    have hflush : Section given c (c.flushIfCurrent now e.1 e.2).1 := flushIfCurrent_section hhead
    refine hflush.trans (ih fun e' he' => ?_)
    rw [hflush.buckets]
    exact hrest e' he'

lemma scheduleFlush_section (c : Counter) (key : String) (ref : ℕ) :
    Section given c (c.scheduleFlush key ref) := by
  unfold scheduleFlush
  split_ifs
  · exact Section.refl c
  · exact section_of_upserts rfl rfl rfl rfl rfl

lemma finishHit_section (o : Options) (c : Counter) (key : String) (ref : ℕ) :
    Section given c (finishHit o c key ref).1 := by
  unfold finishHit
  dsimp only
  split_ifs
  · exact scheduleFlush_section c key ref
  · exact Section.refl c

/-- A handled answer changes only that it is handled. -/
lemma finishUpsert_section (c : Counter) (u : ℕ) : Section given c (c.finishUpsert u) := by
  obtain ⟨flights, heq⟩ := finishUpsert_eq c u
  rw [heq]
  constructor
  · rfl
  · rfl
  · exact fun _ => rfl
  · exact fun _ => rfl
  · exact fun _ => rfl
  · exact le_rfl
  · intro i _
    dsimp only
    by_cases hi : i = u
    · rw [hi, Function.update_self]
    · rw [Function.update_of_ne hi]
  · exact fun i hold hnew => absurd hnew (not_lt.mpr hold)

end Counter

open Counter

/-- Every event but a hit and an answer is a section. -/
lemma step_section {o : Options} {s s' : System} {e : Event} (h : step o s e = some s') :
    (∃ key fixedResetAt now, e = .hit key fixedResetAt now ∧
      s' = stepHit o s key fixedResetAt now) ∨
    (∃ u outcome, e = .settle u outcome ∧ u < s.counter.nextUpsert ∧
      (s.counter.upserts u).status = .sent ∧
      s' = { s with counter := s.counter.settleUpsert u outcome }) ∨
    (∀ key fixedResetAt now, e ≠ .hit key fixedResetAt now) ∧
      Section (fun _ _ => False) s.counter s'.counter := by
  cases e with
  | hit key fixedResetAt now =>
    cases h
    exact Or.inl ⟨key, fixedResetAt, now, rfl, rfl⟩
  | resumeHit i =>
    simp only [step] at h
    split at h
    · split_ifs at h
      cases h
      exact Or.inr (Or.inr ⟨fun _ _ _ => Event.noConfusion, finishHit_section o _ _ _⟩)
    · cases h
  | settle u outcome =>
    simp only [step] at h
    split_ifs at h with hu
    cases h
    exact Or.inr (Or.inl ⟨u, outcome, rfl, hu.1, hu.2, rfl⟩)
  | finish u =>
    simp only [step] at h
    split_ifs at h
    cases h
    exact Or.inr (Or.inr ⟨fun _ _ _ => Event.noConfusion, finishUpsert_section _ u⟩)
  | fire key now =>
    simp only [step] at h
    split at h
    · cases h
      refine Or.inr (Or.inr ⟨fun _ _ _ => Event.noConfusion, ?_⟩)
      have htimers : Section (fun _ _ => False) s.counter
          { s.counter with flushTimers := s.counter.flushTimers.delete key } :=
        section_of_upserts rfl rfl rfl rfl rfl
      unfold stepFire
      dsimp only
      split_ifs with hstale
      · exact htimers
      · -- the timer's bucket is still the bucket of the key
        obtain ⟨hcurrent, -⟩ := not_or.mp hstale
        exact htimers.trans (flushIfCurrent_section (not_not.mp hcurrent))
    · cases h
  | resumeTimer i now =>
    simp only [step] at h
    split at h
    · split_ifs at h
      cases h
      refine Or.inr (Or.inr ⟨fun _ _ _ => Event.noConfusion, ?_⟩)
      unfold stepResumeTimer
      dsimp only
      split_ifs
      · exact scheduleFlush_section _ _ _
      · exact Section.refl _
    · cases h
  | drain =>
    cases h
    exact Or.inr (Or.inr ⟨fun _ _ _ => Event.noConfusion,
      section_of_upserts rfl rfl rfl rfl rfl⟩)
  | resumeDrain i now =>
    simp only [step] at h
    split at h
    · split_ifs at h
      cases h
      refine Or.inr (Or.inr ⟨fun _ _ _ => Event.noConfusion, ?_⟩)
      unfold stepResumeDrain
      split
      · dsimp only
        split_ifs
        · exact Section.refl _
        · exact flushAll_section fun e he => JsMap.mem_entries.mp (List.mem_filter.mp he).1
      · dsimp only
        split_ifs
        · exact Section.refl _
        · exact Section.refl _
    · cases h

/-! ## The start of a hit -/

namespace Counter

/-- What `hit` finds or makes before it counts: a bucket of the key, and nothing else that matters
to a count. -/
structure Found (key : String) (given : Option ℤ) (c c' : Counter) (ref : ℕ) : Prop where
  upserts : c'.upserts = c.upserts
  nextUpsert : c'.nextUpsert = c.nextUpsert
  get : c'.buckets.get key = some ref
  buckets : ∀ k ≠ key, ∀ b, c'.buckets.get k = some b → c.buckets.get k = some b
  made : ∀ b < c.nextBucket, (c'.heap b).made = (c.heap b).made
  syncedCount : ∀ b < c.nextBucket, (c'.heap b).syncedCount = (c.heap b).syncedCount
  fixedResetAt : ∀ b < c.nextBucket, (c'.heap b).fixedResetAt = (c.heap b).fixedResetAt
  place : c.buckets.get key = some ref ∧ c'.nextBucket = c.nextBucket ∨
    ref = c.nextBucket ∧ c'.nextBucket = c.nextBucket + 1 ∧ (c'.heap ref).made = 0 ∧
      (c'.heap ref).syncedCount = 0 ∧ (c'.heap ref).fixedResetAt = given

/-- Which window a bucket was made for does not change when it is dropped. -/
lemma dropBucket_fixedResetAt (c : Counter) (now : ℤ) (key : String) (b : ℕ) :
    ((c.dropBucket now key).heap b).fixedResetAt = (c.heap b).fixedResetAt := by
  unfold dropBucket
  cases c.buckets.get key with
  | none => rfl
  | some ref =>
    exact modify_heap (f := fun x => { x with removed := some _ }) Bucket.fixedResetAt rfl b

lemma recordBucket_fixedResetAt (c : Counter) (now : ℤ) (key : String) (ref b : ℕ) :
    ((c.recordBucket now key ref).heap b).fixedResetAt = (c.heap b).fixedResetAt := by
  unfold recordBucket
  dsimp only
  split_ifs
  · exact dropBucket_fixedResetAt c now key b
  · rcases evict_cases c now with hevict | ⟨oldest, hevict⟩
    · rw [hevict]
    · rw [hevict]
      exact dropBucket_fixedResetAt c now oldest b
  · rfl

lemma currentBucket_found (c : Counter) (now : ℤ) (key : String) (fixedResetAt : Option ℤ) :
    Found key fixedResetAt c (c.currentBucket now key fixedResetAt).1
      (c.currentBucket now key fixedResetAt).2 := by
  have hcurrent := currentBucket_current c now key fixedResetAt
  rcases currentBucket_cases c now key fixedResetAt with
    ⟨ref, hget, -, heq⟩ | ⟨c₁, bucket, hc₁, -, rfl, heq⟩
  · rw [heq]
    exact ⟨rfl, rfl, hget, fun _ _ _ => id, fun _ _ => rfl, fun _ _ => rfl, fun _ _ => rfl,
      Or.inl ⟨hget, rfl⟩⟩
  · -- an expired bucket goes, and a new one is made
    have hdrop : Neutral c c₁ ∧ ∀ b, (c₁.heap b).fixedResetAt = (c.heap b).fixedResetAt := by
      rcases hc₁ with ⟨rfl, -⟩ | ⟨ref, rfl, -, -⟩
      · exact ⟨Neutral.refl _, fun _ => rfl⟩
      · exact ⟨neutral_dropBucket c now key, dropBucket_fixedResetAt c now key⟩
    obtain ⟨hneutral, hfixed⟩ := hdrop
    have hrecord : ∀ c' : Counter, Neutral c' (c'.recordBucket now key c₁.nextBucket) :=
      fun c' => neutral_recordBucket c' now key _
    have hne : ∀ b < c.nextBucket, b ≠ c₁.nextBucket := by
      intro b hb
      rw [hneutral.nextBucket]
      exact hb.ne
    rw [heq] at hcurrent ⊢
    refine ⟨hcurrent.upserts, hcurrent.nextUpsert, hcurrent.get, hcurrent.buckets, ?_, ?_, ?_,
      Or.inr ⟨hneutral.nextBucket, ?_, ?_, ?_, ?_⟩⟩
    · intro b hb
      rw [(hrecord _).made, alloc_heap_of_ne (hne b hb), hneutral.made]
    · intro b hb
      rw [(hrecord _).syncedCount, alloc_heap_of_ne (hne b hb), hneutral.syncedCount]
    · intro b hb
      rw [recordBucket_fixedResetAt, alloc_heap_of_ne (hne b hb), hfixed]
    · rw [(hrecord _).nextBucket]
      exact congrArg (· + 1) hneutral.nextBucket
    · rw [(hrecord _).made, alloc_heap_self]
    · rw [(hrecord _).syncedCount, alloc_heap_self]
    · rw [recordBucket_fixedResetAt, alloc_heap_self]

/-- What `hit` does after it has counted the hit, up to its `await` or its end. -/
lemma stepHit_section (o : Options) (s : System) (key : String) (fixedResetAt : Option ℤ)
    (now : ℤ) :
    Section (fun k given => k = key ∧ given = fixedResetAt)
      ((s.counter.currentBucket now key fixedResetAt).1.countHit
        (s.counter.currentBucket now key fixedResetAt).2)
      (stepHit o s key fixedResetAt now).counter := by
  have hget := currentBucket_get s.counter now key fixedResetAt
  unfold stepHit
  dsimp only
  split_ifs
  · exact flushBucket_section hget (Or.inr ⟨rfl, rfl⟩)
  · exact finishHit_section o _ key _

/-! ## Keys -/

/-- `keyOf` tells the key of every bucket in the map, and of every upsert by its bucket. -/
structure Keyed (keyOf : ℕ → String) (c : Counter) : Prop where
  current : ∀ key b, c.buckets.get key = some b → keyOf b = key
  upserts : ∀ u < c.nextUpsert, keyOf (c.upserts u).bucket = (c.upserts u).key

lemma Keyed.section {keyOf : ℕ → String} {c c' : Counter} (h : Keyed keyOf c)
    (hsection : Section given c c') : Keyed keyOf c' where
  current key b hget := h.current key b (hsection.buckets ▸ hget)
  upserts u hu := by
    by_cases hold : u < c.nextUpsert
    · rw [hsection.upserts u hold]
      exact h.upserts u hold
    · obtain ⟨-, hget, -⟩ := hsection.sent u (not_lt.mp hold) hu
      exact h.current _ _ hget

/-- A bucket gets its key when it is made; no earlier upsert belongs to it. -/
lemma Keyed.found {keyOf : ℕ → String} {c c' : Counter} {key : String} {fixedResetAt : Option ℤ}
    {ref : ℕ} (h : Keyed keyOf c) (hledger : Ledger c) (hplaced : Placed c)
    (hfound : Found key fixedResetAt c c' ref) :
    Keyed (Function.update keyOf ref key) c' := by
  have hsame : ∀ b < c.nextBucket, Function.update keyOf ref key b = keyOf b := by
    intro b hb
    rcases hfound.place with ⟨hget, -⟩ | ⟨hnew, -⟩
    · by_cases hbref : b = ref
      · rw [hbref, Function.update_self, h.current key ref hget]
      · exact Function.update_of_ne hbref ..
    · exact Function.update_of_ne (hnew ▸ hb.ne) ..
  constructor
  · intro k b hget
    by_cases hk : k = key
    · rw [hk, hfound.get] at hget
      cases hget
      rw [Function.update_self, hk]
    · have hget' := hfound.buckets k hk b hget
      rw [hsame b (hplaced.current k b hget')]
      exact h.current k b hget'
  · intro u hu
    rw [hfound.nextUpsert] at hu
    rw [hfound.upserts, hsame _ (hledger.bucket u hu)]
    exact h.upserts u hu

end Counter

end RateLimitCounter
end FirecrawlGateway
