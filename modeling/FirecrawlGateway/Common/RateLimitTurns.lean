import FirecrawlGateway.Common.RateLimitHitCounts
import FirecrawlGateway.Common.SharedRateLimitsLedger

/-!
# A turn of one counter

`Turn` is what one event of a counter does to its hits, by cases on the event once: it counts one
hit or none, it loses and changes no upsert, and what it learns of the table is an answer that the
database gave.
-/

namespace FirecrawlGateway
namespace RateLimitCounter

namespace Counter

/-! ## Upserts -/

/-- Upserts are never forgotten or changed, a rejected one stays rejected, and none is sent again. -/
structure Grown (c c' : Counter) : Prop where
  nextUpsert : c.nextUpsert ≤ c'.nextUpsert
  key : ∀ u < c.nextUpsert, (c'.upserts u).key = (c.upserts u).key
  bucket : ∀ u < c.nextUpsert, (c'.upserts u).bucket = (c.upserts u).bucket
  delta : ∀ u < c.nextUpsert, (c'.upserts u).delta = (c.upserts u).delta
  pinned : ∀ u < c.nextUpsert, (c'.upserts u).fixedResetAt = (c.upserts u).fixedResetAt
  rejected : ∀ u < c.nextUpsert, (c.upserts u).status = .rejected →
    (c'.upserts u).status = .rejected
  sent : ∀ u < c.nextUpsert, (c'.upserts u).status = .sent → (c.upserts u).status = .sent

lemma Section.grown {given : String → Option ℤ → Prop} {c c' : Counter} (h : Section given c c') :
    Grown c c' where
  nextUpsert := h.nextUpsert
  key u hu := by rw [h.upserts u hu]
  bucket u hu := by rw [h.upserts u hu]
  delta u hu := by rw [h.upserts u hu]
  pinned u hu := by rw [h.upserts u hu]
  rejected u hu hstatus := by rwa [h.upserts u hu]
  sent u hu hstatus := by rwa [h.upserts u hu] at hstatus

lemma settleUpsert_upserts (c : Counter) (u : ℕ) (outcome : Outcome) :
    ∃ status, (c.settleUpsert u outcome).upserts =
      Function.update c.upserts u { c.upserts u with status := status } ∧
      (outcome = .rejected ∧ status = .rejected ∨
        ∃ entry, outcome = .resolved entry ∧ status = .resolved) := by
  rcases settleUpsert_cases c u outcome with ⟨ho, heq⟩ | ⟨ho, heq⟩ | ⟨count, resetAt, ho, heq⟩
  · rw [heq]
    exact ⟨.rejected, rfl, Or.inl ⟨ho, rfl⟩⟩
  · rw [heq]
    exact ⟨.resolved, rfl, Or.inr ⟨none, ho, rfl⟩⟩
  · rw [heq]
    exact ⟨.resolved, rfl, Or.inr ⟨_, ho, rfl⟩⟩

lemma settleUpsert_rejected (c : Counter) (u : ℕ) :
    ((c.settleUpsert u .rejected).upserts u).status = .rejected := by
  obtain ⟨status, hupserts, hstatus⟩ := settleUpsert_upserts c u .rejected
  rw [hupserts, Function.update_self]
  rcases hstatus with ⟨-, hstatus⟩ | ⟨entry, houtcome, -⟩
  · exact hstatus
  · cases houtcome

lemma settleUpsert_resolved (c : Counter) (u : ℕ) (entry : Option (ℕ × ℤ)) :
    ((c.settleUpsert u (.resolved entry)).upserts u).status = .resolved := by
  obtain ⟨status, hupserts, hstatus⟩ := settleUpsert_upserts c u (.resolved entry)
  rw [hupserts, Function.update_self]
  rcases hstatus with ⟨houtcome, -⟩ | ⟨entry, -, hstatus⟩
  · cases houtcome
  · exact hstatus

lemma sync_self (c : Counter) (ref count : ℕ) (resetAt : ℤ) :
    ((c.sync ref count resetAt).heap ref).syncedCount = count := by
  unfold sync
  rw [modify_heap_self]

lemma settleUpsert_grown {c : Counter} {u : ℕ} (hsent : (c.upserts u).status = .sent)
    (outcome : Outcome) : Grown c (c.settleUpsert u outcome) := by
  obtain ⟨-, -, hnext, -, -, -⟩ := settleUpsert_keeps c u outcome
  obtain ⟨status, hupserts, -⟩ := settleUpsert_upserts c u outcome
  constructor
  · exact hnext.ge
  · intro i _
    rw [hupserts]
    exact update_upserts (x := { c.upserts u with status := status }) Upsert.key rfl i
  · intro i _
    rw [hupserts]
    exact update_upserts (x := { c.upserts u with status := status }) Upsert.bucket rfl i
  · intro i _
    rw [hupserts]
    exact update_upserts (x := { c.upserts u with status := status }) Upsert.delta rfl i
  · intro i _
    rw [hupserts]
    exact update_upserts (x := { c.upserts u with status := status }) Upsert.fixedResetAt rfl i
  · intro i _ hrejected
    have hne : i ≠ u := by
      rintro rfl
      rw [hsent] at hrejected
      cases hrejected
    rw [hupserts, Function.update_of_ne hne]
    exact hrejected
  · intro i _ hstatus
    by_cases hi : i = u
    · rw [hi, hsent]
    · rwa [hupserts, Function.update_of_ne hi] at hstatus

/-- Upserts that stay as they are count for as much as before; new ones do if they meet `p'`. -/
lemma Grown.upsertHits_le {c c' : Counter} (h : Grown c c') (key : String) {p p' : ℕ → Prop}
    [DecidablePred p] [DecidablePred p'] (hp : ∀ u < c.nextUpsert, (c.upserts u).key = key → p u → p' u) :
    c.upsertHits key p ≤ c'.upsertHits key p' := by
  unfold upsertHits
  refine (Finset.sum_le_sum fun u hu => ?_).trans
    (Finset.sum_le_sum_of_subset (Finset.range_mono h.nextUpsert))
  have hlt := Finset.mem_range.mp hu
  rw [h.key u hlt, h.delta u hlt]
  by_cases hold : (c.upserts u).key = key ∧ p u
  · rw [if_pos hold, if_pos ⟨hold.1, hp u hlt hold.1 hold.2⟩]
  · rw [if_neg hold]
    exact Nat.zero_le _

lemma upsertHits_mono (c : Counter) (key : String) {p p' : ℕ → Prop} [DecidablePred p]
    [DecidablePred p'] (hp : ∀ u < c.nextUpsert, (c.upserts u).key = key → p u → p' u) :
    c.upsertHits key p ≤ c.upsertHits key p' := by
  have hrefl : Section (fun _ _ => False) c c := Section.refl c
  exact hrefl.grown.upsertHits_le key hp

lemma Grown.upsertHits_eq {c c' : Counter} (h : Grown c c') (key : String) {p p' : ℕ → Prop}
    [DecidablePred p] [DecidablePred p'] (hp : ∀ u < c.nextUpsert, p u ↔ p' u)
    (hnew : ∀ u, p' u → u < c.nextUpsert) : c'.upsertHits key p' = c.upsertHits key p := by
  unfold upsertHits
  rw [← Finset.sum_subset (Finset.range_mono h.nextUpsert) fun u _ hu =>
    if_neg fun hmeets => hu (Finset.mem_range.mpr (hnew u hmeets.2))]
  refine Finset.sum_congr rfl fun u hu => ?_
  have hlt := Finset.mem_range.mp hu
  rw [h.key u hlt, h.delta u hlt]
  simp only [hp u hlt]

/-! ## A turn of one counter -/

/-- How many hits on `key` an event counts. -/
def counts (key : String) : Event → ℕ
  | .hit k _ _ => if k = key then 1 else 0
  | _ => 0

/-- The keys of the buckets after an event. -/
def noteKey (c : Counter) (keyOf : ℕ → String) : Event → ℕ → String
  | .hit key fixedResetAt now => Function.update keyOf (c.currentBucket now key fixedResetAt).2 key
  | _ => keyOf

lemma counts_of_not_hit {e : Event} (h : ∀ key fixedResetAt now, e ≠ .hit key fixedResetAt now)
    (key : String) : counts key e = 0 := by
  cases e with
  | hit k fixedResetAt now => exact absurd rfl (h k fixedResetAt now)
  | _ => rfl

lemma noteKey_of_not_hit {e : Event} (h : ∀ key fixedResetAt now, e ≠ .hit key fixedResetAt now)
    {c : Counter} {keyOf : ℕ → String} : c.noteKey keyOf e = keyOf := by
  cases e with
  | hit k fixedResetAt now => exact absurd rfl (h k fixedResetAt now)
  | _ => rfl

/-- What an event does to the hits of a counter, to which the database has given `answers`. -/
structure Turn (answers : ℕ → Option (ℕ × ℤ)) (keyOf : ℕ → String) (e : Event)
    (c c' : Counter) : Prop where
  nextBucket : c.nextBucket ≤ c'.nextBucket
  grown : Grown c c'
  same : ∀ b < c.nextBucket, c.noteKey keyOf e b = keyOf b
  keyed : Keyed (c.noteKey keyOf e) c'
  made : ∀ key, c'.bucketHits (c.noteKey keyOf e) key Bucket.made =
    c.bucketHits keyOf key Bucket.made + counts key e
  resolved : ∀ u < c'.nextUpsert, (c'.upserts u).status = .resolved →
    u < c.nextUpsert ∧ ((c.upserts u).status = .resolved ∨
      ∃ a, answers u = some a ∧ (c'.heap (c.upserts u).bucket).syncedCount = a.1)
  synced : ∀ b < c'.nextBucket, c.nextBucket ≤ b ∧ (c'.heap b).syncedCount = 0 ∨
    b < c.nextBucket ∧ (c'.heap b).syncedCount = (c.heap b).syncedCount ∨
    ∃ u < c.nextUpsert, ∃ a, answers u = some a ∧ (c.upserts u).bucket = b ∧
      (c'.heap b).syncedCount = a.1 ∧ (c.upserts u).status = .sent ∧
      (c'.upserts u).status = .resolved

variable {answers : ℕ → Option (ℕ × ℤ)} {keyOf : ℕ → String}

lemma bucketHits_congr {c c' : Counter} (hnext : c'.nextBucket = c.nextBucket)
    (hmade : ∀ b, (c'.heap b).made = (c.heap b).made) (keyOf : ℕ → String) (key : String) :
    c'.bucketHits keyOf key Bucket.made = c.bucketHits keyOf key Bucket.made := by
  unfold bucketHits
  simp only [hnext, hmade]

lemma turn_of_section {e : Event} {c c' : Counter} {given : String → Option ℤ → Prop}
    (hsection : Section given c c') (hkeyed : Keyed keyOf c) (hnote : c.noteKey keyOf e = keyOf)
    (hcounts : ∀ key, counts key e = 0) :
    Turn answers keyOf e c c' := by
  constructor
  · exact hsection.nextBucket.ge
  · exact hsection.grown
  · exact fun b _ => by rw [hnote]
  · rw [hnote]
    exact hkeyed.section hsection
  · intro key
    rw [hnote, hcounts, add_zero]
    exact bucketHits_congr hsection.nextBucket hsection.made keyOf key
  · intro u hu hresolved
    by_cases hold : u < c.nextUpsert
    · rw [hsection.upserts u hold] at hresolved
      exact ⟨hold, Or.inl hresolved⟩
    · -- a new upsert is in flight
      rw [(hsection.sent u (not_lt.mp hold) hu).1] at hresolved
      cases hresolved
  · intro b hb
    exact Or.inr (Or.inl ⟨hsection.nextBucket ▸ hb, hsection.syncedCount b⟩)

lemma turn_of_settle {c : Counter} {u : ℕ} {outcome : Outcome} (hu : u < c.nextUpsert)
    (hsent : (c.upserts u).status = .sent) (hkeyed : Keyed keyOf c)
    (hanswered : Answered answers (.settle u outcome)) :
    Turn answers keyOf (.settle u outcome) c (c.settleUpsert u outcome) := by
  obtain ⟨hbuckets, hnextBucket, hnext, hmade, -, -⟩ := settleUpsert_keeps c u outcome
  have hgrown := settleUpsert_grown hsent outcome
  constructor
  · exact hnextBucket.ge
  · exact hgrown
  · exact fun _ _ => rfl
  · refine ⟨fun key b hget => hkeyed.current key b (hbuckets ▸ hget), fun i hi => ?_⟩
    rw [hnext] at hi
    rw [hgrown.bucket i hi, hgrown.key i hi]
    exact hkeyed.upserts i hi
  · exact bucketHits_congr hnextBucket hmade keyOf
  · intro i hi hresolved
    rw [hnext] at hi
    refine ⟨hi, ?_⟩
    by_cases hiu : i = u
    · rw [hiu] at hresolved ⊢
      rcases settleUpsert_cases c u outcome with ⟨rfl, -⟩ | ⟨rfl, -⟩ | ⟨count, resetAt, rfl, heq⟩
      · rw [settleUpsert_rejected] at hresolved
        cases hresolved
      · exact absurd rfl hanswered.1
      · refine Or.inr ⟨_, hanswered.2, ?_⟩
        rw [heq, sync_self]
    · obtain ⟨status, hupserts, -⟩ := settleUpsert_upserts c u outcome
      rw [hupserts, Function.update_of_ne hiu] at hresolved
      exact Or.inl hresolved
  · intro b hb
    rw [hnextBucket] at hb
    rcases settleUpsert_cases c u outcome with ⟨-, heq⟩ | ⟨-, heq⟩ | ⟨count, resetAt, rfl, heq⟩
    · rw [heq]
      exact Or.inr (Or.inl ⟨hb, modify_heap Bucket.syncedCount rfl b⟩)
    · rw [heq]
      exact Or.inr (Or.inl ⟨hb, rfl⟩)
    · rw [heq]
      by_cases hbu : b = (c.upserts u).bucket
      · refine Or.inr (Or.inr ⟨u, hu, _, hanswered.2, hbu.symm, ?_, hsent, ?_⟩)
        · rw [hbu, sync_self]
        · rw [← heq, settleUpsert_resolved]
      · unfold sync
        rw [modify_heap_of_ne hbu]
        exact Or.inr (Or.inl ⟨hb, rfl⟩)

lemma countHit_made (c : Counter) (ref b : ℕ) :
    ((c.countHit ref).heap b).made = (c.heap b).made + if b = ref then 1 else 0 := by
  unfold countHit
  by_cases hb : b = ref
  · rw [hb, modify_heap_self, if_pos rfl]
  · rw [modify_heap_of_ne hb, if_neg hb, add_zero]

/-- A hit is one more on its key. -/
lemma found_bucketHits {c c' : Counter} {key : String} {given : Option ℤ} {ref : ℕ}
    (hkeyed : Keyed keyOf c) (hplaced : Placed c) (hfound : Found key given c c' ref) (k : String) :
    (c'.countHit ref).bucketHits (Function.update keyOf ref key) k Bucket.made =
      c.bucketHits keyOf k Bucket.made + if key = k then 1 else 0 := by
  unfold bucketHits
  show ∑ b ∈ Finset.range c'.nextBucket, _ = _
  simp only [countHit_made]
  rcases hfound.place with ⟨hget, hnext⟩ | ⟨hnew, hnext, hzero, -, -⟩
  · -- the bucket was there, under this key
    have href : ref < c.nextBucket := hplaced.current key ref hget
    have hsame : Function.update keyOf ref key = keyOf := by
      rw [← hkeyed.current key ref hget, Function.update_eq_self]
    rw [hnext, hsame]
    have hsum : ∀ b ∈ Finset.range c.nextBucket,
        (if keyOf b = k then (c'.heap b).made + (if b = ref then 1 else 0) else 0) =
        (if keyOf b = k then (c.heap b).made else 0) +
          if b = ref then (if key = k then 1 else 0) else 0 := by
      intro b hb
      rw [hfound.made b (Finset.mem_range.mp hb)]
      by_cases hb : b = ref
      · rw [hb, hkeyed.current key ref hget]
        split_ifs <;> rfl
      · simp only [if_neg hb, add_zero]
    rw [Finset.sum_congr rfl hsum, Finset.sum_add_distrib, Finset.sum_ite_eq',
      if_pos (Finset.mem_range.mpr href)]
  · -- a new bucket, with this hit alone
    rw [hnext, Finset.sum_range_succ, ← hnew, Function.update_self, hzero, if_pos rfl, zero_add]
    congr 1
    refine Finset.sum_congr (by rw [hnew]) fun b hb => ?_
    have hne : b ≠ ref := (Finset.mem_range.mp hb).ne
    rw [Function.update_of_ne hne, if_neg hne, add_zero,
      hfound.made b (hnew ▸ Finset.mem_range.mp hb)]

lemma turn_of_hit {o : Options} {s : System} {key : String} {fixedResetAt : Option ℤ} {now : ℤ}
    (hs : Sound s.counter) (hkeyed : Keyed keyOf s.counter) :
    Turn answers keyOf (.hit key fixedResetAt now) s.counter
      (stepHit o s key fixedResetAt now).counter := by
  have hfound := currentBucket_found s.counter now key fixedResetAt
  have hsection := stepHit_section o s key fixedResetAt now
  have hnote : s.counter.noteKey keyOf (.hit key fixedResetAt now) =
    Function.update keyOf (s.counter.currentBucket now key fixedResetAt).2 key := rfl
  have hcounts : ∀ k, counts k (.hit key fixedResetAt now) = if key = k then 1 else 0 :=
    fun _ => rfl
  generalize hc : s.counter.currentBucket now key fixedResetAt = found at *
  obtain ⟨c, ref⟩ := found
  dsimp only at hfound hsection hnote
  have hnext : s.counter.nextBucket ≤ c.nextBucket := by
    rcases hfound.place with ⟨-, hnext⟩ | ⟨-, hnext, -⟩ <;> omega
  have hold : ∀ u < s.counter.nextUpsert, u < (c.countHit ref).nextUpsert := by
    intro u hu
    show u < c.nextUpsert
    rwa [hfound.nextUpsert]
  have hupserts : (c.countHit ref).upserts = s.counter.upserts := hfound.upserts
  have hgrown := hsection.grown
  constructor
  · rw [hsection.nextBucket]
    exact hnext
  · constructor
    · exact hfound.nextUpsert.ge.trans hgrown.nextUpsert
    · exact fun u hu => by rw [hgrown.key u (hold u hu), hupserts]
    · exact fun u hu => by rw [hgrown.bucket u (hold u hu), hupserts]
    · exact fun u hu => by rw [hgrown.delta u (hold u hu), hupserts]
    · exact fun u hu => by rw [hgrown.pinned u (hold u hu), hupserts]
    · exact fun u hu h => hgrown.rejected u (hold u hu) (by rwa [hupserts])
    · exact fun u hu h => hupserts ▸ hgrown.sent u (hold u hu) h
  · intro b hb
    rw [hnote]
    by_cases href : b = ref
    · rcases hfound.place with ⟨hget, -⟩ | ⟨hnew, -⟩
      · rw [href, Function.update_self, hkeyed.current key ref hget]
      · omega
    · exact Function.update_of_ne href ..
  · rw [hnote]
    have hcounted : Keyed (Function.update keyOf ref key) (c.countHit ref) :=
      ⟨(hkeyed.found hs.ledger hs.placed hfound).current,
        (hkeyed.found hs.ledger hs.placed hfound).upserts⟩
    exact hcounted.section hsection
  · intro k
    rw [hnote, hcounts, ← found_bucketHits hkeyed hs.placed hfound k]
    exact bucketHits_congr hsection.nextBucket hsection.made _ k
  · intro u hu hresolved
    by_cases hlt : u < s.counter.nextUpsert
    · rw [hsection.upserts u (hold u hlt), hupserts] at hresolved
      exact ⟨hlt, Or.inl hresolved⟩
    · have hle : (c.countHit ref).nextUpsert ≤ u := hfound.nextUpsert.le.trans (not_lt.mp hlt)
      rw [(hsection.sent u hle hu).1] at hresolved
      cases hresolved
  · intro b hb
    rw [hsection.nextBucket] at hb
    have hsynced : ((c.countHit ref).heap b).syncedCount = (c.heap b).syncedCount :=
      modify_heap Bucket.syncedCount rfl b
    rw [hsection.syncedCount, hsynced]
    by_cases hlt : b < s.counter.nextBucket
    · exact Or.inr (Or.inl ⟨hlt, hfound.syncedCount b hlt⟩)
    · rcases hfound.place with ⟨-, hnext'⟩ | ⟨hnew, hnext', -, hzero, -⟩
      · exact absurd (hnext' ▸ hb) hlt
      · have hlt' : b < c.nextBucket := hb
        obtain rfl : b = ref := by omega
        exact Or.inl ⟨not_lt.mp hlt, hzero⟩

/-- Every event that the database allows is a turn. -/
lemma step_turn {o : Options} {s s' : System} {e : Event} (h : step o s e = some s')
    (hs : Sound s.counter) (hkeyed : Keyed keyOf s.counter) (hanswered : Answered answers e) :
    Turn answers keyOf e s.counter s'.counter := by
  rcases step_section h with ⟨key, fixedResetAt, now, rfl, rfl⟩ |
    ⟨u, outcome, rfl, hu, hsent, rfl⟩ | ⟨hnot, hsection⟩
  · exact turn_of_hit hs hkeyed
  · exact turn_of_settle hu hsent hkeyed hanswered
  · exact turn_of_section hsection hkeyed (noteKey_of_not_hit hnot) (counts_of_not_hit hnot)

/-- One more upsert that counts. -/
lemma upsertHits_insert {c : Counter} (key : String) {u : ℕ} (hu : u < c.nextUpsert)
    {p q : ℕ → Prop} [DecidablePred p] [DecidablePred q] (hnot : ¬ p u)
    (h : ∀ v, q v ↔ p v ∨ v = u) : c.upsertHits key q = c.upsertHits key p +
      if (c.upserts u).key = key then (c.upserts u).delta.length else 0 := by
  unfold upsertHits
  have hsum : ∀ v ∈ Finset.range c.nextUpsert,
      (if (c.upserts v).key = key ∧ q v then (c.upserts v).delta.length else 0) =
      (if (c.upserts v).key = key ∧ p v then (c.upserts v).delta.length else 0) +
        if v = u then (if (c.upserts u).key = key then (c.upserts u).delta.length else 0) else 0 := by
    intro v _
    by_cases hv : v = u
    · subst hv
      simp only [(h v).mpr (Or.inr rfl), hnot, and_true, and_false, if_true, if_false, zero_add]
    · rw [if_neg hv, add_zero]
      simp only [h v, hv, or_false]
  rw [Finset.sum_congr rfl hsum, Finset.sum_add_distrib, Finset.sum_ite_eq',
    if_pos (Finset.mem_range.mpr hu)]

/-! ## What a hit returns -/

lemma finishHit_heap (o : Options) (c : Counter) (key : String) (ref : ℕ) :
    (finishHit o c key ref).1.heap = c.heap := by
  unfold finishHit scheduleFlush
  dsimp only
  split_ifs <;> rfl

/-- A `Return` says what its bucket holds. -/
def Reads (c : Counter) (r : Return) : Prop :=
  r.bucket < c.nextBucket ∧
    r.count = (c.heap r.bucket).syncedCount + (c.heap r.bucket).pendingDelta.length

lemma stepHit_reads {o : Options} {s : System} (hs : Sound s.counter) (key : String)
    (fixedResetAt : Option ℤ) (now : ℤ) :
    ∃ rs, (stepHit o s key fixedResetAt now).returned = s.returned ++ rs ∧
      ∀ r ∈ rs, Reads (stepHit o s key fixedResetAt now).counter r := by
  have href := currentBucket_lt hs.placed now key fixedResetAt
  have hnext := (stepHit_section o s key fixedResetAt now).nextBucket
  unfold Reads
  rw [hnext]
  unfold stepHit
  dsimp only
  split_ifs
  · exact ⟨[], (List.append_nil _).symm, fun r hr => absurd hr List.not_mem_nil⟩
  · refine ⟨_, rfl, fun r hr => ?_⟩
    obtain rfl := List.mem_singleton.mp hr
    rw [finishHit_heap]
    exact ⟨href, rfl⟩

/-- What a hit returns is what its bucket then holds. -/
lemma step_reads {o : Options} {s s' : System} {e : Event} (h : step o s e = some s')
    (hs : Sound s.counter) (hnext : s.counter.nextBucket ≤ s'.counter.nextBucket)
    (hwaiting : ∀ w ∈ s.waiting, w.bucket < s.counter.nextBucket) :
    (∀ w ∈ s'.waiting, w.bucket < s'.counter.nextBucket) ∧
      ∃ rs, s'.returned = s.returned ++ rs ∧ ∀ r ∈ rs, Reads s'.counter r := by
  have hwaiting' : ∀ w ∈ s.waiting, w.bucket < s'.counter.nextBucket :=
    fun w hw => (hwaiting w hw).trans_le hnext
  rcases step_returned h with ⟨key, fixedResetAt, now, rfl, rfl⟩ | ⟨i, w, rfl, hw, rfl⟩ |
    ⟨hsame, hreturned, -⟩
  · refine ⟨fun w hw => ?_, stepHit_reads hs key fixedResetAt now⟩
    have href := currentBucket_lt hs.placed now key fixedResetAt
    have hsection := (stepHit_section o s key fixedResetAt now).nextBucket
    rcases hc : s.counter.currentBucket now key fixedResetAt with ⟨c, ref⟩
    rw [hc] at href hsection
    rcases stepHit_cases hc with ⟨-, -, on, hlist⟩ | ⟨-, hlist, -⟩
    · rw [hlist] at hw
      rcases List.mem_append.mp hw with hw | hw
      · exact hwaiting' w hw
      · obtain rfl := List.mem_singleton.mp hw
        rw [hsection]
        exact href
    · rw [hlist] at hw
      exact hwaiting' w hw
  · refine ⟨fun w' hw' => hwaiting' w' (List.mem_of_mem_eraseIdx hw'), _, rfl, fun r hr => ?_⟩
    have hbucket := hwaiting' w (List.mem_of_getElem? hw)
    obtain rfl := List.mem_singleton.mp hr
    unfold Reads
    unfold stepResumeHit at hbucket ⊢
    dsimp only at hbucket ⊢
    rw [finishHit_heap]
    exact ⟨hbucket, rfl⟩
  · rw [hsame, hreturned]
    exact ⟨hwaiting', [], (List.append_nil _).symm, fun r hr => absurd hr List.not_mem_nil⟩

end Counter

end RateLimitCounter
end FirecrawlGateway
