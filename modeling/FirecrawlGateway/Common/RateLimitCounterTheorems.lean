import FirecrawlGateway.Common.RateLimitCounterSteps

/-!
# No hit is lost or written twice

The answer to an upsert moves its delta from the hits in flight to the hits written, or back to
the pending delta of its bucket. With `step_cases` this gives the ledger of every bucket in
every reachable state, from which the theorem reads where a hit is.
-/

namespace FirecrawlGateway
namespace RateLimitCounter

namespace Counter

/-! ## The answer to an upsert -/

/-- `c` after the status of upsert `u` is set. -/
def answer (c : Counter) (u : ℕ) (status : UpsertStatus) : Counter :=
  { c with upserts := Function.update c.upserts u { c.upserts u with status := status } }

/-- An answered upsert is no longer in flight. -/
lemma answer_sent {c : Counter} {u : ℕ} (hu : u < c.nextUpsert) (status : UpsertStatus)
    (hstatus : status ≠ .sent) (b : ℕ) :
    (c.answer u status).upserted b .sent + (c.upserts u).share b .sent = c.upserted b .sent := by
  have h := upserted_update hu { c.upserts u with status := status } b .sent
  have hnew : ({ c.upserts u with status := status } : Upsert).share b .sent = 0 :=
    if_neg fun h => hstatus h.2
  rwa [hnew, add_zero] at h

/-- What an answered upsert holds counts under its new status only. -/
lemma answer_of_ne {c : Counter} {u : ℕ} (hu : u < c.nextUpsert)
    (hsent : (c.upserts u).status = .sent) (status status' : UpsertStatus)
    (hstatus' : status' ≠ .sent) (b : ℕ) :
    (c.answer u status).upserted b status' = c.upserted b status' +
      if status = status' then (c.upserts u).share b .sent else 0 := by
  have h := upserted_update hu { c.upserts u with status := status } b status'
  have hold : (c.upserts u).share b status' = 0 :=
    if_neg fun h => hstatus' (h.2.symm.trans hsent)
  rw [hold, add_zero] at h
  refine h.trans (congrArg _ ?_)
  unfold Upsert.share
  rw [hsent]
  split_ifs <;> simp_all

lemma answer_bucket (c : Counter) (u : ℕ) (status : UpsertStatus) (i : ℕ) :
    ((c.answer u status).upserts i).bucket = (c.upserts i).bucket :=
  update_upserts (c := c) (u := u) (x := { c.upserts u with status := status }) Upsert.bucket rfl i

/-- What a committed upsert holds is written from then on. -/
lemma answer_resolved_counted {c : Counter} {u : ℕ} (hu : u < c.nextUpsert)
    (hsent : (c.upserts u).status = .sent) (b : ℕ) :
    (c.answer u .resolved).counted b = c.counted b := by
  have hheap : (c.answer u .resolved).heap = c.heap := rfl
  have hresolved := answer_of_ne hu hsent .resolved .resolved (by simp) b
  rw [if_pos rfl] at hresolved
  unfold counted
  rw [hresolved, hheap, ← answer_sent hu .resolved (by simp) b]
  abel

/-- What a rejected upsert held is missing until it is restored. -/
lemma answer_rejected_counted {c : Counter} {u : ℕ} (hu : u < c.nextUpsert)
    (hsent : (c.upserts u).status = .sent) (b : ℕ) :
    (c.answer u .rejected).counted b + (c.upserts u).share b .sent = c.counted b := by
  have hheap : (c.answer u .rejected).heap = c.heap := rfl
  have hresolved := answer_of_ne hu hsent .rejected .resolved (by simp) b
  rw [if_neg (by simp), add_zero] at hresolved
  unfold counted
  rw [hresolved, hheap, ← answer_sent hu .rejected (by simp) b]
  abel

/-- The `catch` handler. -/
def restore (c : Counter) (ref : ℕ) (delta : List ℕ) : Counter :=
  c.modify ref fun b => { b with pendingDelta := b.pendingDelta ++ delta }

/-- The `then` handler. -/
def sync (c : Counter) (ref count : ℕ) (resetAt : ℤ) : Counter :=
  c.modify ref fun b => { b with syncedCount := count, resetAt := resetAt }

lemma restore_made (c : Counter) (ref : ℕ) (delta : List ℕ) (b : ℕ) :
    ((c.restore ref delta).heap b).made = (c.heap b).made := modify_heap Bucket.made rfl b

lemma restore_removed (c : Counter) (ref : ℕ) (delta : List ℕ) (b : ℕ) :
    ((c.restore ref delta).heap b).removed = (c.heap b).removed :=
  modify_heap Bucket.removed rfl b

lemma sync_made (c : Counter) (ref count : ℕ) (resetAt : ℤ) (b : ℕ) :
    ((c.sync ref count resetAt).heap b).made = (c.heap b).made := modify_heap Bucket.made rfl b

lemma sync_removed (c : Counter) (ref count : ℕ) (resetAt : ℤ) (b : ℕ) :
    ((c.sync ref count resetAt).heap b).removed = (c.heap b).removed :=
  modify_heap Bucket.removed rfl b

lemma restore_counted (c : Counter) (ref : ℕ) (delta : List ℕ) (b : ℕ) :
    (c.restore ref delta).counted b = c.counted b + if ref = b then (delta : Multiset ℕ) else 0 := by
  have hup : ∀ status, (c.restore ref delta).upserted b status = c.upserted b status :=
    fun _ => rfl
  unfold counted
  rw [hup, hup]
  unfold restore
  split_ifs with href
  · rw [href, modify_heap_self]
    dsimp only
    rw [← Multiset.coe_add]
    abel
  · rw [modify_heap_of_ne (Ne.symm href), add_zero]

lemma sync_counted (c : Counter) (ref count : ℕ) (resetAt : ℤ) (b : ℕ) :
    (c.sync ref count resetAt).counted b = c.counted b := by
  have hup : ∀ status, (c.sync ref count resetAt).upserted b status = c.upserted b status :=
    fun _ => rfl
  unfold counted
  rw [hup, hup]
  unfold sync
  rw [modify_heap Bucket.pendingDelta rfl, modify_heap Bucket.dropped rfl]

/-- What the answer to an upsert does. -/
lemma settleUpsert_cases (c : Counter) (u : ℕ) (outcome : Outcome) :
    (outcome = .rejected ∧ c.settleUpsert u outcome =
      (c.answer u .rejected).restore (c.upserts u).bucket (c.upserts u).delta) ∨
    (outcome = .resolved none ∧ c.settleUpsert u outcome = c.answer u .resolved) ∨
    ∃ count resetAt, outcome = .resolved (some (count, resetAt)) ∧ c.settleUpsert u outcome =
      (c.answer u .resolved).sync (c.upserts u).bucket count resetAt := by
  cases outcome with
  | rejected => exact Or.inl ⟨rfl, rfl⟩
  | resolved entry =>
    cases entry with
    | none => exact Or.inr (Or.inl ⟨rfl, rfl⟩)
    | some row => exact Or.inr (Or.inr ⟨row.1, row.2, rfl, rfl⟩)

/-- An answer loses no hit and makes none. -/
lemma settleUpsert_counted {c : Counter} {u : ℕ} (hu : u < c.nextUpsert)
    (hsent : (c.upserts u).status = .sent) (outcome : Outcome) (b : ℕ) :
    (c.settleUpsert u outcome).counted b = c.counted b := by
  rcases settleUpsert_cases c u outcome with ⟨-, heq⟩ | ⟨-, heq⟩ | ⟨count, resetAt, -, heq⟩
  · -- what the rejected upsert held goes back to the pending delta
    have hshare : (c.upserts u).share b .sent =
        if (c.upserts u).bucket = b then ((c.upserts u).delta : Multiset ℕ) else 0 := by
      unfold Upsert.share
      rw [hsent]
      simp only [and_true]
    rw [heq, restore_counted, ← hshare, answer_rejected_counted hu hsent]
  · rw [heq, answer_resolved_counted hu hsent]
  · rw [heq, sync_counted, answer_resolved_counted hu hsent]

/-- An answer changes no hit count, no bucket's place and no upsert's bucket. -/
lemma settleUpsert_keeps (c : Counter) (u : ℕ) (outcome : Outcome) :
    (c.settleUpsert u outcome).buckets = c.buckets ∧
      (c.settleUpsert u outcome).nextBucket = c.nextBucket ∧
      (c.settleUpsert u outcome).nextUpsert = c.nextUpsert ∧
      (∀ b, ((c.settleUpsert u outcome).heap b).made = (c.heap b).made) ∧
      (∀ b, ((c.settleUpsert u outcome).heap b).removed = (c.heap b).removed) ∧
      ∀ i, ((c.settleUpsert u outcome).upserts i).bucket = (c.upserts i).bucket := by
  rcases settleUpsert_cases c u outcome with ⟨-, heq⟩ | ⟨-, heq⟩ | ⟨count, resetAt, -, heq⟩
  · rw [heq]
    exact ⟨rfl, rfl, rfl, restore_made _ _ _, restore_removed _ _ _, answer_bucket c u _⟩
  · rw [heq]
    exact ⟨rfl, rfl, rfl, fun _ => rfl, fun _ => rfl, answer_bucket c u _⟩
  · rw [heq]
    exact ⟨rfl, rfl, rfl, sync_made _ _ _ _, sync_removed _ _ _ _, answer_bucket c u _⟩

lemma settleUpsert_ledger {c : Counter} (hc : Ledger c) {u : ℕ} (hu : u < c.nextUpsert)
    (hsent : (c.upserts u).status = .sent) (outcome : Outcome) :
    Ledger (c.settleUpsert u outcome) := by
  obtain ⟨-, hbucket, hupsert, hmade, -, hof⟩ := settleUpsert_keeps c u outcome
  constructor
  · intro b hb
    rw [settleUpsert_counted hu hsent, hmade]
    exact hc.counted b (hbucket ▸ hb)
  · intro i hi
    rw [hof, hbucket]
    exact hc.bucket i (hupsert ▸ hi)

lemma settleUpsert_placed {c : Counter} (hc : Placed c) (u : ℕ) (outcome : Outcome) :
    Placed (c.settleUpsert u outcome) := by
  obtain ⟨hbuckets, hbucket, -, hmade, hremoved, -⟩ := settleUpsert_keeps c u outcome
  exact hc.congr hbuckets hbucket hmade hremoved

end Counter

open Counter

/-! ## Steps -/

/-- The windows an event finds ended outside of `hit`. -/
def windowEnded (c : Counter) : Event → ℕ → Prop
  | .fire _ now, b => b < c.nextBucket ∧ (c.heap b).resetAt ≤ now
  | .resumeDrain _ now, b => b < c.nextBucket ∧ (c.heap b).resetAt ≤ now
  | _, _ => False

/-- What is left of `hit` once the hit is counted. -/
lemma stepHit_rest (o : Options) {s : System} {key : String} {fixedResetAt : Option ℤ} {now : ℤ}
    {c : Counter} {ref : ℕ} (hcurrent : s.counter.currentBucket now key fixedResetAt = (c, ref))
    (href : ref < c.nextBucket) {ended : ℕ → Prop} :
    Changes ended (c.countHit ref) (stepHit o s key fixedResetAt now).counter := by
  unfold stepHit
  rw [hcurrent]
  dsimp only
  split_ifs
  · exact flushBucket_changes href
  · exact finishHit_changes o _ key ref

lemma stepHit_changes (o : Options) (s : System) (key : String) (fixedResetAt : Option ℤ)
    (now : ℤ) {ended : ℕ → Prop} (hplaced : Placed s.counter) :
    Changes ended s.counter (stepHit o s key fixedResetAt now).counter := by
  have hget := currentBucket_get s.counter now key fixedResetAt
  have href := currentBucket_lt hplaced now key fixedResetAt
  exact ((currentBucket_changes s.counter now key fixedResetAt).tail (.count hget)).trans
    (stepHit_rest o rfl href)

lemma stepFire_changes (s : System) (key : String) (ref : ℕ) (now : ℤ) (hplaced : Placed s.counter) :
    Changes (windowEnded s.counter (.fire key now)) s.counter (stepFire s key ref now).counter := by
  have htimers : Changes (windowEnded s.counter (.fire key now)) s.counter
      { s.counter with flushTimers := s.counter.flushTimers.delete key } :=
    changes_of_fields _ _ _ _
  unfold stepFire
  dsimp only
  split_ifs with hstale
  · exact htimers
  · obtain ⟨hcurrent, -⟩ := not_or.mp hstale
    have href := hplaced.current key ref (not_not.mp hcurrent)
    exact htimers.trans (flushIfCurrent_changes href fun hexpired => ⟨href, hexpired⟩)

lemma stepResumeDrain_changes (s : System) (i : ℕ) (task : DrainTask) (now : ℤ)
    (hplaced : Placed s.counter) :
    Changes (windowEnded s.counter (.resumeDrain i now)) s.counter
      (stepResumeDrain s i task now).counter := by
  unfold stepResumeDrain
  split
  · dsimp only
    split_ifs
    · exact Relation.ReflTransGen.refl
    · refine flushAll_changes (fun e he => ?_) fun b hb hexpired => ⟨hb, hexpired⟩
      have hentry := (List.mem_filter.mp he).1
      exact hplaced.current e.1 e.2 (JsMap.mem_entries.mp hentry)
  · dsimp only
    split_ifs
    · exact Relation.ReflTransGen.refl
    · exact Relation.ReflTransGen.refl

/-- An event is the answer to an upsert in flight, or a sequence of changes. -/
theorem step_cases {o : Options} {s s' : System} {e : Event} (h : step o s e = some s')
    (hplaced : Placed s.counter) :
    (∃ u outcome, e = .settle u outcome ∧ u < s.counter.nextUpsert ∧
      (s.counter.upserts u).status = .sent ∧
      s' = { s with counter := s.counter.settleUpsert u outcome }) ∨
    Changes (windowEnded s.counter e) s.counter s'.counter := by
  cases e with
  | hit key fixedResetAt now =>
    cases h
    exact Or.inr (stepHit_changes o s key fixedResetAt now hplaced)
  | resumeHit i =>
    simp only [step] at h
    split at h
    · split_ifs at h
      cases h
      exact Or.inr (finishHit_changes o _ _ _)
    · cases h
  | settle u outcome =>
    simp only [step] at h
    split_ifs at h with hu
    cases h
    exact Or.inl ⟨u, outcome, rfl, hu.1, hu.2, rfl⟩
  | finish u =>
    simp only [step] at h
    split_ifs at h
    cases h
    exact Or.inr (finishUpsert_changes _ u)
  | fire key now =>
    simp only [step] at h
    split at h
    · cases h
      exact Or.inr (stepFire_changes s key _ now hplaced)
    · cases h
  | resumeTimer i now =>
    simp only [step] at h
    split at h
    · split_ifs at h
      cases h
      refine Or.inr ?_
      unfold stepResumeTimer
      dsimp only
      split_ifs
      · exact scheduleFlush_changes _ _ _
      · exact Relation.ReflTransGen.refl
    · cases h
  | drain =>
    cases h
    exact Or.inr (changes_of_fields _ _ _ _)
  | resumeDrain i now =>
    simp only [step] at h
    split at h
    · split_ifs at h
      cases h
      exact Or.inr (stepResumeDrain_changes s i _ now hplaced)
    · cases h

/-- What holds of every reachable counter. -/
structure Sound (c : Counter) : Prop where
  ledger : Ledger c
  placed : Placed c

lemma sound_init : Sound {} where
  ledger := ⟨fun _ hb => absurd hb (Nat.not_lt_zero _), fun _ hu => absurd hu (Nat.not_lt_zero _)⟩
  placed := ⟨fun _ _ hget => absurd hget.symm (Option.some_ne_none _),
    fun _ hb => absurd hb (Nat.not_lt_zero _)⟩

lemma step_sound {o : Options} {s s' : System} {e : Event} (h : step o s e = some s')
    (hs : Sound s.counter) : Sound s'.counter := by
  rcases step_cases h hs.placed with ⟨u, outcome, -, hu, hsent, rfl⟩ | hchanges
  · exact ⟨settleUpsert_ledger hs.ledger hu hsent outcome, settleUpsert_placed hs.placed u outcome⟩
  · exact ⟨hchanges.ledger hs.ledger, hchanges.placed hs.placed⟩

lemma Reachable.sound {o : Options} {s : System} (h : Reachable o s) : Sound s.counter :=
  EventMachine.Reachable.invariant (I := fun s => Sound s.counter) h sound_init
    fun _ _ _ hs hstep => step_sound hstep hs

/-! ## Where a hit is -/

/-- Hit `n` of bucket `b` is in the delta of upsert `u`, which has that status. -/
def InUpsert (c : Counter) (b n : ℕ) (status : UpsertStatus) (u : ℕ) : Prop :=
  u < c.nextUpsert ∧ (c.upserts u).bucket = b ∧ (c.upserts u).status = status ∧
    n ∈ (c.upserts u).delta

lemma mem_upserted {c : Counter} {b n : ℕ} {status : UpsertStatus} :
    n ∈ c.upserted b status ↔ ∃ u, InUpsert c b n status u := by
  unfold Counter.upserted Upsert.share InUpsert
  rw [Multiset.mem_sum]
  constructor
  · rintro ⟨u, hu, hn⟩
    split_ifs at hn with h
    · exact ⟨u, Finset.mem_range.mp hu, h.1, h.2, Multiset.mem_coe.mp hn⟩
    · exact absurd hn (Multiset.notMem_zero n)
  · rintro ⟨u, hu, hb, hstatus, hn⟩
    refine ⟨u, Finset.mem_range.mpr hu, ?_⟩
    rw [if_pos ⟨hb, hstatus⟩]
    exact Multiset.mem_coe.mpr hn

lemma InUpsert.count {c : Counter} {b n u : ℕ} {status : UpsertStatus}
    (h : InUpsert c b n status u) :
    (c.upserts u).delta.count n ≤ (c.upserted b status).count n := by
  obtain ⟨hu, hb, hstatus, -⟩ := h
  have hshare : (c.upserts u).share b status = (c.upserts u).delta := if_pos ⟨hb, hstatus⟩
  unfold Counter.upserted
  rw [Multiset.count_sum', ← Multiset.coe_count, ← hshare]
  exact Finset.single_le_sum (f := fun v => ((c.upserts v).share b status).count n)
    (fun _ _ => Nat.zero_le _) (Finset.mem_range.mpr hu)

/-- A hit that is in one place only is in one upsert only. -/
lemma inUpsert_unique {c : Counter} {b n : ℕ} {status : UpsertStatus}
    (hcount : (c.upserted b status).count n ≤ 1) {u u' : ℕ} (hu : InUpsert c b n status u)
    (hu' : InUpsert c b n status u') : u = u' := by
  by_contra hne
  have hmem : ∀ v, InUpsert c b n status v → 1 ≤ ((c.upserts v).share b status).count n := by
    rintro v ⟨-, hb, hstatus, hn⟩
    unfold Upsert.share
    rw [if_pos ⟨hb, hstatus⟩]
    exact Multiset.one_le_count_iff_mem.mpr (Multiset.mem_coe.mpr hn)
  have hpair : ({u, u'} : Finset ℕ) ⊆ Finset.range c.nextUpsert := by
    intro v hv
    rcases Finset.mem_insert.mp hv with rfl | hv
    · exact Finset.mem_range.mpr hu.1
    · rw [Finset.mem_singleton.mp hv]
      exact Finset.mem_range.mpr hu'.1
  have htwo : 2 ≤ (c.upserted b status).count n := calc
    2 ≤ ((c.upserts u).share b status).count n + ((c.upserts u').share b status).count n :=
      Nat.add_le_add (hmem u hu) (hmem u' hu')
    _ = ∑ v ∈ {u, u'}, ((c.upserts v).share b status).count n :=
      (Finset.sum_pair (f := fun v => ((c.upserts v).share b status).count n) hne).symm
    _ ≤ ∑ v ∈ Finset.range c.nextUpsert, ((c.upserts v).share b status).count n :=
      Finset.sum_le_sum_of_subset hpair
    _ = (c.upserted b status).count n := (Multiset.count_sum').symm
  omega

/-- Two hits; the upsert with the first is rejected. -/
def rejectedFlush : List Event :=
  [.hit "k" none 10000, .hit "k" none 10001, .settle 0 .rejected, .finish 0]

end RateLimitCounter
end FirecrawlGateway
