import FirecrawlGateway.Common.RateLimitTurns

/-!
# Shared counts never exceed the hits

The invariants of a cluster follow from what a turn of a counter does, and from what a commit and
the cleanup do to the table. No count that a hit returns exceeds the hits all counters made on the
key, apart from replayed ones. While the window of a key lasts nothing is forgotten either: the
row and the unsaved hits are all of them.
-/

namespace FirecrawlGateway
namespace RateLimitCounter

open Counter

namespace Cluster

variable {ι : Type} [DecidableEq ι] {s : Cluster ι}

/-! ## What the events of a cluster do -/

/-- A cluster after an event of counter `i`. -/
def act (s : Cluster ι) (i : ι) (e : Event) (t : System) : Cluster ι :=
  { s.note i e with counters := Function.update s.counters i t }

lemma note_keyOf (s : Cluster ι) (i : ι) (e : Event) : (s.note i e).keyOf =
    Function.update s.keyOf i ((s.counters i).counter.noteKey (s.keyOf i) e) := by
  cases e with
  | hit key fixedResetAt now => rfl
  | _ => exact (Function.update_eq_self i s.keyOf).symm

lemma note_hits (s : Cluster ι) (i : ι) (e : Event) (key : String) :
    (s.note i e).hits key = s.hits key + counts key e := by
  cases e with
  | hit k fixedResetAt now =>
    show Function.update s.hits k (s.hits k + 1) key = s.hits key + if k = key then 1 else 0
    by_cases hk : key = k
    · rw [hk, Function.update_self, if_pos rfl]
    · rw [Function.update_of_ne hk, if_neg (Ne.symm hk), add_zero]
  | _ => rfl

lemma note_table (s : Cluster ι) (i : ι) (e : Event) : (s.note i e).table = s.table := by
  cases e <;> rfl

lemma note_answers (s : Cluster ι) (i : ι) (e : Event) : (s.note i e).answers = s.answers := by
  cases e <;> rfl

lemma clusterStep_cases {o : ι → Options} {s' : Cluster ι} {e : ClusterEvent ι}
    (h : clusterStep o s e = some s') :
    (∃ i e' t, e = .act i e' ∧ Answered (s.answers i) e' ∧ step (o i) (s.counters i) e' = some t ∧
      s' = s.act i e' t) ∨
    (∃ i u now, e = .commit i u now ∧ u < (s.counters i).counter.nextUpsert ∧
      s.answers i u = none ∧ s' = s.commit i u now) ∨
    ∃ key now, e = .prune key now ∧ s' = s.prune key now := by
  cases e with
  | act i e' =>
    simp only [clusterStep] at h
    split_ifs at h with hanswered
    obtain ⟨t, ht, rfl⟩ := Option.map_eq_some_iff.mp h
    exact Or.inl ⟨i, e', t, rfl, hanswered, ht, rfl⟩
  | commit i u now =>
    simp only [clusterStep] at h
    split_ifs at h with hguard
    cases h
    exact Or.inr (Or.inl ⟨i, u, now, rfl, hguard.1, hguard.2.1, rfl⟩)
  | prune key now =>
    cases h
    exact Or.inr (Or.inr ⟨key, now, rfl, rfl⟩)

section Act

variable {i : ι} {e : Event} {t : System}

lemma act_counters_self : (s.act i e t).counters i = t := Function.update_self ..

lemma act_counters_of_ne {j : ι} (hj : j ≠ i) : (s.act i e t).counters j = s.counters j :=
  Function.update_of_ne hj ..

lemma act_keyOf_self :
    (s.act i e t).keyOf i = (s.counters i).counter.noteKey (s.keyOf i) e := by
  show (s.note i e).keyOf i = _
  rw [note_keyOf, Function.update_self]

lemma act_keyOf_of_ne {j : ι} (hj : j ≠ i) : (s.act i e t).keyOf j = s.keyOf j := by
  show (s.note i e).keyOf j = _
  rw [note_keyOf, Function.update_of_ne hj]

lemma act_answers : (s.act i e t).answers = s.answers := note_answers s i e

lemma act_table : (s.act i e t).table = s.table := note_table s i e

lemma act_hits (key : String) : (s.act i e t).hits key = s.hits key + counts key e :=
  note_hits s i e key

end Act

variable [Fintype ι]

/-- Two sums that differ in one summand. -/
lemma sum_update {f g : ι → ℕ} (i : ι) (h : ∀ j ≠ i, g j = f j) :
    ∑ j, g j + f i = ∑ j, f j + g i := by
  have hrest : ∑ j ∈ Finset.univ.erase i, g j = ∑ j ∈ Finset.univ.erase i, f j :=
    Finset.sum_congr rfl fun j hj => h j (Finset.ne_of_mem_erase hj)
  rw [← Finset.add_sum_erase _ g (Finset.mem_univ i), ← Finset.add_sum_erase _ f (Finset.mem_univ i),
    hrest]
  omega

/-! ## The invariants -/

/-- No count is more than what was flushed, and none that was returned is more than the hits that
were made or replayed. -/
structure Bounded (s : Cluster ι) : Prop where
  table : ∀ key row, s.table key = some row → row.count ≤ s.flushed key
  answers : ∀ i u a, s.answers i u = some a →
    a.1 ≤ s.flushed ((s.counters i).counter.upserts u).key
  synced : ∀ i, ∀ b < (s.counters i).counter.nextBucket,
    ((s.counters i).counter.heap b).syncedCount ≤ s.flushed (s.keyOf i b)
  waiting : ∀ i, ∀ w ∈ (s.counters i).waiting, w.bucket < (s.counters i).counter.nextBucket
  returned : ∀ i, ∀ r ∈ (s.counters i).returned, r.bucket < (s.counters i).counter.nextBucket ∧
    r.count ≤ s.hits (s.keyOf i r.bucket) + s.replayed (s.keyOf i r.bucket)

section Act

variable {i : ι} {e : Event} {t : System}
variable (hturn : Turn (s.answers i) (s.keyOf i) e (s.counters i).counter t.counter)
include hturn

lemma Consistent.act (h : Consistent s) (hsound : Sound t.counter) : Consistent (s.act i e t) where
  sound j := by
    by_cases hj : j = i
    · rw [hj, act_counters_self]
      exact hsound
    · rw [act_counters_of_ne hj]
      exact h.sound j
  keyed j := by
    by_cases hj : j = i
    · rw [hj, act_counters_self, act_keyOf_self]
      exact hturn.keyed
    · rw [act_counters_of_ne hj, act_keyOf_of_ne hj]
      exact h.keyed j
  resolved j := by
    rw [act_answers]
    by_cases hj : j = i
    · rw [hj, act_counters_self]
      intro u hu hresolved
      obtain ⟨hold, hresolved' | ⟨a, ha, -⟩⟩ := hturn.resolved u hu hresolved
      · exact h.resolved i u hold hresolved'
      · rw [ha]
        exact Option.some_ne_none a
    · rw [act_counters_of_ne hj]
      exact h.resolved j
  answered j := by
    rw [act_answers]
    by_cases hj : j = i
    · rw [hj, act_counters_self]
      exact fun u hu => (h.answered i u hu).trans_le hturn.grown.nextUpsert
    · rw [act_counters_of_ne hj]
      exact h.answered j
  hits key := by
    have hsum := sum_update (f := fun j => (s.counters j).counter.bucketHits (s.keyOf j) key Bucket.made)
      (g := fun j => ((s.act i e t).counters j).counter.bucketHits ((s.act i e t).keyOf j) key
        Bucket.made) i fun j hj => by rw [act_counters_of_ne hj, act_keyOf_of_ne hj]
    rw [act_counters_self, act_keyOf_self, hturn.made key, ← h.hits key] at hsum
    rw [act_hits]
    omega

/-- Only the database flushes. -/
lemma act_flushed (h : Consistent s) (key : String) : (s.act i e t).flushed key = s.flushed key := by
  unfold flushed
  rw [act_answers]
  refine Finset.sum_congr rfl fun j _ => ?_
  by_cases hj : j = i
  · rw [hj, act_counters_self]
    exact hturn.grown.upsertHits_eq key (fun _ _ => Iff.rfl) (h.answered i)
  · rw [act_counters_of_ne hj]

lemma act_replayed (key : String) : s.replayed key ≤ (s.act i e t).replayed key := by
  unfold replayed
  rw [act_answers]
  refine Finset.sum_le_sum fun j _ => ?_
  by_cases hj : j = i
  · rw [hj, act_counters_self]
    exact hturn.grown.upsertHits_le key fun u hu _ hp => ⟨hp.1, hturn.grown.rejected u hu hp.2⟩
  · rw [act_counters_of_ne hj]

lemma Bounded.act (h : Bounded s) (hs : Consistent s) (hs' : Consistent (s.act i e t))
    (hreads : (∀ w ∈ t.waiting, w.bucket < t.counter.nextBucket) ∧
      ∃ rs, t.returned = (s.counters i).returned ++ rs ∧ ∀ r ∈ rs, Reads t.counter r) :
    Bounded (s.act i e t) := by
  have hflushed := act_flushed hturn hs
  have hmono : ∀ key, s.hits key + s.replayed key ≤
      (s.act i e t).hits key + (s.act i e t).replayed key := by
    intro key
    have := act_replayed hturn key
    rw [act_hits]
    omega
  have hsynced : ∀ b < t.counter.nextBucket, (t.counter.heap b).syncedCount ≤
      s.flushed ((s.act i e t).keyOf i b) := by
    intro b hb
    rw [act_keyOf_self]
    rcases hturn.synced b hb with ⟨-, hzero⟩ | ⟨hold, hsame⟩ |
      ⟨u, hu, a, ha, hbucket, hsame, -⟩
    · rw [hzero]
      exact Nat.zero_le _
    · rw [hsame, hturn.same b hold]
      exact h.synced i b hold
    · -- the answer was given for an upsert of this key
      rw [hsame, hturn.same b (hbucket ▸ (hs.sound i).ledger.bucket u hu), ← hbucket,
        (hs.keyed i).upserts u hu]
      exact h.answers i u a ha
  constructor
  · intro key row hrow
    rw [act_table] at hrow
    rw [hflushed]
    exact h.table key row hrow
  · intro j u a ha
    rw [act_answers] at ha
    rw [hflushed]
    have hle := h.answers j u a ha
    by_cases hj : j = i
    · have hu := hs.answered i u (hj ▸ ha ▸ Option.some_ne_none a)
      rw [hj] at hle ⊢
      rwa [act_counters_self, hturn.grown.key u hu]
    · rwa [act_counters_of_ne hj]
  · intro j b hb
    rw [hflushed]
    by_cases hj : j = i
    · rw [hj, act_counters_self] at hb ⊢
      exact hsynced b hb
    · rw [act_counters_of_ne hj] at hb ⊢
      rw [act_keyOf_of_ne hj]
      exact h.synced j b hb
  · intro j
    by_cases hj : j = i
    · rw [hj, act_counters_self]
      exact hreads.1
    · rw [act_counters_of_ne hj]
      exact h.waiting j
  · intro j
    by_cases hj : j = i
    · rw [hj, act_counters_self]
      intro r hr
      obtain ⟨rs, hreturned, hnew⟩ := hreads.2
      rw [hreturned] at hr
      rcases List.mem_append.mp hr with hold | hr
      · obtain ⟨hbucket, hle⟩ := h.returned i r hold
        rw [act_keyOf_self, hturn.same _ hbucket]
        exact ⟨hbucket.trans_le hturn.nextBucket, hle.trans (hmono _)⟩
      · -- what the bucket knows was flushed, and what it has pending is unsaved
        obtain ⟨hbucket, hcount⟩ := hnew r hr
        refine ⟨hbucket, ?_⟩
        have hbalance := hs'.conservation ((s.act i e t).keyOf i r.bucket)
        have hpending : ((((s.act i e t).counters i).counter.heap r.bucket).pendingDelta).length ≤ _ :=
          pending_le_unsaved (by rwa [act_counters_self])
        have hle := hsynced r.bucket hbucket
        rw [act_counters_self] at hpending
        rw [hflushed] at hbalance
        omega
    · rw [act_counters_of_ne hj]
      intro r hr
      obtain ⟨hbucket, hle⟩ := h.returned j r hr
      rw [act_keyOf_of_ne hj]
      exact ⟨hbucket, hle.trans (hmono _)⟩

end Act

section Commit

variable {i : ι} {u : ℕ} {now : ℤ}

omit [Fintype ι] in
/-- A new answer is the only change that the counters see. -/
lemma commit_answers_iff {j : ι} {v : ℕ} : (s.commit i u now).answers j v ≠ none ↔
    s.answers j v ≠ none ∨ j = i ∧ v = u := by
  show Function.update s.answers i (Function.update (s.answers i) u _) j v ≠ none ↔ _
  by_cases hj : j = i
  · rw [hj, Function.update_self]
    by_cases hv : v = u
    · rw [hv, Function.update_self]
      simp
    · rw [Function.update_of_ne hv]
      simp [hv]
  · rw [Function.update_of_ne hj]
    simp [hj]

omit [DecidableEq ι] in
/-- A row is written with what it had and the delta, or the delta alone. -/
lemma written_le (h : Bounded s) : (s.written i u now).count ≤
    s.flushed ((s.counters i).counter.upserts u).key +
      ((s.counters i).counter.upserts u).delta.length := by
  unfold written
  dsimp only
  cases hrow : s.table ((s.counters i).counter.upserts u).key with
  | none => exact Nat.le_add_left _ _
  | some row =>
    have hle := h.table _ row hrow
    unfold upsertRow
    dsimp only
    split_ifs
    · exact Nat.le_add_left _ _
    · omega

variable (hu : u < (s.counters i).counter.nextUpsert) (hnone : s.answers i u = none)
include hu

lemma Consistent.commit (h : Consistent s) : Consistent (s.commit i u now) where
  sound := h.sound
  keyed := h.keyed
  resolved j v hv hresolved := commit_answers_iff.mpr (Or.inl (h.resolved j v hv hresolved))
  answered j v hv := by
    rcases commit_answers_iff.mp hv with hold | ⟨rfl, rfl⟩
    · exact h.answered j v hold
    · exact hu
  hits := h.hits

include hnone

lemma commit_flushed (key : String) : (s.commit i u now).flushed key = s.flushed key +
    if ((s.counters i).counter.upserts u).key = key then
      ((s.counters i).counter.upserts u).delta.length else 0 := by
  have hsum := sum_update (f := fun j => (s.counters j).counter.upsertHits key
      fun v => s.answers j v ≠ none)
    (g := fun j => (s.counters j).counter.upsertHits key
      fun v => (s.commit i u now).answers j v ≠ none) i fun j hj => by
        simp only [commit_answers_iff, hj, false_and, or_false]
  have hinsert := upsertHits_insert key hu (p := fun v => s.answers i v ≠ none)
    (q := fun v => (s.commit i u now).answers i v ≠ none) (not_not.mpr hnone)
    fun v => by simp only [commit_answers_iff, true_and]
  show ∑ j, (s.counters j).counter.upsertHits key (fun v => (s.commit i u now).answers j v ≠ none) =
    ∑ j, (s.counters j).counter.upsertHits key (fun v => s.answers j v ≠ none) + _
  omega

omit hu hnone in
lemma commit_replayed (key : String) : s.replayed key ≤ (s.commit i u now).replayed key :=
  Finset.sum_le_sum fun j _ => upsertHits_mono (s.counters j).counter key
    fun _ _ _ hp => ⟨commit_answers_iff.mpr (Or.inl hp.1), hp.2⟩

lemma Bounded.commit (h : Bounded s) : Bounded (s.commit i u now) := by
  have hflushed : ∀ key, (s.commit i u now).flushed key = _ := commit_flushed hu hnone
  have hmono : ∀ key, s.flushed key ≤ (s.commit i u now).flushed key :=
    fun key => (hflushed key).ge.trans' (Nat.le_add_right _ _)
  have hwritten : (s.written i u now).count ≤
      (s.commit i u now).flushed ((s.counters i).counter.upserts u).key := by
    rw [hflushed, if_pos rfl]
    exact written_le h
  constructor
  · intro key row hrow
    by_cases hkey : key = ((s.counters i).counter.upserts u).key
    · have hself : (s.commit i u now).table key = some (s.written i u now) := by
        rw [hkey]
        exact Function.update_self ..
      rw [hself] at hrow
      cases hrow
      rwa [hkey]
    · have hother : (s.commit i u now).table key = s.table key := Function.update_of_ne hkey ..
      rw [hother] at hrow
      exact (h.table key row hrow).trans (hmono key)
  · intro j v a ha
    by_cases hnew : j = i ∧ v = u
    · obtain ⟨rfl, rfl⟩ := hnew
      have hself : (s.commit j v now).answers j v = some (s.written j v now).returning := by
        show Function.update s.answers j (Function.update (s.answers j) v _) j v = _
        rw [Function.update_self, Function.update_self]
      rw [hself] at ha
      cases ha
      exact hwritten
    · have hold : (s.commit i u now).answers j v = s.answers j v := by
        show Function.update s.answers i (Function.update (s.answers i) u _) j v = _
        by_cases hj : j = i
        · rw [hj, Function.update_self, Function.update_of_ne fun hv => hnew ⟨hj, hv⟩]
        · rw [Function.update_of_ne hj]
      rw [hold] at ha
      exact (h.answers j v a ha).trans (hmono _)
  · exact fun j b hb => (h.synced j b hb).trans (hmono _)
  · exact h.waiting
  · intro j r hr
    obtain ⟨hbucket, hle⟩ := h.returned j r hr
    have hreplayed : s.replayed (s.keyOf j r.bucket) ≤
      (s.commit i u now).replayed (s.keyOf j r.bucket) := commit_replayed _
    exact ⟨hbucket, hle.trans (Nat.add_le_add_left hreplayed _)⟩

end Commit

omit [DecidableEq ι] [Fintype ι] in
/-- The cleanup only deletes a row. -/
lemma prune_cases (s : Cluster ι) (key : String) (now : ℤ) : s.prune key now = s ∨
    s.prune key now = { s with table := Function.update s.table key none } := by
  unfold prune
  split_ifs
  · exact Or.inr rfl
  · exact Or.inl rfl

omit [DecidableEq ι] in
lemma Consistent.prune (h : Consistent s) (key : String) (now : ℤ) :
    Consistent (s.prune key now) := by
  rcases prune_cases s key now with heq | heq
  · rwa [heq]
  · rw [heq]
    exact ⟨h.sound, h.keyed, h.resolved, h.answered, h.hits⟩

omit [DecidableEq ι] in
lemma Bounded.prune (h : Bounded s) (key : String) (now : ℤ) : Bounded (s.prune key now) := by
  rcases prune_cases s key now with heq | heq
  · rwa [heq]
  · rw [heq]
    refine ⟨fun k row hrow => ?_, h.answers, h.synced, h.waiting, h.returned⟩
    dsimp only at hrow
    by_cases hk : k = key
    · rw [hk, Function.update_self] at hrow
      cases hrow
    · rw [Function.update_of_ne hk] at hrow
      exact h.table k row hrow

omit [DecidableEq ι] in
lemma consistent_init : Consistent ({} : Cluster ι) where
  sound _ := sound_init
  keyed _ := ⟨fun _ _ hget => absurd hget.symm (Option.some_ne_none _),
    fun _ hu => absurd hu (Nat.not_lt_zero _)⟩
  resolved _ _ hu := absurd hu (Nat.not_lt_zero _)
  answered _ _ h := absurd rfl h
  hits _ := (Finset.sum_eq_zero fun _ _ => rfl).symm

omit [DecidableEq ι] in
lemma bounded_init : Bounded ({} : Cluster ι) where
  table _ _ h := absurd h.symm (Option.some_ne_none _)
  answers _ _ _ h := absurd h.symm (Option.some_ne_none _)
  synced _ _ hb := absurd hb (Nat.not_lt_zero _)
  waiting _ _ hw := absurd hw List.not_mem_nil
  returned _ _ hr := absurd hr List.not_mem_nil

lemma clusterStep_consistent {o : ι → Options} {s' : Cluster ι} {e : ClusterEvent ι}
    (h : Consistent s) (hstep : clusterStep o s e = some s') : Consistent s' := by
  rcases clusterStep_cases hstep with ⟨i, e', t, rfl, hanswered, ht, rfl⟩ |
    ⟨i, u, now, rfl, hu, -, rfl⟩ | ⟨key, now, rfl, rfl⟩
  · have hturn := step_turn ht (h.sound i) (h.keyed i) hanswered
    exact h.act hturn (step_sound ht (h.sound i))
  · exact h.commit hu
  · exact h.prune key now

lemma clusterStep_bounded {o : ι → Options} {s' : Cluster ι} {e : ClusterEvent ι}
    (hs : Consistent s) (h : Bounded s) (hstep : clusterStep o s e = some s') : Bounded s' := by
  have hs' := clusterStep_consistent hs hstep
  rcases clusterStep_cases hstep with ⟨i, e', t, rfl, hanswered, ht, rfl⟩ |
    ⟨i, u, now, rfl, hu, hnone, rfl⟩ | ⟨key, now, rfl, rfl⟩
  · have hturn := step_turn ht (hs.sound i) (hs.keyed i) hanswered
    exact h.act hturn hs hs' (step_reads ht (hs.sound i) hturn.nextBucket (h.waiting i))
  · exact h.commit hu hnone
  · exact h.prune key now

end Cluster

open Cluster

variable {ι : Type} [DecidableEq ι] [Fintype ι]

/-- What every cluster keeps. -/
lemma ClusterReachable.bounded {o : ι → Options} {s : Cluster ι} (h : ClusterReachable o s) :
    Consistent s ∧ Bounded s :=
  EventMachine.Reachable.invariant (I := fun s => Consistent s ∧ Bounded s) h
    ⟨consistent_init, bounded_init⟩ fun _ _ _ hs hstep =>
      ⟨clusterStep_consistent hs.1 hstep, clusterStep_bounded hs.1 hs.2 hstep⟩

/-- However many counters share the table, and whenever their upserts commit, are answered or fail:
a hit never returns a count above the hits that all counters made on its key, apart from those
that were committed although their counter was told otherwise. -/
theorem count_le_hits {o : ι → Options} {s : Cluster ι} (h : ClusterReachable o s) {i : ι}
    {r : Return} (hr : r ∈ (s.counters i).returned) :
    r.count ≤ s.hits (s.keyOf i r.bucket) + s.replayed (s.keyOf i r.bucket) :=
  (h.bounded.2.returned i r hr).2

/-- Two counters; the second one's first upsert commits but is reported as failed. -/
def lostAcknowledgement : List (ClusterEvent Bool) :=
  [.act false (.hit "k" none 10000), .commit false 0 10000000, .act true (.hit "k" none 10001),
    .commit true 0 10001000, .act true (.settle 0 .rejected), .act true (.finish 0),
    .act true (.resumeHit 0), .act false (.settle 0 (.resolved (some (1, 70000)))),
    .act false (.finish 0), .act false (.resumeHit 0), .act true (.hit "k" none 15001),
    .commit true 1 15001000, .act true (.settle 1 (.resolved (some (4, 70000)))),
    .act true (.finish 1), .act true (.resumeHit 0)]

theorem count_le_hits_replayed : ∃ s : Cluster Bool,
    EventMachine.run (clusterStep fun _ => ⟨true⟩) {} lostAcknowledgement = some s ∧
      ⟨0, 1, 4, 70000⟩ ∈ (s.counters true).returned ∧
      4 ≤ s.hits (s.keyOf true 0) + s.replayed (s.keyOf true 0) := by
  have hrun : (EventMachine.run (clusterStep fun _ => ⟨true⟩) {} lostAcknowledgement).map
      (fun s => (s.counters true).returned) = some [⟨0, 0, 1, 70001⟩, ⟨0, 1, 4, 70000⟩] := by
    decide +kernel
  obtain ⟨s, hs, hreturned⟩ := Option.map_eq_some_iff.mp hrun
  have hmem : ⟨0, 1, 4, 70000⟩ ∈ (s.counters true).returned := by simp [hreturned]
  exact ⟨s, hs, hmem, count_le_hits ⟨lostAcknowledgement, hs⟩ hmem⟩

end RateLimitCounter
end FirecrawlGateway
