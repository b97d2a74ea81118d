import FirecrawlGateway.Common.SharedRateLimitsTheorems

/-!
# A key within its window

The key of a monthly quota carries its month, so all its hits pin the same end of the window. Until
the database's clock reaches that end, the row of the key is never started again and never deleted,
and it holds exactly what was flushed.
-/

namespace FirecrawlGateway
namespace RateLimitCounter

namespace Counter

/-- The buckets and upserts of `key` are pinned to `resetAt`. -/
structure Pinned (key : String) (resetAt : ℤ) (keyOf : ℕ → String) (c : Counter) : Prop where
  buckets : ∀ b < c.nextBucket, keyOf b = key → (c.heap b).fixedResetAt = some resetAt
  upserts : ∀ u < c.nextUpsert, (c.upserts u).key = key →
    (c.upserts u).fixedResetAt = some resetAt

variable {key : String} {resetAt : ℤ} {keyOf : ℕ → String}

lemma Pinned.section {c c' : Counter} {given : String → Option ℤ → Prop}
    (h : Pinned key resetAt keyOf c) (hkeyed : Keyed keyOf c) (hplaced : Placed c)
    (hgiven : ∀ f, given key f → f = some resetAt) (hsection : Section given c c') :
    Pinned key resetAt keyOf c' where
  buckets b hb hkey := by
    rw [hsection.nextBucket] at hb
    rw [hsection.fixedResetAt]
    exact h.buckets b hb hkey
  upserts u hu hkey := by
    by_cases hold : u < c.nextUpsert
    · rw [hsection.upserts u hold] at hkey ⊢
      exact h.upserts u hold hkey
    · obtain ⟨-, hget, hpinned⟩ := hsection.sent u (not_lt.mp hold) hu
      rw [hkey] at hget hpinned
      rcases hpinned with hbucket | hgiven'
      · -- sent for a bucket of the key
        rw [hbucket]
        exact h.buckets _ (hplaced.current key _ hget) (hkeyed.current key _ hget)
      · exact hgiven _ hgiven'

lemma settleUpsert_fixedResetAt (c : Counter) (u : ℕ) (outcome : Outcome) (b : ℕ) :
    ((c.settleUpsert u outcome).heap b).fixedResetAt = (c.heap b).fixedResetAt := by
  rcases settleUpsert_cases c u outcome with ⟨-, heq⟩ | ⟨-, heq⟩ | ⟨count, resetAt, -, heq⟩
  · rw [heq]
    exact modify_heap Bucket.fixedResetAt rfl b
  · rw [heq]
    rfl
  · rw [heq]
    exact modify_heap Bucket.fixedResetAt rfl b

/-- The hits on a key pin one end of the window. -/
def PinsTo (key : String) (resetAt : ℤ) : Event → Prop
  | .hit k fixedResetAt _ => k = key → fixedResetAt = some resetAt
  | _ => True

instance (key : String) (resetAt : ℤ) : (e : Event) → Decidable (PinsTo key resetAt e)
  | .hit k fixedResetAt _ => inferInstanceAs (Decidable (k = key → fixedResetAt = some resetAt))
  | .resumeHit _ => isTrue trivial
  | .settle .. => isTrue trivial
  | .finish _ => isTrue trivial
  | .fire .. => isTrue trivial
  | .resumeTimer .. => isTrue trivial
  | .drain => isTrue trivial
  | .resumeDrain .. => isTrue trivial

lemma Pinned.found {c c' : Counter} {k : String} {given : Option ℤ} {ref : ℕ}
    (h : Pinned key resetAt keyOf c) (hkeyed : Keyed keyOf c) (hpins : k = key → given = some resetAt)
    (hfound : Found k given c c' ref) :
    Pinned key resetAt (Function.update keyOf ref k) (c'.countHit ref) where
  buckets b hb hkey := by
    have hcount : ((c'.countHit ref).heap b).fixedResetAt = (c'.heap b).fixedResetAt :=
      modify_heap Bucket.fixedResetAt rfl b
    rw [hcount]
    by_cases hold : b < c.nextBucket
    · rw [hfound.fixedResetAt b hold]
      refine h.buckets b hold ?_
      by_cases href : b = ref
      · rcases hfound.place with ⟨hget, -⟩ | ⟨hnew, -⟩
        · rw [href, Function.update_self] at hkey
          rw [href, hkeyed.current k ref hget, hkey]
        · omega
      · rwa [Function.update_of_ne href] at hkey
    · have hb' : b < c'.nextBucket := hb
      rcases hfound.place with ⟨-, hnext⟩ | ⟨hnew, hnext, -, -, hfixed⟩
      · omega
      · obtain rfl : b = ref := by omega
        rw [Function.update_self] at hkey
        rw [hfixed, hpins hkey]
  upserts u hu hkey := by
    have hupserts : (c'.countHit ref).upserts = c.upserts := hfound.upserts
    rw [hupserts] at hkey ⊢
    exact h.upserts u (hfound.nextUpsert ▸ hu) hkey

lemma step_pinned {o : Options} {s s' : System} {e : Event} (h : Pinned key resetAt keyOf s.counter)
    (hs : Sound s.counter) (hkeyed : Keyed keyOf s.counter) (hpins : PinsTo key resetAt e)
    (hstep : step o s e = some s') :
    Pinned key resetAt (s.counter.noteKey keyOf e) s'.counter := by
  rcases step_section hstep with ⟨k, fixedResetAt, now, rfl, rfl⟩ |
    ⟨u, outcome, rfl, hu, hsent, rfl⟩ | ⟨hnot, hsection⟩
  · have hfound := currentBucket_found s.counter now k fixedResetAt
    have hsection := stepHit_section o s k fixedResetAt now
    have hcounted := h.found hkeyed hpins hfound
    have hkeyed' := hkeyed.found hs.ledger hs.placed hfound
    have hchanges : Changes (fun _ => False) s.counter
        (s.counter.currentBucket now k fixedResetAt).1 :=
      currentBucket_changes s.counter now k fixedResetAt
    refine hcounted.section ⟨hkeyed'.current, hkeyed'.upserts⟩
      ((hchanges.placed hs.placed).countHit hfound.get) (fun f hf => ?_) hsection
    rw [hf.2, hpins hf.1.symm]
  · have hgrown := settleUpsert_grown hsent outcome
    obtain ⟨-, hnextBucket, hnext, -, -, -⟩ := settleUpsert_keeps s.counter u outcome
    constructor
    · intro b hb hkey
      rw [settleUpsert_fixedResetAt]
      exact h.buckets b (hnextBucket ▸ hb) hkey
    · intro i hi hkey
      rw [hnext] at hi
      rw [hgrown.key i hi] at hkey
      rw [hgrown.pinned i hi]
      exact h.upserts i hi hkey
  · rw [noteKey_of_not_hit hnot]
    exact h.section hkeyed hs.placed (fun _ hf => hf.elim) hsection

end Counter

open Counter

namespace Cluster

variable {ι : Type} {key : String} {resetAt : ℤ}

/-- What an event of the window of `key` may be: hits pin its end, no upsert commits after it, and
the cleanup comes no later. -/
def WithinWindow (key : String) (resetAt : ℤ) (s : Cluster ι) : ClusterEvent ι → Prop
  | .act _ e => PinsTo key resetAt e
  | .commit i u now => ((s.counters i).counter.upserts u).key = key → now < 1000 * resetAt
  | .prune k now => k = key → now ≤ 1000 * resetAt

instance (key : String) (resetAt : ℤ) (s : Cluster ι) :
    (e : ClusterEvent ι) → Decidable (WithinWindow key resetAt s e)
  | .act _ e => inferInstanceAs (Decidable (PinsTo key resetAt e))
  | .commit _ _ _ => inferInstanceAs (Decidable (_ = key → _))
  | .prune k now => inferInstanceAs (Decidable (k = key → now ≤ 1000 * resetAt))

variable [DecidableEq ι] [Fintype ι] {s : Cluster ι}

/-- The row of a key holds what was flushed, and the window is the one the hits pin. -/
structure Exact (key : String) (resetAt : ℤ) (s : Cluster ι) : Prop where
  pinned : ∀ i, Pinned key resetAt (s.keyOf i) (s.counters i).counter
  absent : s.table key = none → s.flushed key = 0
  row : ∀ row, s.table key = some row → row.resetAt = 1000 * resetAt ∧ row.count = s.flushed key

omit [DecidableEq ι] in
lemma exact_init : Exact key resetAt ({} : Cluster ι) where
  pinned _ := ⟨fun _ hb => absurd hb (Nat.not_lt_zero _), fun _ hu => absurd hu (Nat.not_lt_zero _)⟩
  absent _ := Finset.sum_eq_zero fun _ _ => rfl
  row _ h := absurd h.symm (Option.some_ne_none _)

lemma clusterStep_exact {o : ι → Options} {s' : Cluster ι} {e : ClusterEvent ι}
    (hs : Consistent s) (h : Exact key resetAt s) (hwindow : WithinWindow key resetAt s e)
    (hstep : clusterStep o s e = some s') : Exact key resetAt s' := by
  rcases clusterStep_cases hstep with ⟨i, e', t, rfl, hanswered, ht, rfl⟩ |
    ⟨i, u, now, rfl, hu, hnone, rfl⟩ | ⟨k, now, rfl, rfl⟩
  · have hturn := step_turn ht (hs.sound i) (hs.keyed i) hanswered
    refine ⟨fun j => ?_, ?_, ?_⟩
    · by_cases hj : j = i
      · rw [hj, act_counters_self, act_keyOf_self]
        exact step_pinned (h.pinned i) (hs.sound i) (hs.keyed i) hwindow ht
      · rw [act_counters_of_ne hj, act_keyOf_of_ne hj]
        exact h.pinned j
    · rw [act_table, act_flushed hturn hs]
      exact h.absent
    · rw [act_table, act_flushed hturn hs]
      exact h.row
  · have hflushed : (s.commit i u now).flushed key = _ := commit_flushed hu hnone key
    by_cases hkey : ((s.counters i).counter.upserts u).key = key
    · -- the row of the key, which has not reached the end of its window
      have hself : (s.commit i u now).table key = some (s.written i u now) := by
        rw [← hkey]
        exact Function.update_self ..
      have hbefore := hwindow hkey
      have hpinned := (h.pinned i).upserts u hu hkey
      have hwritten : (s.written i u now).resetAt = 1000 * resetAt ∧
          (s.written i u now).count = s.flushed key +
            ((s.counters i).counter.upserts u).delta.length := by
        unfold written
        dsimp only
        rw [hkey, hpinned]
        cases hrow : s.table key with
        | none =>
          rw [h.absent hrow, zero_add]
          exact ⟨rfl, rfl⟩
        | some row =>
          obtain ⟨hreset, hcount⟩ := h.row row hrow
          unfold upsertRow
          dsimp only
          rw [hreset, if_neg (not_le.mpr hbefore), if_neg (not_le.mpr hbefore), hcount]
          exact ⟨rfl, rfl⟩
      refine ⟨h.pinned, fun hnone' => absurd (hself.symm.trans hnone') (Option.some_ne_none _), ?_⟩
      intro row hrow
      obtain rfl := Option.some.inj (hself.symm.trans hrow)
      rw [hflushed, if_pos hkey]
      exact hwritten
    · have hother : (s.commit i u now).table key = s.table key :=
        Function.update_of_ne (Ne.symm hkey) ..
      rw [if_neg hkey, add_zero] at hflushed
      refine ⟨h.pinned, ?_, ?_⟩
      · rw [hother, hflushed]
        exact h.absent
      · rw [hother, hflushed]
        exact h.row
  · unfold prune
    split_ifs with hexpired
    · have hne : key ≠ k := by
        rintro rfl
        -- the row of the key has not expired
        obtain ⟨row, hrow, hlt⟩ := (Option.any_eq_true _ _).mp hexpired
        have hreset := (h.row row hrow).1
        have hbefore := hwindow rfl
        have hexpired' := of_decide_eq_true hlt
        omega
      have hother : Function.update s.table k none key = s.table key := Function.update_of_ne hne ..
      refine ⟨h.pinned, ?_, ?_⟩
      · dsimp only
        rw [hother]
        exact h.absent
      · dsimp only
        rw [hother]
        exact h.row
    · exact h

end Cluster

open Cluster

variable {ι : Type} [DecidableEq ι] [Fintype ι]

/-- Within the window of a key no request is forgotten and none counts twice but the replayed ones:
the row and the unsaved hits are all hits that were made. -/
theorem window_conservation {o : ι → Options} {key : String} {resetAt : ℤ}
    {es : List (ClusterEvent ι)} {s : Cluster ι}
    (hwindow : EventMachine.Along (clusterStep o) (WithinWindow key resetAt) {} es)
    (hrun : EventMachine.run (clusterStep o) {} es = some s) :
    (s.table key).elim 0 Row.count + s.unsaved key = s.hits key + s.replayed key := by
  have h : Consistent s ∧ Exact key resetAt s :=
    EventMachine.run_invariant_along (I := fun s => Consistent s ∧ Exact key resetAt s)
      (fun _ _ _ hs hw hstep =>
        ⟨clusterStep_consistent hs.1 hstep, clusterStep_exact hs.1 hs.2 hw hstep⟩)
      ⟨consistent_init, exact_init⟩ hwindow hrun
  rw [h.1.conservation key]
  cases hrow : s.table key with
  | none => rw [h.2.absent hrow, Option.elim_none]
  | some row => rw [← (h.2.row row hrow).2, Option.elim_some]

/-- Two counters of one key: each learns of the row once, and counts on from there. -/
def sharedUsage : List (ClusterEvent Bool) :=
  [.act false (.hit "k" (some 100000) 10000), .act true (.hit "k" (some 100000) 10000),
    .commit false 0 10000000, .commit true 0 10000001,
    .act false (.settle 0 (.resolved (some (1, 100000)))), .act false (.finish 0),
    .act false (.resumeHit 0), .act true (.settle 0 (.resolved (some (2, 100000)))),
    .act true (.finish 0), .act true (.resumeHit 0),
    .act false (.hit "k" (some 100000) 11000), .act false (.hit "k" (some 100000) 12000),
    .act true (.hit "k" (some 100000) 12000)]

theorem window_conservation_shared : ∃ s : Cluster Bool,
    EventMachine.run (clusterStep fun _ => ⟨true⟩) {} sharedUsage = some s ∧
      (s.table "k").elim 0 Row.count + s.unsaved "k" = s.hits "k" + s.replayed "k" := by
  obtain ⟨s, hs⟩ := Option.isSome_iff_exists.mp (show (EventMachine.run
    (clusterStep fun _ => ⟨true⟩) {} sharedUsage).isSome = true by decide +kernel)
  have hwindow : EventMachine.Along (clusterStep fun _ => ⟨true⟩) (WithinWindow "k" 100000) {}
    sharedUsage := by decide +kernel
  exact ⟨s, hs, window_conservation hwindow hs⟩

end RateLimitCounter
end FirecrawlGateway
