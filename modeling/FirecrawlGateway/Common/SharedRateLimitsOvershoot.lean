import FirecrawlGateway.Common.SharedRateLimitsWindow

/-!
# How far a limit can be exceeded

Enforcement is approximate: a counter lets a request through by what it knows of the row, and it
learns of the row from its own acknowledged upserts only. Once an acknowledgement shows a row above
the limit the counter lets nothing more through. So what it let through is in upserts that found
the row within the limit, which hold at most the limit in all, or it was not acknowledged yet.
-/

namespace FirecrawlGateway
namespace RateLimitCounter

namespace Counter

variable {key : String} {keyOf : ℕ → String} {answers : ℕ → Option (ℕ × ℤ)}

/-! ## Acknowledged counts -/

/-- The last acknowledged count of a bucket is its largest, and no answer on its way is smaller. -/
structure Latest (key : String) (answers : ℕ → Option (ℕ × ℤ)) (c : Counter) : Prop where
  resolved : ∀ u < c.nextUpsert, (c.upserts u).key = key → (c.upserts u).status = .resolved →
    ∀ a, answers u = some a → a.1 ≤ (c.heap (c.upserts u).bucket).syncedCount
  sent : ∀ u < c.nextUpsert, (c.upserts u).key = key → (c.upserts u).status = .sent →
    ∀ a, answers u = some a → (c.heap (c.upserts u).bucket).syncedCount ≤ a.1

/-- A counter has one upsert of a key in flight. -/
lemma Flights.unique {c : Counter} (h : Flights c) {u v : ℕ} (hu : u < c.nextUpsert)
    (hv : v < c.nextUpsert) (hkey : (c.upserts u).key = (c.upserts v).key)
    (husent : (c.upserts u).status = .sent) (hvsent : (c.upserts v).status = .sent) : u = v := by
  have hflight := h.unfinished u hu (h.sent u hu husent)
  rw [hkey, h.unfinished v hv (h.sent v hv hvsent)] at hflight
  exact (Option.some.inj hflight).symm

lemma Turn.latest {e : Event} {c c' : Counter} (hturn : Turn answers keyOf e c c')
    (h : Latest key answers c) (hledger : Ledger c) (hkeyed : Keyed keyOf c) (hflights : Flights c)
    (hanswered : ∀ u, answers u ≠ none → u < c.nextUpsert) : Latest key answers c' := by
  have hold : ∀ u a, answers u = some a → u < c.nextUpsert :=
    fun u a ha => hanswered u (ha ▸ Option.some_ne_none a)
  have hbucket : ∀ u < c.nextUpsert, (c.upserts u).bucket < c'.nextBucket :=
    fun u hu => (hledger.bucket u hu).trans_le hturn.nextBucket
  -- upserts of one bucket are of one key
  have hsame : ∀ u < c.nextUpsert, ∀ v < c.nextUpsert, (c.upserts u).bucket = (c.upserts v).bucket →
      (c.upserts u).key = (c.upserts v).key := by
    intro u hu v hv huv
    rw [← hkeyed.upserts u hu, ← hkeyed.upserts v hv, huv]
  constructor
  · intro u hu' hkey hresolved a ha
    have hu := hold u a ha
    rw [hturn.grown.key u hu] at hkey
    rw [hturn.grown.bucket u hu]
    rcases (hturn.resolved u hu' hresolved).2 with hbefore | ⟨a', ha', hself⟩
    · have hle := h.resolved u hu hkey hbefore a ha
      rcases hturn.synced _ (hbucket u hu) with ⟨hnew, -⟩ | ⟨-, heq⟩ |
        ⟨v, hv, av, hav, hvu, heq, hvsent, -⟩
      · exact absurd (hledger.bucket u hu) (not_lt.mpr hnew)
      · rwa [heq]
      · -- the bucket learns of a later commit
        have hlater := h.sent v hv (hsame v hv u hu hvu ▸ hkey) hvsent av hav
        rw [hvu] at hlater
        rw [heq]
        exact hle.trans hlater
    · rw [hself, Option.some.inj (ha.symm.trans ha')]
  · intro u hu' hkey hsent a ha
    have hu := hold u a ha
    have hsent' := hturn.grown.sent u hu hsent
    rw [hturn.grown.key u hu] at hkey
    rw [hturn.grown.bucket u hu]
    have hle := h.sent u hu hkey hsent' a ha
    rcases hturn.synced _ (hbucket u hu) with ⟨hnew, -⟩ | ⟨-, heq⟩ |
      ⟨v, hv, av, hav, hvu, heq, hvsent, hvresolved⟩
    · exact absurd (hledger.bucket u hu) (not_lt.mpr hnew)
    · rwa [heq]
    · -- that upsert is no longer in flight
      obtain rfl := hflights.unique hv hu (hsame v hv u hu hvu) hvsent hsent'
      rw [hvresolved] at hsent
      cases hsent

/-! ## Hits and their returns -/

/-- The buckets of the hits that have started. -/
def started (s : System) : List ℕ :=
  s.returned.map Return.bucket ++ s.waiting.map Waiting.bucket

/-- A hit starts once, and returns at once or waits first. -/
lemma step_started {o : Options} {s s' : System} {e : Event} (h : step o s e = some s') :
    (∃ key fixedResetAt now, e = .hit key fixedResetAt now ∧ (started s').Perm
      ((s.counter.currentBucket now key fixedResetAt).2 :: started s)) ∨
    (∀ key fixedResetAt now, e ≠ .hit key fixedResetAt now) ∧ (started s').Perm (started s) := by
  unfold started
  rcases step_section h with ⟨key, fixedResetAt, now, rfl, rfl⟩ | ⟨u, outcome, rfl, -, -, rfl⟩ |
    ⟨hnot, -⟩
  · refine Or.inl ⟨key, fixedResetAt, now, rfl, ?_⟩
    rcases hc : s.counter.currentBucket now key fixedResetAt with ⟨c, ref⟩
    rcases stepHit_cases hc with ⟨-, hreturned, on, hwaiting⟩ | ⟨-, hwaiting, hreturned⟩
    · rw [hreturned, hwaiting, List.map_append, ← List.append_assoc]
      exact List.perm_append_comm
    · rw [hreturned, hwaiting, List.map_append, List.append_assoc]
      exact List.perm_middle
  · exact Or.inr ⟨fun _ _ _ => Event.noConfusion, List.Perm.refl _⟩
  · refine Or.inr ⟨hnot, ?_⟩
    rcases step_returned h with ⟨key, fixedResetAt, now, rfl, -⟩ | ⟨i, w, -, hw, rfl⟩ |
      ⟨hwaiting, hreturned, -⟩
    · exact absurd rfl (hnot key fixedResetAt now)
    · -- the hit moves from the waiting ones to the returned ones
      obtain ⟨hi, rfl⟩ := List.getElem?_eq_some_iff.mp hw
      unfold stepResumeHit
      dsimp only
      rw [List.map_append, List.append_assoc]
      refine List.Perm.append_left _ ?_
      have hperm := (List.getElem_cons_eraseIdx_perm hi).map Waiting.bucket
      rwa [List.map_cons] at hperm
    · rw [hwaiting, hreturned]

/-- What returned or waits was counted. -/
def StartedWithin (key : String) (keyOf : ℕ → String) (s : System) : Prop :=
  (∀ b ∈ started s, b < s.counter.nextBucket) ∧
    (started s).countP (fun b => keyOf b = key) ≤ s.counter.bucketHits keyOf key Bucket.made

lemma Turn.startedWithin {o : Options} {e : Event} {s s' : System}
    (hturn : Turn answers keyOf e s.counter s'.counter) (hstep : step o s e = some s')
    (hplaced : Placed s.counter) (h : StartedWithin key keyOf s) :
    StartedWithin key (s.counter.noteKey keyOf e) s' := by
  have hkeyOf : (started s).countP (fun b => s.counter.noteKey keyOf e b = key) =
      (started s).countP fun b => keyOf b = key :=
    List.countP_congr fun b hb => by rw [hturn.same b (h.1 b hb)]
  unfold StartedWithin
  rw [hturn.made key]
  rcases step_started hstep with ⟨k, fixedResetAt, now, rfl, hperm⟩ | ⟨hnot, hperm⟩
  · constructor
    · intro b hb
      rcases List.mem_cons.mp (hperm.mem_iff.mp hb) with rfl | hb
      · have href := currentBucket_lt hplaced now k fixedResetAt
        cases hstep
        rw [(stepHit_section o s k fixedResetAt now).nextBucket]
        exact href
      · exact (h.1 b hb).trans_le hturn.nextBucket
    · have hself : s.counter.noteKey keyOf (.hit k fixedResetAt now)
          (s.counter.currentBucket now k fixedResetAt).2 = k := Function.update_self ..
      rw [hperm.countP_eq, List.countP_cons, hkeyOf, hself]
      have hcounts : counts key (.hit k fixedResetAt now) = if k = key then 1 else 0 := rfl
      rw [hcounts]
      have := h.2
      split_ifs <;> simp_all
  · constructor
    · intro b hb
      exact (h.1 b (hperm.mem_iff.mp hb)).trans_le hturn.nextBucket
    · rw [hperm.countP_eq, hkeyOf, counts_of_not_hit hnot]
      exact h.2

/-! ## The bucket of a key -/

/-- A bucket is made for a hit. -/
lemma step_used {o : Options} {s s' : System} {e : Event} (h : step o s e = some s')
    (hs : ∀ b < s.counter.nextBucket, 0 < (s.counter.heap b).made) :
    ∀ b < s'.counter.nextBucket, 0 < (s'.counter.heap b).made := by
  intro b hb
  rcases step_section h with ⟨key, fixedResetAt, now, rfl, rfl⟩ | ⟨u, outcome, rfl, -, -, rfl⟩ |
    ⟨-, hsection⟩
  · have hfound := currentBucket_found s.counter now key fixedResetAt
    have hsection := stepHit_section o s key fixedResetAt now
    rw [hsection.nextBucket] at hb
    rw [hsection.made, countHit_made]
    rcases hfound.place with ⟨-, hnext⟩ | ⟨hnew, hnext, -⟩
    · have hold : b < s.counter.nextBucket := hnext ▸ hb
      rw [hfound.made b hold]
      exact Nat.add_pos_left (hs b hold) _
    · by_cases href : b = (s.counter.currentBucket now key fixedResetAt).2
      · rw [if_pos href]
        exact Nat.succ_pos _
      · have hb' : b < (s.counter.currentBucket now key fixedResetAt).1.nextBucket := hb
        have hold : b < s.counter.nextBucket := by omega
        rw [hfound.made b hold]
        exact Nat.add_pos_left (hs b hold) _
  · obtain ⟨-, hnext, -, hmade, -, -⟩ := settleUpsert_keeps s.counter u outcome
    rw [hmade]
    exact hs b (hnext ▸ hb)
  · rw [hsection.made]
    exact hs b (hsection.nextBucket ▸ hb)

/-- A key whose buckets are all in the map has one. -/
lemma bucket_unique {c : Counter} (hplaced : Placed c) (hkeyed : Keyed keyOf c)
    (hused : ∀ b < c.nextBucket, 0 < (c.heap b).made)
    (hkept : ∀ b < c.nextBucket, keyOf b = key → (c.heap b).removed = none) {b b' : ℕ}
    (hb : b < c.nextBucket) (hb' : b' < c.nextBucket) (hkey : keyOf b = key)
    (hkey' : keyOf b' = key) : b = b' := by
  have hget : ∀ i < c.nextBucket, keyOf i = key → c.buckets.get key = some i := by
    intro i hi hik
    rcases hplaced.removed i hi with hmade | ⟨k, hk⟩ | hexpired | hevicted
    · exact absurd hmade (hused i hi).ne'
    · rwa [← hik, hkeyed.current k i hk]
    · rw [hkept i hi hik] at hexpired
      cases hexpired
    · rw [hkept i hi hik] at hevicted
      cases hevicted
  exact Option.some.inj ((hget b hb hkey).symm.trans (hget b' hb' hkey'))

end Counter

open Counter

namespace Cluster

variable {ι : Type}

/-! ## What is let through -/

/-- How many requests on `key` counter `i` has returned with a count within `limit`. -/
def allowed (s : Cluster ι) (key : String) (limit : ℕ) (i : ι) : ℕ :=
  (s.counters i).returned.countP fun r => s.keyOf i r.bucket = key ∧ r.count ≤ limit

/-- The hits on `key` of counter `i` that are in no acknowledged upsert. -/
def unacknowledged (s : Cluster ι) (key : String) (i : ι) : ℕ :=
  (s.counters i).counter.bucketHits (s.keyOf i) key Bucket.kept +
    (s.counters i).counter.upsertHits key fun u => ((s.counters i).counter.upserts u).status = .sent

/-- The hits on `key` of counter `i` in upserts that left the row within `limit`. -/
def flushedWithin (s : Cluster ι) (key : String) (limit : ℕ) (i : ι) : ℕ :=
  (s.counters i).counter.upsertHits key fun u => (s.answers i u).any (·.1 ≤ limit)

/-- No counter has more than `slack i` hits on `key` unacknowledged, and the bucket of the key is
still in its map. -/
def Tight (key : String) (slack : ι → ℕ) (s : Cluster ι) : Prop :=
  ∀ i, s.unacknowledged key i ≤ slack i ∧
    ∀ b < (s.counters i).counter.nextBucket, s.keyOf i b = key →
      ((s.counters i).counter.heap b).removed = none

variable [DecidableEq ι] [Fintype ι] {s : Cluster ι} {key : String} {resetAt : ℤ} {limit : ℕ}
  {slack : ι → ℕ}

/-- What bounds the requests that are let through. -/
structure Metered (key : String) (limit : ℕ) (slack : ι → ℕ) (s : Cluster ι) : Prop where
  flights : ∀ i, Flights (s.counters i).counter
  used : ∀ i, ∀ b < (s.counters i).counter.nextBucket, 0 < ((s.counters i).counter.heap b).made
  latest : ∀ i, Latest key (s.answers i) (s.counters i).counter
  started : ∀ i, StartedWithin key (s.keyOf i) (s.counters i)
  within : ∑ i, s.flushedWithin key limit i ≤ limit
  allowed : ∀ i, s.allowed key limit i ≤ s.flushedWithin key limit i + slack i

omit [DecidableEq ι] in
/-- A counter whose last acknowledged count of the key is within the limit has been told of no row
above it. -/
lemma made_le {i : ι} {b : ℕ} (hs : Consistent s) (hlatest : Latest key (s.answers i)
      (s.counters i).counter)
    (hunique : ∀ b' < (s.counters i).counter.nextBucket, s.keyOf i b' = key → b' = b)
    (hlow : ((s.counters i).counter.heap b).syncedCount ≤ limit) :
    (s.counters i).counter.bucketHits (s.keyOf i) key Bucket.made ≤
      s.flushedWithin key limit i + s.unacknowledged key i := by
  have hmade := bucketHits_made (hs.sound i).ledger (hs.keyed i) key
  have hresolved : ((s.counters i).counter.upsertHits key fun u =>
      ((s.counters i).counter.upserts u).status = .resolved) ≤ s.flushedWithin key limit i := by
    refine upsertHits_mono _ key fun u hu hkey hstatus => ?_
    obtain ⟨a, ha⟩ := Option.ne_none_iff_exists'.mp (hs.resolved i u hu hstatus)
    have hle := hlatest.resolved u hu hkey hstatus a ha
    have hbucket := hunique _ ((hs.sound i).ledger.bucket u hu)
      (((hs.keyed i).upserts u hu).trans hkey)
    rw [hbucket] at hle
    rw [ha]
    exact decide_eq_true (hle.trans hlow)
  unfold unacknowledged
  omega

omit [DecidableEq ι] in
lemma flushedWithin_le (s : Cluster ι) (key : String) (limit : ℕ) :
    ∑ i, s.flushedWithin key limit i ≤ s.flushed key := by
  unfold flushedWithin flushed
  refine Finset.sum_le_sum fun i _ => ?_
  refine upsertHits_mono _ key fun u _ _ hany => ?_
  obtain ⟨a, ha, -⟩ := (Option.any_eq_true _ _).mp hany
  rw [ha]
  exact Option.some_ne_none a

lemma Metered.act {o : ι → Options} {i : ι} {e : Event} {t : System} (h : Metered key limit slack s)
    (hs : Consistent s) (hbounded : Bounded s) (hs' : Consistent (s.act i e t))
    (hanswered : Answered (s.answers i) e) (hstep : step (o i) (s.counters i) e = some t)
    (htight : Tight key slack (s.act i e t)) : Metered key limit slack (s.act i e t) := by
  have hturn := step_turn hstep (hs.sound i) (hs.keyed i) hanswered
  have hflights : Flights t.counter := flights_step (h.flights i) hstep
  have hused := step_used hstep (h.used i)
  have hlatest := hturn.latest (h.latest i) (hs.sound i).ledger (hs.keyed i) (h.flights i)
    (hs.answered i)
  have hstarted := hturn.startedWithin hstep (hs.sound i).placed (h.started i)
  have hwithin : ∀ j, (s.act i e t).flushedWithin key limit j = s.flushedWithin key limit j := by
    intro j
    unfold flushedWithin
    rw [act_answers]
    by_cases hj : j = i
    · rw [hj, act_counters_self]
      refine hturn.grown.upsertHits_eq key (fun _ _ => Iff.rfl) fun u hany => hs.answered i u ?_
      obtain ⟨a, ha, -⟩ := (Option.any_eq_true _ _).mp hany
      rw [ha]
      exact Option.some_ne_none a
    · rw [act_counters_of_ne hj]
  constructor
  · intro j
    by_cases hj : j = i
    · rw [hj, act_counters_self]
      exact hflights
    · rw [act_counters_of_ne hj]
      exact h.flights j
  · intro j
    by_cases hj : j = i
    · rw [hj, act_counters_self]
      exact hused
    · rw [act_counters_of_ne hj]
      exact h.used j
  · intro j
    rw [act_answers]
    by_cases hj : j = i
    · rw [hj, act_counters_self]
      exact hlatest
    · rw [act_counters_of_ne hj]
      exact h.latest j
  · intro j
    by_cases hj : j = i
    · rw [hj, act_counters_self, act_keyOf_self]
      exact hstarted
    · rw [act_counters_of_ne hj, act_keyOf_of_ne hj]
      exact h.started j
  · rw [Finset.sum_congr rfl fun j _ => hwithin j]
    exact h.within
  · intro j
    rw [hwithin]
    by_cases hj : j = i
    · rw [hj]
      obtain ⟨-, rs, hreturned, hreads⟩ := step_reads hstep (hs.sound i) hturn.nextBucket
        (hbounded.waiting i)
      by_cases hnone : ∀ r ∈ rs, ¬ ((s.act i e t).keyOf i r.bucket = key ∧ r.count ≤ limit)
      · -- nothing more was let through
        have hsame : (s.act i e t).allowed key limit i = s.allowed key limit i := by
          have hzero : rs.countP (fun r =>
              (s.act i e t).keyOf i r.bucket = key ∧ r.count ≤ limit) = 0 :=
            List.countP_eq_zero.mpr fun r hr => by simpa using hnone r hr
          unfold Cluster.allowed
          rw [act_counters_self, hreturned, List.countP_append, hzero, add_zero]
          refine List.countP_congr fun r hr => ?_
          rw [act_keyOf_self, hturn.same _ (hbounded.returned i r hr).1]
        rw [hsame]
        exact h.allowed i
      · -- the bucket knows of no row above the limit
        obtain ⟨r, hr, hnot⟩ := not_forall₂.mp hnone
        obtain ⟨hkey, hcount⟩ := not_not.mp hnot
        obtain ⟨hbucket, hread⟩ := hreads r hr
        obtain ⟨hslack, hkept⟩ := htight i
        rw [act_counters_self] at hkept
        have hkeyed' := hs'.keyed i
        rw [act_counters_self] at hkeyed'
        have hmade : ((s.act i e t).counters i).counter.bucketHits ((s.act i e t).keyOf i) key
            Bucket.made ≤ (s.act i e t).flushedWithin key limit i +
              (s.act i e t).unacknowledged key i := made_le (b := r.bucket) hs'
          (by rw [act_answers, act_counters_self]; exact hlatest)
          (fun b' hb' hkey' => by
            rw [act_counters_self] at hb'
            exact bucket_unique (step_sound hstep (hs.sound i)).placed hkeyed' hused hkept hb'
              hbucket hkey' hkey)
          (by rw [act_counters_self]; omega)
        have hallowed : (s.act i e t).allowed key limit i ≤
            ((s.act i e t).counters i).counter.bucketHits ((s.act i e t).keyOf i) key Bucket.made := by
          rw [act_counters_self, act_keyOf_self]
          refine le_trans ?_ hstarted.2
          unfold Cluster.allowed Counter.started
          rw [act_counters_self, act_keyOf_self, List.countP_append, List.countP_map]
          refine le_trans (List.countP_mono_left fun r _ h => ?_) (Nat.le_add_right _ _)
          simp only [decide_eq_true_eq, Function.comp_apply] at h ⊢
          exact h.1
        rw [hwithin] at hmade
        omega
    · have hsame : (s.act i e t).allowed key limit j = s.allowed key limit j := by
        unfold Cluster.allowed
        rw [act_counters_of_ne hj, act_keyOf_of_ne hj]
      rw [hsame]
      exact h.allowed j

lemma Metered.commit {i : ι} {u : ℕ} {now : ℤ} (h : Metered key limit slack s)
    (hs : Consistent s) (hbounded : Bounded s) (hexact : Exact key resetAt (s.commit i u now))
    (hu : u < (s.counters i).counter.nextUpsert) (hnone : s.answers i u = none) :
    Metered key limit slack (s.commit i u now) := by
  have hself : (s.commit i u now).answers i u = some (s.written i u now).returning := by
    show Function.update s.answers i (Function.update (s.answers i) u _) i u = _
    rw [Function.update_self, Function.update_self]
  have hother : ∀ j v, ¬ (j = i ∧ v = u) → (s.commit i u now).answers j v = s.answers j v := by
    intro j v hne
    show Function.update s.answers i (Function.update (s.answers i) u _) j v = _
    by_cases hj : j = i
    · rw [hj, Function.update_self, Function.update_of_ne fun hv => hne ⟨hj, hv⟩]
    · rw [Function.update_of_ne hj]
  have hflushed : (s.commit i u now).flushed key = _ := commit_flushed hu hnone key
  -- what an upsert of the key writes is what was flushed
  have hwritten : ((s.counters i).counter.upserts u).key = key →
      (s.written i u now).count = (s.commit i u now).flushed key := by
    intro hkey
    refine (hexact.row _ ?_).2
    rw [← hkey]
    exact Function.update_self ..
  have hmono : ∀ j, s.flushedWithin key limit j ≤ (s.commit i u now).flushedWithin key limit j := by
    intro j
    refine upsertHits_mono _ key fun v hv _ hany => ?_
    rw [hother j v]
    · exact hany
    · rintro ⟨rfl, rfl⟩
      rw [hnone] at hany
      cases hany
  constructor
  · exact h.flights
  · exact h.used
  · intro j
    refine ⟨fun v hv hkey hresolved a ha => ?_, fun v hv hkey hsent a ha => ?_⟩
    · rw [hother j v] at ha
      · exact (h.latest j).resolved v hv hkey hresolved a ha
      · rintro ⟨rfl, rfl⟩
        exact hs.resolved j v hv hresolved hnone
    · by_cases hnew : j = i ∧ v = u
      · obtain ⟨rfl, rfl⟩ := hnew
        obtain rfl := Option.some.inj (hself.symm.trans ha)
        have hkey' : ((s.counters j).counter.upserts v).key = key := hkey
        have hle := hbounded.synced j _ ((hs.sound j).ledger.bucket v hv)
        rw [(hs.keyed j).upserts v hv, hkey'] at hle
        have hcount := hwritten hkey'
        show _ ≤ (s.written j v now).count
        refine hle.trans ?_
        omega
      · rw [hother j v hnew] at ha
        exact (h.latest j).sent v hv hkey hsent a ha
  · exact h.started
  · by_cases hcounts : ((s.counters i).counter.upserts u).key = key ∧
        (s.written i u now).count ≤ limit
    · have hle := flushedWithin_le (s.commit i u now) key limit
      have hcount := hwritten hcounts.1
      omega
    · -- the upsert is of another key, or found the row above the limit
      refine le_trans (Finset.sum_le_sum fun j _ => ?_) h.within
      refine upsertHits_mono _ key fun v hv hkey hany => ?_
      by_cases hnew : j = i ∧ v = u
      · obtain ⟨rfl, rfl⟩ := hnew
        rw [hself] at hany
        exact absurd ⟨hkey, of_decide_eq_true hany⟩ hcounts
      · rwa [hother j v hnew] at hany
  · exact fun j => (h.allowed j).trans (Nat.add_le_add_right (hmono j) _)

omit [DecidableEq ι] in
lemma Metered.prune (h : Metered key limit slack s) (k : String) (now : ℤ) :
    Metered key limit slack (s.prune k now) := by
  rcases prune_cases s k now with heq | heq
  · rwa [heq]
  · rw [heq]
    exact ⟨h.flights, h.used, h.latest, h.started, h.within, h.allowed⟩

omit [DecidableEq ι] in
lemma metered_init : Metered key limit slack ({} : Cluster ι) where
  flights _ := flights_init
  used _ _ hb := absurd hb (Nat.not_lt_zero _)
  latest _ := ⟨fun _ hu => absurd hu (Nat.not_lt_zero _), fun _ hu => absurd hu (Nat.not_lt_zero _)⟩
  started _ := ⟨fun _ hb => absurd hb List.not_mem_nil, Nat.zero_le _⟩
  within := (Finset.sum_eq_zero fun _ _ => rfl).le.trans (Nat.zero_le _)
  allowed _ := Nat.zero_le _

/-- An event of the window of `key` after which no counter has more unacknowledged than its
slack. -/
def Steady (o : ι → Options) (key : String) (resetAt : ℤ) (slack : ι → ℕ) (s : Cluster ι)
    (e : ClusterEvent ι) : Prop :=
  WithinWindow key resetAt s e ∧ ∀ s' ∈ clusterStep o s e, Tight key slack s'

instance (key : String) (slack : ι → ℕ) (s : Cluster ι) : Decidable (Tight key slack s) :=
  inferInstanceAs (Decidable (∀ i, s.unacknowledged key i ≤ slack i ∧
    ∀ b < (s.counters i).counter.nextBucket, s.keyOf i b = key →
      ((s.counters i).counter.heap b).removed = none))

instance (o : ι → Options) (key : String) (resetAt : ℤ) (slack : ι → ℕ) (s : Cluster ι)
    (e : ClusterEvent ι) : Decidable (Steady o key resetAt slack s e) :=
  inferInstanceAs (Decidable (_ ∧ ∀ s' ∈ clusterStep o s e, Tight key slack s'))

lemma clusterStep_metered {o : ι → Options} {s' : Cluster ι} {e : ClusterEvent ι}
    (hs : Consistent s) (hbounded : Bounded s) (hexact : Exact key resetAt s)
    (h : Metered key limit slack s) (hsteady : Steady o key resetAt slack s e)
    (hstep : clusterStep o s e = some s') : Metered key limit slack s' := by
  have htight := hsteady.2 s' hstep
  have hexact' := clusterStep_exact hs hexact hsteady.1 hstep
  have hs' := clusterStep_consistent hs hstep
  rcases clusterStep_cases hstep with ⟨i, e', t, rfl, hanswered, ht, rfl⟩ |
    ⟨i, u, now, rfl, hu, hnone, rfl⟩ | ⟨k, now, rfl, rfl⟩
  · exact h.act hs hbounded hs' hanswered ht htight
  · exact h.commit hs hbounded hexact' hu hnone
  · exact h.prune k now

end Cluster

open Cluster

variable {ι : Type} [DecidableEq ι] [Fintype ι]

/-- Within one window all counters together let through at most `limit` requests on a key, and
beyond these what each of them can have unacknowledged. -/
theorem allowed_le {o : ι → Options} {key : String} {resetAt : ℤ} {limit : ℕ} {slack : ι → ℕ}
    {es : List (ClusterEvent ι)} {s : Cluster ι}
    (hsteady : EventMachine.Along (clusterStep o) (Steady o key resetAt slack) {} es)
    (hrun : EventMachine.run (clusterStep o) {} es = some s) :
    ∑ i, s.allowed key limit i ≤ limit + ∑ i, slack i := by
  have h : (Consistent s ∧ Bounded s) ∧ Exact key resetAt s ∧ Metered key limit slack s :=
    EventMachine.run_invariant_along
      (I := fun s => (Consistent s ∧ Bounded s) ∧ Exact key resetAt s ∧ Metered key limit slack s)
      (fun _ _ _ hs hw hstep =>
        ⟨⟨clusterStep_consistent hs.1.1 hstep, clusterStep_bounded hs.1.1 hs.1.2 hstep⟩,
          clusterStep_exact hs.1.1 hs.2.1 hw.1 hstep,
          clusterStep_metered hs.1.1 hs.1.2 hs.2.1 hs.2.2 hw hstep⟩)
      ⟨⟨consistent_init, bounded_init⟩, exact_init, metered_init⟩ hsteady hrun
  calc ∑ i, s.allowed key limit i
      ≤ ∑ i, (s.flushedWithin key limit i + slack i) :=
        Finset.sum_le_sum fun i _ => h.2.2.allowed i
    _ = ∑ i, s.flushedWithin key limit i + ∑ i, slack i := Finset.sum_add_distrib
    _ ≤ limit + ∑ i, slack i := Nat.add_le_add_right h.2.2.within _

/-- Two counters let five requests through under a limit of three. -/
theorem allowed_le_shared : ∃ s : Cluster Bool,
    EventMachine.run (clusterStep fun _ => ⟨true⟩) {} sharedUsage = some s ∧
      s.allowed "k" 3 false = 3 ∧ s.allowed "k" 3 true = 2 ∧
      ∑ i, s.allowed "k" 3 i ≤ 3 + ∑ i, (fun i : Bool => if i then 1 else 2) i := by
  have hrun : (EventMachine.run (clusterStep fun _ => ⟨true⟩) {} sharedUsage).map
      (fun s => (s.allowed "k" 3 false, s.allowed "k" 3 true)) = some (3, 2) := by decide +kernel
  obtain ⟨s, hs, hallowed⟩ := Option.map_eq_some_iff.mp hrun
  have hsteady : EventMachine.Along (clusterStep fun _ => ⟨true⟩)
      (Steady (fun _ => ⟨true⟩) "k" 100000 fun i : Bool => if i then 1 else 2) {}
      sharedUsage := by decide +kernel
  exact ⟨s, hs, congrArg Prod.fst hallowed, congrArg Prod.snd hallowed, allowed_le hsteady hs⟩

end RateLimitCounter
end FirecrawlGateway
