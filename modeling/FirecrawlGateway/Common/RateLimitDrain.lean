import FirecrawlGateway.Common.RateLimitIdleFlushTheorems

/-!
# The passes of a drain

While a counter drains and no hit starts, only the drain sends upserts. A pass waits until nothing
is in flight, so that each of its flushes sends one: what is pending after `q` passes was rejected
`q` times.
-/

namespace FirecrawlGateway
namespace RateLimitCounter

namespace Counter

/-! ## What is in flight -/

/-- The upserts in flight are those that are not finished, by their keys. -/
structure Flights (c : Counter) : Prop where
  flight : ∀ key u, c.flushInFlight.get key = some u →
    u < c.nextUpsert ∧ (c.upserts u).key = key ∧ (c.upserts u).finished = false
  unfinished : ∀ u < c.nextUpsert, (c.upserts u).finished = false →
    c.flushInFlight.get (c.upserts u).key = some u
  sent : ∀ u < c.nextUpsert, (c.upserts u).status = .sent → (c.upserts u).finished = false

lemma flights_init : Flights {} where
  flight _ _ hget := absurd hget.symm (Option.some_ne_none _)
  unfinished _ hu := absurd hu (Nat.not_lt_zero _)
  sent _ hu := absurd hu (Nat.not_lt_zero _)

lemma Flights.congr {c c' : Counter} (h : Flights c) (hflight : c'.flushInFlight = c.flushInFlight)
    (hnext : c'.nextUpsert = c.nextUpsert) (hupserts : c'.upserts = c.upserts) : Flights c' := by
  constructor
  · rw [hflight, hnext, hupserts]
    exact h.flight
  · rw [hflight, hnext, hupserts]
    exact h.unfinished
  · rw [hnext, hupserts]
    exact h.sent

/-- An upsert is sent for a key that has none in flight. -/
lemma Flights.send {c : Counter} (h : Flights c) {now : ℤ} {key : String} {ref : ℕ}
    {fixedResetAt : Option ℤ} (hnone : c.flushInFlight.get key = none) :
    Flights (c.send now key ref fixedResetAt) := by
  have hself : (c.send now key ref fixedResetAt).upserts c.nextUpsert =
      { key := key, bucket := ref, delta := (c.heap ref).pendingDelta,
        fixedResetAt := fixedResetAt } := Function.update_self ..
  have hold : ∀ u < c.nextUpsert,
      (c.send now key ref fixedResetAt).upserts u = c.upserts u := fun u hu =>
    Function.update_of_ne hu.ne _ _
  have hnew : (c.send now key ref fixedResetAt).flushInFlight.get key = some c.nextUpsert :=
    JsMap.get_set_self ..
  have hother : ∀ k ≠ key, (c.send now key ref fixedResetAt).flushInFlight.get k =
      c.flushInFlight.get k := fun k hk => JsMap.get_set_of_ne hk _
  have hlt : ∀ u < (c.send now key ref fixedResetAt).nextUpsert,
      u = c.nextUpsert ∨ u < c.nextUpsert := fun u hu => (Nat.lt_succ_iff_lt_or_eq.mp hu).symm
  constructor
  · intro k u hget
    by_cases hk : k = key
    · rw [hk, hnew] at hget
      cases hget
      rw [hself]
      exact ⟨Nat.lt_succ_self _, hk.symm, rfl⟩
    · rw [hother k hk] at hget
      obtain ⟨hu, hkey, hfinished⟩ := h.flight k u hget
      rw [hold u hu]
      exact ⟨hu.trans (Nat.lt_succ_self _), hkey, hfinished⟩
  · intro u hu hfinished
    rcases hlt u hu with rfl | hu
    · rw [hself]
      exact hnew
    · rw [hold u hu] at hfinished ⊢
      have hget := h.unfinished u hu hfinished
      rw [hother _ fun hk => ?_]
      · exact hget
      · -- that key had none in flight
        rw [hk, hnone] at hget
        cases hget
  · intro u hu hsent
    rcases hlt u hu with rfl | hu
    · rw [hself]
    · rw [hold u hu] at hsent ⊢
      exact h.sent u hu hsent

lemma Flights.flushBucket {c : Counter} (h : Flights c) (now : ℤ) (key : String) (ref : ℕ)
    (fixedResetAt : Option ℤ) : Flights (c.flushBucket now key ref fixedResetAt).1 := by
  rcases flushBucket_spec c now key ref fixedResetAt with
    ⟨u, -, heq⟩ | ⟨-, heq⟩ | ⟨hnone, -, heq⟩
  · rw [heq]
    exact h
  · rw [heq]
    exact h.congr rfl rfl rfl
  · rw [heq]
    exact h.send hnone

lemma Flights.flushIfCurrent {c : Counter} (h : Flights c) (now : ℤ) (key : String) (ref : ℕ) :
    Flights (c.flushIfCurrent now key ref).1 := by
  unfold Counter.flushIfCurrent
  split_ifs
  · exact h.congr rfl rfl rfl
  · exact h.flushBucket now key ref _

lemma Flights.flushAll {c : Counter} (h : Flights c) (now : ℤ) (pending : List (String × ℕ)) :
    Flights (flushAll now c pending).1 := by
  induction pending generalizing c with
  | nil => exact h
  | cons e pending ih => exact ih (h.flushIfCurrent now e.1 e.2)

lemma Flights.scheduleFlush {c : Counter} (h : Flights c) (key : String) (ref : ℕ) :
    Flights (c.scheduleFlush key ref) := by
  unfold Counter.scheduleFlush
  split_ifs
  · exact h
  · exact h.congr rfl rfl rfl

lemma Flights.finishHit {c : Counter} (h : Flights c) (o : Options) (key : String) (ref : ℕ) :
    Flights (finishHit o c key ref).1 := by
  unfold Counter.finishHit
  dsimp only
  split_ifs
  · exact h.scheduleFlush key ref
  · exact h

/-- An answered upsert stays in flight until its handlers have run. -/
lemma Flights.settleUpsert {c : Counter} (h : Flights c) {u : ℕ} (outcome : Outcome) :
    Flights (c.settleUpsert u outcome) := by
  obtain ⟨status, bucket, hstatus, heq⟩ := settleUpsert_eq c u outcome
  rw [heq]
  have hfinished := fun i => update_upserts (c := c) (u := u)
    (x := { c.upserts u with status := status }) Upsert.finished rfl i
  have hkey := fun i => update_upserts (c := c) (u := u)
    (x := { c.upserts u with status := status }) Upsert.key rfl i
  constructor
  · intro k i hget
    dsimp only at hget ⊢
    rw [hfinished, hkey]
    exact h.flight k i hget
  · intro i hi hunfinished
    dsimp only at hunfinished ⊢
    rw [hfinished] at hunfinished
    rw [hkey]
    exact h.unfinished i hi hunfinished
  · intro i hi hsent
    dsimp only at hsent ⊢
    rw [hfinished]
    by_cases hiu : i = u
    · rw [hiu, Function.update_self] at hsent
      exact absurd hsent hstatus
    · rw [Function.update_of_ne hiu] at hsent
      exact h.sent i hi hsent

lemma Flights.finishUpsert {c : Counter} (h : Flights c) {u : ℕ}
    (hstatus : (c.upserts u).status ≠ .sent) : Flights (c.finishUpsert u) := by
  have hget : ∀ k i, (c.finishUpsert u).flushInFlight.get k = some i →
      c.flushInFlight.get k = some i ∧ (i = u → k ≠ (c.upserts u).key) :=
    fun _ _ => finishUpsert_get
  have hkept : ∀ i ≠ u, c.flushInFlight.get (c.upserts i).key = some i →
      (c.finishUpsert u).flushInFlight.get (c.upserts i).key = some i := by
    intro i hi hflight
    unfold Counter.finishUpsert
    dsimp only
    split_ifs with hcurrent
    · refine (JsMap.get_delete_of_ne fun hk => hi ?_).trans hflight
      rw [hk, hcurrent] at hflight
      exact (Option.some.inj hflight).symm
    · exact hflight
  obtain ⟨flights, heq⟩ := finishUpsert_eq c u
  rw [heq] at hget hkept ⊢
  dsimp only at hget hkept
  have hself : Function.update c.upserts u { c.upserts u with finished := true } u =
      { c.upserts u with finished := true } := Function.update_self ..
  have hold : ∀ i ≠ u, Function.update c.upserts u { c.upserts u with finished := true } i =
      c.upserts i := fun i hi => Function.update_of_ne hi _ _
  constructor
  · intro k i hflight
    obtain ⟨hbefore, hother⟩ := hget k i hflight
    obtain ⟨hi, hkey, hfinished⟩ := h.flight k i hbefore
    have hiu : i ≠ u := fun hiu => hother hiu (hiu ▸ hkey.symm)
    dsimp only
    rw [hold i hiu]
    exact ⟨hi, hkey, hfinished⟩
  · intro i hi hunfinished
    dsimp only at hunfinished ⊢
    by_cases hiu : i = u
    · rw [hiu, hself] at hunfinished
      cases hunfinished
    · rw [hold i hiu] at hunfinished ⊢
      exact hkept i hiu (h.unfinished i hi hunfinished)
  · intro i hi hsent
    dsimp only at hsent ⊢
    by_cases hiu : i = u
    · rw [hiu, hself] at hsent
      exact absurd hsent hstatus
    · rw [hold i hiu] at hsent ⊢
      exact h.sent i hi hsent

/-! ## A pass -/

/-- What a pass has done once its flushes are sent: whatever was pending is sent, or given up at
the end of its window. -/
structure Passed (now : ℤ) (pending : List (String × ℕ)) (c c' : Counter) (promises : List ℕ) :
    Prop where
  draining : c'.draining = c.draining
  flushTimers : c'.flushTimers = c.flushTimers
  buckets : c'.buckets = c.buckets
  resetAt : ∀ b, (c'.heap b).resetAt = (c.heap b).resetAt
  flights : ∀ k ∉ pending.map Prod.fst, c'.flushInFlight.get k = c.flushInFlight.get k
  le : c.nextUpsert ≤ c'.nextUpsert
  upserts : ∀ u < c.nextUpsert, c'.upserts u = c.upserts u
  sent : ∀ u, c.nextUpsert ≤ u → u < c'.nextUpsert → u ∈ promises ∧
    (c'.upserts u).status = .sent ∧ (c'.upserts u).bucket ∈ pending.map Prod.snd ∧
      now < (c.heap (c'.upserts u).bucket).resetAt
  cleared : ∀ ref ∈ pending.map Prod.snd, (c'.heap ref).pendingDelta = []
  kept : ∀ ref ∉ pending.map Prod.snd, (c'.heap ref).pendingDelta = (c.heap ref).pendingDelta

lemma Passed.nil (now : ℤ) (c : Counter) : Passed now [] c c [] where
  draining := rfl
  flushTimers := rfl
  buckets := rfl
  resetAt _ := rfl
  flights _ _ := rfl
  le := le_rfl
  upserts _ _ := rfl
  sent _ hle hlt := absurd hlt (not_lt.mpr hle)
  cleared _ href := absurd href List.not_mem_nil
  kept _ _ := rfl

lemma Passed.append {now : ℤ} {first rest : List (String × ℕ)} {c c₁ c₂ : Counter}
    {promises promises' : List ℕ} (h : Passed now first c c₁ promises)
    (h' : Passed now rest c₁ c₂ promises') :
    Passed now (first ++ rest) c c₂ (promises ++ promises') where
  draining := h'.draining.trans h.draining
  flushTimers := h'.flushTimers.trans h.flushTimers
  buckets := h'.buckets.trans h.buckets
  resetAt b := (h'.resetAt b).trans (h.resetAt b)
  flights k hk := by
    rw [List.map_append, List.mem_append, not_or] at hk
    exact (h'.flights k hk.2).trans (h.flights k hk.1)
  le := h.le.trans h'.le
  upserts u hu := (h'.upserts u (hu.trans_le h.le)).trans (h.upserts u hu)
  sent u hle hlt := by
    rw [List.mem_append, List.map_append, List.mem_append]
    by_cases hu : u < c₁.nextUpsert
    · obtain ⟨hmem, hstatus, hbucket, hcurrent⟩ := h.sent u hle hu
      rw [h'.upserts u hu]
      exact ⟨Or.inl hmem, hstatus, Or.inl hbucket, hcurrent⟩
    · obtain ⟨hmem, hstatus, hbucket, hcurrent⟩ := h'.sent u (not_lt.mp hu) hlt
      rw [h.resetAt] at hcurrent
      exact ⟨Or.inr hmem, hstatus, Or.inr hbucket, hcurrent⟩
  cleared ref href := by
    by_cases hrest : ref ∈ rest.map Prod.snd
    · exact h'.cleared ref hrest
    · rw [List.map_append, List.mem_append, or_iff_left hrest] at href
      rw [h'.kept ref hrest, h.cleared ref href]
  kept ref href := by
    rw [List.map_append, List.mem_append, not_or] at href
    exact (h'.kept ref href.2).trans (h.kept ref href.1)

/-- A pass flushes a bucket whose key has nothing in flight. -/
lemma flushIfCurrent_passed {c : Counter} (now : ℤ) {key : String} (ref : ℕ)
    (hnone : c.flushInFlight.get key = none) :
    Passed now [(key, ref)] c (c.flushIfCurrent now key ref).1
      (c.flushIfCurrent now key ref).2.toList := by
  have hother : ∀ f : Bucket → Bucket, ∀ b ∉ [(key, ref)].map Prod.snd,
      ((c.modify ref f).heap b).pendingDelta = (c.heap b).pendingDelta := by
    intro f b hb
    rw [modify_heap_of_ne fun hbref => hb (List.mem_singleton.mpr hbref)]
  -- without an upsert only the bucket changes
  have hmodify : ∀ f : Bucket → Bucket, (f (c.heap ref)).resetAt = (c.heap ref).resetAt →
      (f (c.heap ref)).pendingDelta = [] → Passed now [(key, ref)] c (c.modify ref f) [] := by
    intro f hreset hpending
    refine ⟨rfl, rfl, rfl, modify_heap Bucket.resetAt hreset, fun _ _ => rfl, le_rfl,
      fun _ _ => rfl, fun _ hle hlt => absurd hlt (not_lt.mpr hle), fun b hb => ?_, hother f⟩
    rw [List.mem_singleton.mp hb, modify_heap_self]
    exact hpending
  unfold flushIfCurrent
  split_ifs with hexpired
  · exact hmodify (fun b => { b with pendingDelta := [], dropped := b.dropped ++ b.pendingDelta })
      rfl rfl
  · rcases flushBucket_spec c now key ref (c.heap ref).fixedResetAt with
      ⟨u, hu, -⟩ | ⟨hempty, heq⟩ | ⟨-, -, heq⟩
    · rw [hnone] at hu
      cases hu
    · rw [heq]
      exact hmodify (fun b => { b with lastFlushAt := now }) rfl hempty
    · rw [heq]
      have hself : (c.send now key ref (c.heap ref).fixedResetAt).upserts c.nextUpsert =
          { key := key, bucket := ref, delta := (c.heap ref).pendingDelta,
            fixedResetAt := (c.heap ref).fixedResetAt } := Function.update_self ..
      refine ⟨rfl, rfl, rfl, modify_heap
        (f := fun b => { b with pendingDelta := [], lastFlushAt := now }) Bucket.resetAt rfl,
        fun k hk => ?_, Nat.le_succ _, fun u hu => Function.update_of_ne hu.ne _ _,
        fun u hle hlt => ?_, fun b hb => ?_,
        hother fun b => { b with pendingDelta := [], lastFlushAt := now }⟩
      · exact JsMap.get_set_of_ne (fun hkey => hk (List.mem_singleton.mpr hkey)) _
      · have hu : u = c.nextUpsert := le_antisymm (Nat.lt_succ_iff.mp hlt) hle
        rw [hu, hself]
        exact ⟨List.mem_singleton_self _, rfl, List.mem_singleton_self _, not_le.mp hexpired⟩
      · have hheap : (c.send now key ref (c.heap ref).fixedResetAt).heap ref =
            { c.heap ref with pendingDelta := [], lastFlushAt := now } := Function.update_self ..
        rw [List.mem_singleton.mp hb]
        show ((c.send now key ref (c.heap ref).fixedResetAt).heap ref).pendingDelta = []
        rw [hheap]

lemma flushAll_passed {c : Counter} (now : ℤ) {pending : List (String × ℕ)}
    (hnodup : (pending.map Prod.fst).Nodup)
    (hnone : ∀ k ∈ pending.map Prod.fst, c.flushInFlight.get k = none) :
    Passed now pending c (flushAll now c pending).1 (flushAll now c pending).2 := by
  induction pending generalizing c with
  | nil => exact Passed.nil now c
  | cons e pending ih =>
    obtain ⟨hnot, hrest⟩ := List.nodup_cons.mp hnodup
    obtain ⟨hhead, htail⟩ := List.forall_mem_cons.mp hnone
    have hpassed : Passed now [e] c (c.flushIfCurrent now e.1 e.2).1
        (c.flushIfCurrent now e.1 e.2).2.toList := flushIfCurrent_passed now e.2 hhead
    refine hpassed.append (ih hrest fun k hk => ?_)
    -- the flush of another key leaves this one as it is
    have hne : k ∉ [e].map Prod.fst := fun hmem => hnot (List.mem_singleton.mp hmem ▸ hk)
    rw [hpassed.flights k hne]
    exact htail k hk

end Counter

open Counter

lemma flights_step {o : Options} {s s' : System} {e : Event} (h : Flights s.counter)
    (hstep : step o s e = some s') : Flights s'.counter := by
  cases e with
  | hit key fixedResetAt now =>
    cases hstep
    have hcurrent := currentBucket_current s.counter now key fixedResetAt
    have hfound : Flights (s.counter.currentBucket now key fixedResetAt).1 :=
      h.congr hcurrent.flushInFlight hcurrent.nextUpsert hcurrent.upserts
    have hcounted : Flights ((s.counter.currentBucket now key fixedResetAt).1.countHit
        (s.counter.currentBucket now key fixedResetAt).2) := hfound.congr rfl rfl rfl
    unfold stepHit
    dsimp only
    split_ifs
    · exact hcounted.flushBucket now key _ fixedResetAt
    · exact hcounted.finishHit o key _
  | resumeHit i =>
    simp only [step] at hstep
    split at hstep
    · split_ifs at hstep
      cases hstep
      exact h.finishHit o _ _
    · cases hstep
  | settle u outcome =>
    simp only [step] at hstep
    split_ifs at hstep
    cases hstep
    exact h.settleUpsert outcome
  | finish u =>
    simp only [step] at hstep
    split_ifs at hstep with hanswered
    cases hstep
    exact h.finishUpsert hanswered.2.1
  | fire key now =>
    simp only [step] at hstep
    split at hstep
    · cases hstep
      have htimers : Flights { s.counter with
          flushTimers := s.counter.flushTimers.delete key } := h.congr rfl rfl rfl
      unfold stepFire
      dsimp only
      split_ifs
      · exact htimers
      · exact htimers.flushIfCurrent now key _
    · cases hstep
  | resumeTimer i now =>
    simp only [step] at hstep
    split at hstep
    · split_ifs at hstep
      cases hstep
      unfold stepResumeTimer
      dsimp only
      split_ifs
      · exact h.scheduleFlush _ _
      · exact h
    · cases hstep
  | drain =>
    cases hstep
    exact h.congr rfl rfl rfl
  | resumeDrain i now =>
    simp only [step] at hstep
    split at hstep
    · split_ifs at hstep
      cases hstep
      unfold stepResumeDrain
      split
      · dsimp only
        split_ifs
        · exact h
        · exact h.flushAll now _
      · dsimp only
        split_ifs
        · exact h
        · exact h
    · cases hstep

lemma Reachable.flights {o : Options} {s : System} (h : Reachable o s) : Flights s.counter :=
  EventMachine.Reachable.invariant (I := fun s => Flights s.counter) h flights_init
    fun _ _ _ hs hstep => flights_step hs hstep

end RateLimitCounter
end FirecrawlGateway
