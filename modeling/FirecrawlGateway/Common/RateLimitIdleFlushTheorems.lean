import FirecrawlGateway.Common.RateLimitIdleFlush

/-!
# The flushes of an idle counter, step by step

Each kind of section keeps `Watched` where it meets `NoStaleTimer`, so in the runs whose sections
all do, idle usage is armed. The run at the end shows how a stale timer strands the usage of the
next window.
-/

namespace FirecrawlGateway
namespace RateLimitCounter

open Counter

namespace Counter

/-! ## The bucket of a hit -/

/-- Buckets may have left the map, and nothing else has changed that a flush depends on. -/
structure Shed (c c' : Counter) : Prop where
  draining : c'.draining = c.draining
  flushInFlight : c'.flushInFlight = c.flushInFlight
  flushTimers : c'.flushTimers = c.flushTimers
  upserts : c'.upserts = c.upserts
  nextUpsert : c'.nextUpsert = c.nextUpsert
  nextBucket : c'.nextBucket = c.nextBucket
  buckets : ∀ key ref, c'.buckets.get key = some ref → c.buckets.get key = some ref
  pendingDelta : ∀ ref, (c'.heap ref).pendingDelta = (c.heap ref).pendingDelta
  resetAt : ∀ ref, (c'.heap ref).resetAt = (c.heap ref).resetAt

lemma Shed.refl (c : Counter) : Shed c c :=
  ⟨rfl, rfl, rfl, rfl, rfl, rfl, fun _ _ => id, fun _ => rfl, fun _ => rfl⟩

lemma shed_dropBucket (c : Counter) (now : ℤ) (key : String) : Shed c (c.dropBucket now key) := by
  have hneutral := neutral_dropBucket c now key
  have hget : ∀ k ref, (c.dropBucket now key).buckets.get k = some ref →
      c.buckets.get k = some ref := by
    intro k ref h
    rw [dropBucket_get] at h
    split_ifs at h
    exact h
  unfold dropBucket at hneutral hget ⊢
  cases hkey : c.buckets.get key with
  | none => exact Shed.refl c
  | some ref =>
    rw [hkey] at hneutral hget
    exact ⟨rfl, rfl, rfl, rfl, rfl, rfl, hget, hneutral.pendingDelta,
      modify_heap (f := fun b => { b with removed := _ }) Bucket.resetAt rfl⟩

/-- What `recordBucket` removes before it inserts. -/
lemma recordBucket_shed (c : Counter) (now : ℤ) (key : String) (ref : ℕ) :
    ∃ c', Shed c c' ∧
      c.recordBucket now key ref = { c' with buckets := c'.buckets.set key ref } := by
  unfold recordBucket
  dsimp only
  split_ifs
  · exact ⟨_, shed_dropBucket c now key, rfl⟩
  · rcases evict_cases c now with hevict | ⟨oldest, hevict⟩
    · rw [hevict]
      exact ⟨c, Shed.refl c, rfl⟩
    · rw [hevict]
      exact ⟨_, shed_dropBucket c now oldest, rfl⟩
  · exact ⟨c, Shed.refl c, rfl⟩

/-- `hit` finds the bucket of the key in its window, or makes one with nothing in it. -/
lemma currentBucket_shed (c : Counter) (now : ℤ) (key : String) (fixedResetAt : Option ℤ) :
    (∃ ref, c.buckets.get key = some ref ∧ now < (c.heap ref).resetAt ∧
      c.currentBucket now key fixedResetAt = (c, ref)) ∨
    ∃ c₁ c₂ bucket, Shed c c₁ ∧ bucket.pendingDelta = [] ∧ Shed (c₁.alloc bucket) c₂ ∧
      c.currentBucket now key fixedResetAt =
        ({ c₂ with buckets := c₂.buckets.set key c.nextBucket }, c.nextBucket) := by
  rcases currentBucket_cases c now key fixedResetAt with
    hfound | ⟨c₁, bucket, hc₁, -, hbucket, heq⟩
  · exact Or.inl hfound
  · have hshed : Shed c c₁ := by
      rcases hc₁ with ⟨rfl, -⟩ | ⟨ref, rfl, -, -⟩
      · exact Shed.refl c₁
      · exact shed_dropBucket c now key
    obtain ⟨c₂, hshed₂, hrecord⟩ := recordBucket_shed (c₁.alloc bucket) now key c₁.nextBucket
    have hpending : bucket.pendingDelta = [] := by rw [hbucket]
    refine Or.inr ⟨c₁, c₂, bucket, hshed, hpending, hshed₂, ?_⟩
    rw [heq, hrecord, hshed.nextBucket]

/-- What `hit` has done once it has a bucket for its key. -/
structure Current (key : String) (ref : ℕ) (c c' : Counter) : Prop where
  draining : c'.draining = c.draining
  flushInFlight : c'.flushInFlight = c.flushInFlight
  flushTimers : c'.flushTimers = c.flushTimers
  upserts : c'.upserts = c.upserts
  nextUpsert : c'.nextUpsert = c.nextUpsert
  get : c'.buckets.get key = some ref
  buckets : ∀ k ≠ key, ∀ r, c'.buckets.get k = some r → c.buckets.get k = some r
  pendingDelta : ∀ r < c.nextBucket, (c'.heap r).pendingDelta = (c.heap r).pendingDelta
  resetAt : ∀ r < c.nextBucket, (c'.heap r).resetAt = (c.heap r).resetAt
  place : c.buckets.get key = some ref ∧ c'.nextBucket = c.nextBucket ∨
    ref = c.nextBucket ∧ c'.nextBucket = c.nextBucket + 1

lemma currentBucket_current (c : Counter) (now : ℤ) (key : String) (fixedResetAt : Option ℤ) :
    Current key (c.currentBucket now key fixedResetAt).2 c
      (c.currentBucket now key fixedResetAt).1 := by
  have hget := currentBucket_get c now key fixedResetAt
  rcases currentBucket_shed c now key fixedResetAt with
    ⟨ref, href, -, heq⟩ | ⟨c₁, c₂, bucket, hshed₁, -, hshed₂, heq⟩
  · rw [heq] at hget ⊢
    exact ⟨rfl, rfl, rfl, rfl, rfl, hget, fun _ _ _ => id, fun _ _ => rfl, fun _ _ => rfl,
      Or.inl ⟨href, rfl⟩⟩
  · rw [heq] at hget ⊢
    have hheap : ∀ r < c.nextBucket, (c₁.alloc bucket).heap r = c₁.heap r := by
      intro r hr
      have hne : r ≠ c₁.nextBucket := by
        have := hshed₁.nextBucket
        omega
      exact alloc_heap_of_ne hne bucket
    constructor
    · exact hshed₂.draining.trans hshed₁.draining
    · exact hshed₂.flushInFlight.trans hshed₁.flushInFlight
    · exact hshed₂.flushTimers.trans hshed₁.flushTimers
    · exact hshed₂.upserts.trans hshed₁.upserts
    · exact hshed₂.nextUpsert.trans hshed₁.nextUpsert
    · exact hget
    · intro k hk r hr
      exact hshed₁.buckets k r (hshed₂.buckets k r ((JsMap.get_set_of_ne hk _).symm.trans hr))
    · intro r hr
      have hpending := hshed₂.pendingDelta r
      rw [hheap r hr] at hpending
      exact hpending.trans (hshed₁.pendingDelta r)
    · intro r hr
      have hreset := hshed₂.resetAt r
      rw [hheap r hr] at hreset
      exact hreset.trans (hshed₁.resetAt r)
    · refine Or.inr ⟨rfl, hshed₂.nextBucket.trans ?_⟩
      show c₁.nextBucket + 1 = _
      rw [hshed₁.nextBucket]

/-! ## A flush -/

/-- `flushBucket` joins an upsert in flight, has nothing to do, or sends one. -/
lemma flushBucket_spec (c : Counter) (now : ℤ) (key : String) (ref : ℕ)
    (fixedResetAt : Option ℤ) :
    (∃ u, c.flushInFlight.get key = some u ∧
      c.flushBucket now key ref fixedResetAt = (c, some u)) ∨
    ((c.heap ref).pendingDelta = [] ∧ c.flushBucket now key ref fixedResetAt =
      (c.modify ref fun b => { b with lastFlushAt := now }, none)) ∨
    (c.flushInFlight.get key = none ∧ (c.heap ref).pendingDelta ≠ [] ∧
      c.flushBucket now key ref fixedResetAt =
        (c.send now key ref fixedResetAt, some c.nextUpsert)) := by
  unfold flushBucket
  cases hflight : c.flushInFlight.get key with
  | some u => exact Or.inl ⟨u, rfl, rfl⟩
  | none =>
    dsimp only
    by_cases hpending : (c.heap ref).pendingDelta = []
    · rw [if_pos hpending]
      exact Or.inr (Or.inl ⟨hpending, rfl⟩)
    · rw [if_neg hpending]
      exact Or.inr (Or.inr ⟨rfl, hpending, rfl⟩)

/-- A flush leaves alone what the other buckets have, and where they are. If it sends an upsert
then that is the one to await. -/
structure Flushed (key : String) (ref : ℕ) (c c' : Counter) (on : Option ℕ) : Prop where
  draining : c'.draining = c.draining
  buckets : c'.buckets = c.buckets
  flushTimers : c'.flushTimers = c.flushTimers
  nextBucket : c'.nextBucket = c.nextBucket
  resetAt : ∀ b, (c'.heap b).resetAt = (c.heap b).resetAt
  pendingDelta : ∀ b ≠ ref, (c'.heap b).pendingDelta = (c.heap b).pendingDelta
  sent : c'.flushInFlight = c.flushInFlight ∧ c'.nextUpsert = c.nextUpsert ∧
      c'.upserts = c.upserts ∨
    ∃ now fixedResetAt, c' = c.send now key ref fixedResetAt ∧ on = some c.nextUpsert

lemma flushed_modify {key : String} {ref : ℕ} {c : Counter} {on : Option ℕ} {f : Bucket → Bucket}
    (hreset : (f (c.heap ref)).resetAt = (c.heap ref).resetAt) :
    Flushed key ref c (c.modify ref f) on where
  draining := rfl
  buckets := rfl
  flushTimers := rfl
  nextBucket := rfl
  resetAt := modify_heap Bucket.resetAt hreset
  pendingDelta b hb := by rw [modify_heap_of_ne hb]
  sent := Or.inl ⟨rfl, rfl, rfl⟩

lemma flushBucket_flushed (c : Counter) (now : ℤ) (key : String) (ref : ℕ)
    (fixedResetAt : Option ℤ) : Flushed key ref c (c.flushBucket now key ref fixedResetAt).1
      (c.flushBucket now key ref fixedResetAt).2 := by
  rcases flushBucket_spec c now key ref fixedResetAt with
    ⟨u, -, heq⟩ | ⟨-, heq⟩ | ⟨-, -, heq⟩
  · rw [heq]
    exact ⟨rfl, rfl, rfl, rfl, fun _ => rfl, fun _ _ => rfl, Or.inl ⟨rfl, rfl, rfl⟩⟩
  · rw [heq]
    exact flushed_modify (f := fun b => { b with lastFlushAt := now }) rfl
  · rw [heq]
    have hmodify : Flushed key ref c
        (c.modify ref fun b => { b with pendingDelta := [], lastFlushAt := now }) none :=
      flushed_modify rfl
    exact ⟨rfl, rfl, rfl, rfl, hmodify.resetAt, hmodify.pendingDelta,
      Or.inr ⟨now, fixedResetAt, rfl, rfl⟩⟩

lemma flushIfCurrent_flushed (c : Counter) (now : ℤ) (key : String) (ref : ℕ) :
    Flushed key ref c (c.flushIfCurrent now key ref).1 (c.flushIfCurrent now key ref).2 := by
  unfold flushIfCurrent
  split_ifs
  · exact flushed_modify
      (f := fun b => { b with pendingDelta := [], dropped := b.dropped ++ b.pendingDelta }) rfl
  · exact flushBucket_flushed c now key ref _

/-- The answer to an upsert is written to the bucket of that upsert only. -/
lemma settleUpsert_eq (c : Counter) (u : ℕ) (outcome : Outcome) :
    ∃ status bucket, status ≠ .sent ∧ c.settleUpsert u outcome =
      { c with upserts := Function.update c.upserts u { c.upserts u with status := status }
               heap := Function.update c.heap (c.upserts u).bucket bucket } := by
  rcases settleUpsert_cases c u outcome with ⟨-, heq⟩ | ⟨-, heq⟩ | ⟨count, resetAt, -, heq⟩
  · exact ⟨.rejected, _, by decide, heq⟩
  · refine ⟨.resolved, c.heap (c.upserts u).bucket, by decide, heq.trans ?_⟩
    rw [Function.update_eq_self]
    rfl
  · exact ⟨.resolved, _, by decide, heq⟩

/-- Only the finished upsert is taken off the flushes in flight. -/
lemma finishUpsert_get {c : Counter} {u : ℕ} {key : String} {i : ℕ}
    (h : (c.finishUpsert u).flushInFlight.get key = some i) :
    c.flushInFlight.get key = some i ∧ (i = u → key ≠ (c.upserts u).key) := by
  unfold finishUpsert at h
  dsimp only at h
  split_ifs at h with hcurrent
  · by_cases hkey : key = (c.upserts u).key
    · rw [hkey, JsMap.get_delete_self] at h
      cases h
    · rw [JsMap.get_delete_of_ne hkey] at h
      exact ⟨h, fun _ => hkey⟩
  · refine ⟨h, ?_⟩
    rintro rfl rfl
    exact hcurrent h

lemma finishUpsert_eq (c : Counter) (u : ℕ) : ∃ flights, c.finishUpsert u =
    { c with upserts := Function.update c.upserts u { c.upserts u with finished := true }
             flushInFlight := flights } := by
  unfold finishUpsert
  dsimp only
  split_ifs
  · exact ⟨_, rfl⟩
  · exact ⟨c.flushInFlight, rfl⟩

end Counter

/-! ## The promise of a flush -/

/-- An upsert is sent for a bucket, and something awaits it. -/
lemma InFlight.send {s s' : System} (h : InFlight s) {now : ℤ} {key : String} {ref : ℕ}
    {fixedResetAt : Option ℤ} (hcounter : s'.counter = s.counter.send now key ref fixedResetAt)
    (hmono : ∀ r p, Awaits s r p → Awaits s' r p)
    (hnew : Awaits s' ref (some s.counter.nextUpsert)) : InFlight s' := by
  have hnext : s'.counter.nextUpsert = s.counter.nextUpsert + 1 := by
    rw [hcounter]
    rfl
  have hself : s'.counter.upserts s.counter.nextUpsert =
      { key := key, bucket := ref, delta := (s.counter.heap ref).pendingDelta,
        fixedResetAt := fixedResetAt } := by
    rw [hcounter]
    exact Function.update_self ..
  have hold : ∀ u < s.counter.nextUpsert, s'.counter.upserts u = s.counter.upserts u := by
    intro u hu
    rw [hcounter]
    exact Function.update_of_ne hu.ne _ _
  constructor
  · intro k u hget
    rw [hcounter] at hget
    by_cases hk : k = key
    · subst hk
      have hu : s.counter.nextUpsert = u := Option.some.inj ((JsMap.get_set_self ..).symm.trans hget)
      subst hu
      rw [hnext, hself]
      exact ⟨Nat.lt_succ_self _, rfl, rfl⟩
    · obtain ⟨hu, hkey, hfinished⟩ := h.flight k u ((JsMap.get_set_of_ne hk _).symm.trans hget)
      rw [hnext, hold u hu]
      exact ⟨by omega, hkey, hfinished⟩
  · intro u hu hsent
    by_cases heq : u = s.counter.nextUpsert
    · rw [heq, hself]
    · have hlt : u < s.counter.nextUpsert := by omega
      rw [hold u hlt] at hsent ⊢
      exact h.sent u hlt hsent
  · intro u hu hfinished
    by_cases heq : u = s.counter.nextUpsert
    · rw [heq, hself]
      exact hnew
    · have hlt : u < s.counter.nextUpsert := by omega
      rw [hold u hlt] at hfinished ⊢
      exact hmono _ _ (h.awaited u hlt hfinished)

/-- What follows a flush awaits its promise, so the flushed bucket is tended. -/
lemma WatchedBut.flush {key : String} {s s' : System} {now : ℤ} (h : WatchedBut key (s, now))
    {ref : ℕ} (hget : s.counter.buckets.get key = some ref) {on : Option ℕ}
    (hflushed : Flushed key ref s.counter s'.counter on)
    (hrest : s'.timerTasks = s.timerTasks ++ [⟨key, ref, on⟩] ∧ s'.waiting = s.waiting ∨
      ∃ ordinal, s'.waiting = s.waiting ++ [⟨key, ref, ordinal, on⟩] ∧
        s'.timerTasks = s.timerTasks) : Watched (s', now) := by
  obtain ⟨owner, howner⟩ := h.owned
  obtain ⟨href, hkey⟩ := howner.buckets key ref hget
  have hmono : ∀ r p, Awaits s r p → Awaits s' r p := by
    intro r p hawaits
    rcases hrest with ⟨htasks, hwaiting⟩ | ⟨ordinal, hwaiting, htasks⟩
    · refine hawaits.mono (fun w hw => hwaiting ▸ hw) fun task htask => ?_
      exact htasks ▸ List.mem_append_left _ htask
    · refine hawaits.mono (fun w hw => ?_) fun task htask => htasks ▸ htask
      exact hwaiting ▸ List.mem_append_left _ hw
  have hnew : Awaits s' ref on := by
    rcases hrest with ⟨htasks, -⟩ | ⟨ordinal, hwaiting, -⟩
    · refine Or.inr ⟨⟨key, ref, on⟩, ?_, rfl, rfl⟩
      rw [htasks]
      exact List.mem_append_right _ (List.mem_singleton_self _)
    · refine Or.inl ⟨⟨key, ref, ordinal, on⟩, ?_, rfl, rfl⟩
      rw [hwaiting]
      exact List.mem_append_right _ (List.mem_singleton_self _)
  refine @WatchedBut.watched key _ ⟨?_, ⟨owner, ?_, ?_, ?_⟩, ?_, ?_⟩ ?_
  · exact hflushed.draining.trans h.draining
  · intro k r hr
    rw [hflushed.buckets] at hr
    rw [hflushed.nextBucket]
    exact howner.buckets k r hr
  · intro w hw
    rw [hflushed.nextBucket]
    rcases hrest with ⟨-, hwaiting⟩ | ⟨ordinal, hwaiting, -⟩
    · exact howner.waiting w (hwaiting ▸ hw)
    · rw [hwaiting, List.mem_append, List.mem_singleton] at hw
      rcases hw with hw | rfl
      · exact howner.waiting w hw
      · exact ⟨href, hkey⟩
  · intro task htask
    rw [hflushed.nextBucket]
    rcases hrest with ⟨htasks, -⟩ | ⟨ordinal, -, htasks⟩
    · rw [htasks, List.mem_append, List.mem_singleton] at htask
      rcases htask with htask | rfl
      · exact howner.timerTasks task htask
      · exact ⟨href, hkey⟩
    · exact howner.timerTasks task (htasks ▸ htask)
  · rcases hflushed.sent with ⟨hflight, hnext, hupserts⟩ | ⟨t, fixedResetAt, hcounter, hon⟩
    · exact h.inFlight.congr hflight hnext hupserts fun _ _ _ r => hmono r _
    · rw [hon] at hnew
      exact h.inFlight.send hcounter hmono hnew
  · intro k hk r hr hreset hpending
    have hr' : s.counter.buckets.get k = some r := hflushed.buckets ▸ hr
    have hne : r ≠ ref := by
      rintro rfl
      exact hk ((howner.buckets k r hr').2.symm.trans hkey)
    rw [hflushed.resetAt] at hreset
    rw [hflushed.pendingDelta r hne] at hpending
    rcases h.tended k hk r hr' hreset hpending with harmed | ⟨p, hawaits⟩
    · exact Or.inl (hflushed.flushTimers ▸ harmed)
    · exact Or.inr ⟨p, hmono r p hawaits⟩
  · intro r hr _ _
    rw [hflushed.buckets] at hr
    cases hget.symm.trans hr
    exact Or.inr ⟨on, hnew⟩

/-! ## Hits -/

/-- The bucket of a key has the timer, where none is in the way. -/
lemma WatchedBut.schedule {key : String} {s s' : System} {now : ℤ} (h : WatchedBut key (s, now))
    {ref : ℕ} (hget : s.counter.buckets.get key = some ref)
    (hcounter : s'.counter = s.counter.scheduleFlush key ref) (hwaiting : s'.waiting = s.waiting)
    (htasks : s'.timerTasks = s.timerTasks)
    (hstale : now < (s.counter.heap ref).resetAt → ∀ b, s.counter.flushTimers.get key = some b →
      b = ref) : Watched (s', now) := by
  obtain ⟨timers, htimers⟩ := scheduleFlush_eq s.counter key ref
  have hfields := hcounter.trans htimers
  have hmono : ∀ r p, Awaits s r p → Awaits s' r p := fun r p hawaits =>
    hawaits.mono (fun _ hw => hwaiting ▸ hw) fun _ htask => htasks ▸ htask
  refine @WatchedBut.watched key _ ⟨?_, ?_, ?_, ?_⟩ ?_
  · rw [hfields]
    exact h.draining
  · obtain ⟨owner, howner⟩ := h.owned
    refine ⟨owner, ?_, ?_, ?_⟩
    · rw [hfields]
      exact howner.buckets
    · rw [hfields, hwaiting]
      exact howner.waiting
    · rw [hfields, htasks]
      exact howner.timerTasks
  · refine h.inFlight.congr ?_ ?_ ?_ fun _ _ _ r => hmono r _
    all_goals rw [hfields]
  · intro k hk r
    have htended := h.tended k hk r
    unfold Tended at htended ⊢
    intro hr hreset hpending
    rw [hfields] at hr hreset hpending
    rcases htended hr hreset hpending with harmed | ⟨p, hawaits⟩
    · rw [hcounter]
      exact Or.inl (scheduleFlush_timers key ref harmed)
    · exact Or.inr ⟨p, hmono r p hawaits⟩
  · intro r hr hreset hpending
    rw [hfields] at hr hreset
    cases hget.symm.trans hr
    rw [hcounter]
    exact Or.inl (scheduleFlush_arms h.draining (hstale hreset))

/-- Once a hit is counted only the bucket of its key may lack a timer. -/
lemma Watched.count {s : System} {now t : ℤ} (h : Watched (s, now)) (hle : now ≤ t) {key : String}
    {c : Counter} {ref : ℕ} (hcurrent : Current key ref s.counter c) :
    WatchedBut key ({ s with counter := c.countHit ref }, t) := by
  obtain ⟨owner, howner⟩ := h.owned
  -- a new bucket belongs to the key it was made for
  have howned : Owned (Function.update owner ref key) { s with counter := c.countHit ref } := by
    have hold : ∀ r k, r < s.counter.nextBucket ∧ owner r = k →
        r < c.nextBucket ∧ Function.update owner ref key r = k := by
      rintro r k ⟨hr, hk⟩
      rcases hcurrent.place with ⟨hget, hnext⟩ | ⟨href, hnext⟩
      · refine ⟨by omega, ?_⟩
        by_cases heq : r = ref
        · rw [heq, Function.update_self, ← (howner.buckets key ref hget).2, ← heq, hk]
        · rw [Function.update_of_ne heq, hk]
      · refine ⟨by omega, ?_⟩
        rw [Function.update_of_ne (by omega), hk]
    constructor
    · intro k r hr
      by_cases hk : k = key
      · subst hk
        cases hcurrent.get.symm.trans hr
        rw [Function.update_self]
        refine ⟨?_, rfl⟩
        rcases hcurrent.place with ⟨hget, hnext⟩ | ⟨href, hnext⟩
        · exact hnext ▸ (howner.buckets k ref hget).1
        · show ref < c.nextBucket
          omega
      · exact hold r k (howner.buckets k r (hcurrent.buckets k hk r hr))
    · exact fun w hw => hold w.bucket w.key (howner.waiting w hw)
    · exact fun task htask => hold task.bucket task.key (howner.timerTasks task htask)
  refine h.but hle key (hcurrent.draining.trans h.draining) ⟨_, howned⟩ ?_ ?_ ?_ ?_
  · exact h.inFlight.congr hcurrent.flushInFlight hcurrent.nextUpsert hcurrent.upserts
      fun _ _ _ _ => id
  · intro k hk r hr
    have hget := hcurrent.buckets k hk r hr
    obtain ⟨hlt, hof⟩ := howner.buckets k r hget
    have hne : r ≠ ref := by
      rintro rfl
      rcases hcurrent.place with ⟨hkey, -⟩ | ⟨href, -⟩
      · exact hk (hof.symm.trans (howner.buckets key r hkey).2)
      · exact hlt.ne href
    show _ ∧ ((c.countHit ref).heap r).pendingDelta = _ ∧ ((c.countHit ref).heap r).resetAt = _
    unfold countHit
    rw [modify_heap_of_ne hne]
    exact ⟨hget, hcurrent.pendingDelta r hlt, hcurrent.resetAt r hlt⟩
  · intro k _ r harmed
    exact (congrArg (fun timers => timers.get k) hcurrent.flushTimers).trans harmed
  · exact fun _ _ _ _ _ => id

lemma watched_hit {s : System} {now t : ℤ} (h : Watched (s, now)) (hle : now ≤ t) {key : String}
    {fixedResetAt : Option ℤ} (hstale : NoStaleTimer (s, now) (t, .hit key fixedResetAt t)) :
    Watched (stepHit ⟨true⟩ s key fixedResetAt t, t) := by
  have hcurrent := currentBucket_current s.counter t key fixedResetAt
  have hasked : asked s (.hit key fixedResetAt t) =
      if t - ((s.counter.currentBucket t key fixedResetAt).1.heap
          (s.counter.currentBucket t key fixedResetAt).2).lastFlushAt ≥ flushIntervalMs then none
      else some ((s.counter.currentBucket t key fixedResetAt).1.countHit
        (s.counter.currentBucket t key fixedResetAt).2, key,
        (s.counter.currentBucket t key fixedResetAt).2) := rfl
  unfold stepHit
  generalize s.counter.currentBucket t key fixedResetAt = found at hcurrent hasked ⊢
  obtain ⟨c, ref⟩ := found
  dsimp only at hcurrent hasked ⊢
  have hbut := h.count hle hcurrent
  have hlast : ((c.countHit ref).heap ref).lastFlushAt = (c.heap ref).lastFlushAt :=
    modify_heap Bucket.lastFlushAt rfl ref
  rw [hlast]
  split_ifs at hasked ⊢ with hflush
  · exact hbut.flush hcurrent.get (flushBucket_flushed ..) (Or.inr ⟨_, rfl, rfl⟩)
  · have hpending : ((c.countHit ref).heap ref).pendingDelta ≠ [] := by
      unfold countHit
      rw [modify_heap_self]
      exact List.append_ne_nil_of_right_ne_nil _ (List.cons_ne_nil _ _)
    have hcounter : (finishHit ⟨true⟩ (c.countHit ref) key ref).1 =
        (c.countHit ref).scheduleFlush key ref := by
      unfold finishHit
      simp only [Bool.true_and, decide_eq_true_eq, if_pos hpending]
    exact hbut.schedule hcurrent.get hcounter rfl rfl
      fun hreset => hstale _ _ _ hasked hcurrent.get hreset

/-! ## Answers -/

lemma watched_settle {s : System} {now t : ℤ} (h : Watched (s, now)) (hle : now ≤ t) {u : ℕ}
    (hu : u < s.counter.nextUpsert) (hsent : (s.counter.upserts u).status = .sent)
    (outcome : Outcome) :
    Watched ({ s with counter := s.counter.settleUpsert u outcome }, t) := by
  obtain ⟨status, bucket, hstatus, heq⟩ := settleUpsert_eq s.counter u outcome
  rw [heq]
  have hkeeps : ∀ {α : Type} (g : Upsert → α), g { s.counter.upserts u with status := status } =
      g (s.counter.upserts u) → ∀ i, g (Function.update s.counter.upserts u
        { s.counter.upserts u with status := status } i) = g (s.counter.upserts i) :=
    fun g hg => update_upserts g hg
  obtain ⟨owner, howner⟩ := h.owned
  refine WatchedBut.watched (h.but hle (owner (s.counter.upserts u).bucket) h.draining
    ⟨owner, howner.buckets, howner.waiting, howner.timerTasks⟩ ?_ ?_ (fun _ _ _ => id)
    fun _ _ _ _ _ => id) ?_
  · constructor
    · intro k i hget
      dsimp only
      rw [hkeeps Upsert.key rfl, hkeeps Upsert.finished rfl]
      exact h.inFlight.flight k i hget
    · intro i hi hsent'
      dsimp only at hsent' ⊢
      rw [hkeeps Upsert.finished rfl]
      by_cases heq : i = u
      · rw [heq, Function.update_self] at hsent'
        exact absurd hsent' hstatus
      · rw [Function.update_of_ne heq] at hsent'
        exact h.inFlight.sent i hi hsent'
    · intro i hi hfinished
      dsimp only at hfinished ⊢
      rw [hkeeps Upsert.finished rfl] at hfinished
      rw [hkeeps Upsert.bucket rfl]
      exact h.inFlight.awaited i hi hfinished
  · intro k hk r hr
    have hne : r ≠ (s.counter.upserts u).bucket := by
      rintro rfl
      exact hk (howner.buckets k _ hr).2.symm
    dsimp only
    rw [Function.update_of_ne hne]
    exact ⟨hr, rfl, rfl⟩
  · intro r hr hreset hpending
    by_cases hne : r = (s.counter.upserts u).bucket
    · -- the answer has not reached those who await it
      exact Or.inr ⟨some u, hne ▸ h.inFlight.awaited u hu (h.inFlight.sent u hu hsent)⟩
    · dsimp only at hreset hpending
      rw [Function.update_of_ne hne] at hreset hpending
      exact h.tended _ r hr (hle.trans_lt hreset) hpending

lemma watched_finish {s : System} {now t : ℤ} (h : Watched (s, now)) (hle : now ≤ t) {u : ℕ}
    (hanswered : (s.counter.upserts u).status ≠ .sent) :
    Watched ({ s with counter := s.counter.finishUpsert u }, t) := by
  have hget := @finishUpsert_get s.counter u
  obtain ⟨flights, heq⟩ := finishUpsert_eq s.counter u
  rw [heq] at hget ⊢
  dsimp only at hget
  obtain ⟨owner, howner⟩ := h.owned
  refine ⟨h.draining, ⟨owner, howner.buckets, howner.waiting, howner.timerTasks⟩, ?_, ?_⟩
  · constructor
    · intro k i hi
      obtain ⟨hflight, hother⟩ := hget hi
      obtain ⟨hlt, hkey, hfinished⟩ := h.inFlight.flight k i hflight
      have hne : i ≠ u := by
        rintro rfl
        exact hother rfl hkey.symm
      dsimp only
      rw [Function.update_of_ne hne]
      exact ⟨hlt, hkey, hfinished⟩
    · intro i hi hsent
      dsimp only at hsent ⊢
      by_cases hne : i = u
      · rw [hne, Function.update_self] at hsent
        exact absurd hsent hanswered
      · rw [Function.update_of_ne hne] at hsent ⊢
        exact h.inFlight.sent i hi hsent
    · intro i hi hfinished
      dsimp only at hfinished ⊢
      by_cases hne : i = u
      · rw [hne, Function.update_self] at hfinished
        cases hfinished
      · rw [Function.update_of_ne hne] at hfinished ⊢
        exact h.inFlight.awaited i hi hfinished
  · exact fun key ref hr hreset => h.tended key ref hr (hle.trans_lt hreset)

/-! ## Timers -/

lemma watched_fire {s : System} {now t : ℤ} (h : Watched (s, now)) (hle : now ≤ t) {key : String}
    {ref : ℕ} (htimer : s.counter.flushTimers.get key = some ref) :
    Watched (stepFire s key ref t, t) := by
  obtain ⟨owner, howner⟩ := h.owned
  have hbut : WatchedBut key ({ s with
      counter := { s.counter with flushTimers := s.counter.flushTimers.delete key } }, t) := by
    refine h.but hle key h.draining ⟨owner, howner.buckets, howner.waiting, howner.timerTasks⟩
      (h.inFlight.congr rfl rfl rfl fun _ _ _ _ => id) (fun _ _ r hr => ⟨hr, rfl, rfl⟩) ?_
      fun _ _ _ _ _ => id
    intro k hk r harmed
    exact (JsMap.get_delete_of_ne hk).trans harmed
  unfold stepFire
  dsimp only
  split_ifs with hnothing
  · refine hbut.watched fun r hr hreset hpending => ?_
    -- the timer was armed for a bucket that needs nothing, so it was not this one's
    rcases h.tended key r hr (hle.trans_lt hreset) hpending with harmed | hawaits
    · cases htimer.symm.trans harmed
      rcases hnothing with hreplaced | hempty
      · exact absurd hr hreplaced
      · exact absurd hempty hpending
    · exact Or.inr hawaits
  · have hget := not_not.mp (not_or.mp hnothing).1
    exact hbut.flush hget (flushIfCurrent_flushed ..) (Or.inl ⟨rfl, rfl⟩)

/-! ## Runs -/

lemma watched_step {s s' : System × ℤ} {e : ℤ × Event} (h : Watched s) (hstale : NoStaleTimer s e)
    (hstep : tick s e = some s') : Watched s' := by
  obtain ⟨s, now⟩ := s
  obtain ⟨s', now'⟩ := s'
  obtain ⟨t, e⟩ := e
  obtain ⟨hle, ht, hclock, hs'⟩ := tick_eq_some hstep
  dsimp only at hle ht hclock hs'
  subst ht
  cases e with
  | hit key fixedResetAt t =>
    cases of_decide_eq_true hclock
    cases hs'
    exact watched_hit h hle hstale
  | resumeHit i =>
    simp only [step] at hs'
    split at hs'
    · rename_i w hw
      split_ifs at hs' with hsettled
      cases hs'
      exact watched_resumeHit h hle hw hsettled hstale
    · cases hs'
  | settle u outcome =>
    simp only [step] at hs'
    split_ifs at hs' with hsent
    cases hs'
    exact watched_settle h hle hsent.1 hsent.2 outcome
  | finish u =>
    simp only [step] at hs'
    split_ifs at hs' with hanswered
    cases hs'
    exact watched_finish h hle hanswered.2.1
  | fire key t =>
    cases of_decide_eq_true hclock
    simp only [step] at hs'
    split at hs'
    · rename_i ref htimer
      cases hs'
      exact watched_fire h hle htimer
    · cases hs'
  | resumeTimer i t =>
    cases of_decide_eq_true hclock
    simp only [step] at hs'
    split at hs'
    · rename_i task htask
      split_ifs at hs' with hsettled
      cases hs'
      exact watched_resumeTimer h hle htask hsettled hstale
    · cases hs'
  | drain => cases hclock
  | resumeDrain i t => cases hclock

/-- In an idle counter nothing is in flight for any key. -/
lemma Watched.idle {s : System × ℤ} (h : Watched s) (hidle : Idle s.1) (key : String) :
    s.1.counter.flushInFlight.get key = none := by
  cases hget : s.1.counter.flushInFlight.get key with
  | none => rfl
  | some u =>
    obtain ⟨hu, -, hfinished⟩ := h.inFlight.flight key u hget
    rw [hidle.upserts u hu] at hfinished
    cases hfinished

/-- Where nothing is in flight an armed timer flushes its bucket. -/
lemma flushedBy_of_armed {s : System} {key : String} {ref : ℕ}
    (hget : s.counter.buckets.get key = some ref)
    (hpending : (s.counter.heap ref).pendingDelta ≠ [])
    (harmed : s.counter.flushTimers.get key = some ref)
    (hflight : s.counter.flushInFlight.get key = none) {t : ℤ}
    (ht : t < (s.counter.heap ref).resetAt) : FlushedBy s key ref t := by
  have hstep : step ⟨true⟩ s (.fire key t) = some (stepFire s key ref t) := by
    simp only [step, harmed]
  refine ⟨stepFire s key ref t, hstep, ?_⟩
  unfold stepFire
  dsimp only
  rw [if_neg (not_or.mpr ⟨not_not.mpr hget, hpending⟩)]
  unfold flushIfCurrent
  dsimp only
  rw [if_neg (not_le.mpr ht)]
  rcases flushBucket_spec { s.counter with flushTimers := s.counter.flushTimers.delete key } t key
      ref (s.counter.heap ref).fixedResetAt with ⟨u, hu, -⟩ | ⟨hempty, -⟩ | ⟨-, -, heq⟩
  · cases hflight.symm.trans hu
  · exact absurd hempty hpending
  · rw [heq]
    exact ⟨rfl, Function.update_self ..⟩

/-- As long as no stale timer is in the way, idle usage is armed. -/
theorem idle_usage_armed {start : ℤ} {es : List (ℤ × Event)} {s : System × ℤ}
    (hstale : EventMachine.Along tick NoStaleTimer ({}, start) es)
    (hrun : EventMachine.run tick ({}, start) es = some s) : IdleUsageArmed s := by
  have hwatched := EventMachine.run_invariant_along (I := Watched)
    (fun _ _ _ h hG => watched_step h hG) (watched_init start) hstale hrun
  intro hidle key ref hget hreset hpending
  have harmed : s.1.counter.flushTimers.get key = some ref := by
    rcases hwatched.tended key ref hget hreset hpending with harmed | ⟨on, ⟨w, hw, -⟩ | ⟨task, htask, -⟩⟩
    · exact harmed
    · rw [hidle.waiting] at hw
      cases hw
    · rw [hidle.timerTasks] at htask
      cases htask
  exact ⟨harmed, fun t ht => flushedBy_of_armed hget hpending harmed (hwatched.idle hidle key) ht⟩

/-- Two hits a second apart; the second is left to a timer. -/
def armedUsage : List (ℤ × Event) :=
  [(100000, .hit "k" none 100000), (100010, .settle 0 (.resolved (some (1, 160000)))),
   (100010, .finish 0), (100010, .resumeHit 0), (101000, .hit "k" none 101000)]

theorem idle_usage_armed_sample : ∃ s : System × ℤ,
    EventMachine.Along tick NoStaleTimer ({}, 100000) armedUsage ∧
      EventMachine.run tick ({}, 100000) armedUsage = some s ∧ IdleUsageArmed s := by
  have hstale : EventMachine.Along tick NoStaleTimer ({}, 100000) armedUsage := by decide +kernel
  obtain ⟨s, hs⟩ := Option.isSome_iff_exists.mp (show (EventMachine.run tick ({}, 100000)
    armedUsage).isSome = true by decide +kernel)
  exact ⟨s, hstale, hs, idle_usage_armed hstale hs⟩

/-- A timer of the first window is still armed when the second hit of the next one asks for
another, and does nothing when it fires. -/
def strandedUsage : List (ℤ × Event) :=
  [(100000, .hit "k" none 100000), (100010, .settle 0 (.resolved (some (1, 160000)))),
   (100010, .finish 0), (100010, .resumeHit 0),
   (156000, .hit "k" none 156000), (156010, .settle 1 (.resolved (some (2, 160000)))),
   (156010, .finish 1), (156010, .resumeHit 0),
   (157000, .hit "k" none 157000),
   (160500, .hit "k" none 160500), (160510, .settle 2 (.resolved (some (1, 220500)))),
   (160510, .finish 2), (160510, .resumeHit 0),
   (160600, .hit "k" none 160600), (161000, .fire "k" 161000)]

/-- The last hit is left without a timer. -/
theorem stale_timer_strands_usage : ∃ s : System × ℤ,
    EventMachine.run tick ({}, 100000) strandedUsage = some s ∧ Idle s.1 ∧
      s.1.counter.buckets.get "k" = some 1 ∧ s.2 < (s.1.counter.heap 1).resetAt ∧
      (s.1.counter.heap 1).pendingDelta = [1] ∧ s.1.counter.flushTimers.get "k" = none ∧
      ¬ IdleUsageArmed s := by
  have hrun : (EventMachine.run tick ({}, 100000) strandedUsage).any (fun s =>
      s.1.waiting = [] ∧ s.1.timerTasks = [] ∧
        (∀ u < s.1.counter.nextUpsert, (s.1.counter.upserts u).finished = true) ∧
        s.1.counter.buckets.get "k" = some 1 ∧ s.2 < (s.1.counter.heap 1).resetAt ∧
        (s.1.counter.heap 1).pendingDelta = [1] ∧ s.1.counter.flushTimers.get "k" = none) = true := by
    decide +kernel
  obtain ⟨s, hs, hdata⟩ := (Option.any_eq_true _ _).mp hrun
  obtain ⟨hwaiting, htasks, hfinished, hget, hreset, hpending, htimer⟩ := of_decide_eq_true hdata
  have hidle : Idle s.1 := ⟨hwaiting, htasks, hfinished⟩
  refine ⟨s, hs, hidle, hget, hreset, hpending, htimer, fun h => ?_⟩
  have harmed := (h hidle "k" 1 hget hreset (by rw [hpending]; exact List.cons_ne_nil _ _)).1
  rw [htimer] at harmed
  cases harmed

end RateLimitCounter
end FirecrawlGateway
