import FirecrawlGateway.Common.RateLimitCounterTheorems

/-!
# The flushes of an idle counter

With `scheduleFlush` the pending hits of a bucket are waited for by a hit or by the callback of a
timer, or else a timer is armed for the bucket. A timer is kept by key, though: where it is still
armed for a bucket that the key had before, none is armed for the new one.
-/

namespace FirecrawlGateway
namespace RateLimitCounter

open Counter

/-! ## Sections with a clock -/

/-- Whether a section may run at a moment, which is what it reads as the time. Nothing drains. -/
def readsClock (now : ℤ) : Event → Bool
  | .hit _ _ t => t = now
  | .fire _ t => t = now
  | .resumeTimer _ t => t = now
  | .drain => false
  | .resumeDrain _ _ => false
  | _ => true

/-- A section runs at a moment, no earlier than the one before. -/
def tick (s : System × ℤ) (e : ℤ × Event) : Option (System × ℤ) :=
  if s.2 ≤ e.1 ∧ readsClock e.1 e.2 then (step ⟨true⟩ s.1 e.2).map fun s' => (s', e.1) else none

lemma tick_eq_some {s t : System × ℤ} {e : ℤ × Event} (h : tick s e = some t) :
    s.2 ≤ t.2 ∧ t.2 = e.1 ∧ readsClock t.2 e.2 ∧ step ⟨true⟩ s.1 e.2 = some t.1 := by
  unfold tick at h
  split_ifs at h with htime
  obtain ⟨s', hs', rfl⟩ := Option.map_eq_some_iff.mp h
  exact ⟨htime.1, rfl, htime.2, hs'⟩

/-! ## What is claimed of an idle counter -/

/-- No hit waits, no callback of a timer is still to run, and no upsert is in flight. -/
structure Idle (s : System) : Prop where
  waiting : s.waiting = []
  timerTasks : s.timerTasks = []
  upserts : ∀ u < s.counter.nextUpsert, (s.counter.upserts u).finished = true

/-- The timer of the key fires at this moment, and the pending hits of the bucket are sent. -/
def FlushedBy (s : System) (key : String) (ref : ℕ) (now : ℤ) : Prop :=
  ∃ s', step ⟨true⟩ s (.fire key now) = some s' ∧
    s'.counter.nextUpsert = s.counter.nextUpsert + 1 ∧
    s'.counter.upserts s.counter.nextUpsert =
      { key := key, bucket := ref, delta := (s.counter.heap ref).pendingDelta,
        fixedResetAt := (s.counter.heap ref).fixedResetAt }

/-- In an idle counter a timer is armed for every stored bucket that has pending hits in its
window, and it flushes that bucket when it fires in the window. -/
def IdleUsageArmed (s : System × ℤ) : Prop :=
  Idle s.1 → ∀ key ref, s.1.counter.buckets.get key = some ref →
    s.2 < (s.1.counter.heap ref).resetAt → (s.1.counter.heap ref).pendingDelta ≠ [] →
    s.1.counter.flushTimers.get key = some ref ∧
      ∀ t < (s.1.counter.heap ref).resetAt, FlushedBy s.1 key ref t

/-! ## The timer that is in the way -/

/-- The bucket of a key that a section schedules a flush for, with the counter at that point. -/
def asked (s : System) : Event → Option (Counter × String × ℕ)
  | .hit key fixedResetAt now =>
    let (c, ref) := s.counter.currentBucket now key fixedResetAt
    if now - (c.heap ref).lastFlushAt ≥ flushIntervalMs then none
    else some (c.countHit ref, key, ref)
  | .resumeHit i => (s.waiting[i]?).bind fun w =>
    if (s.counter.heap w.bucket).pendingDelta = [] then none
    else some (s.counter, w.key, w.bucket)
  | .resumeTimer i now => (s.timerTasks[i]?).bind fun task =>
    if (s.counter.heap task.bucket).pendingDelta ≠ [] ∧
        (s.counter.heap task.bucket).resetAt > now ∧
        s.counter.buckets.get task.key = some task.bucket then
      some (s.counter, task.key, task.bucket)
    else none
  | _ => none

/-- Where a flush is scheduled for the bucket that the key has, in its window, the timer of the
key is not armed for another bucket. -/
def NoStaleTimer (s : System × ℤ) (e : ℤ × Event) : Prop :=
  ∀ c key ref, asked s.1 e.2 = some (c, key, ref) → c.buckets.get key = some ref →
    e.1 < (c.heap ref).resetAt → ∀ b, c.flushTimers.get key = some b → b = ref

instance (s : System × ℤ) (e : ℤ × Event) : Decidable (NoStaleTimer s e) :=
  decidable_of_iff (∀ x ∈ asked s.1 e.2, x.1.buckets.get x.2.1 = some x.2.2 →
      e.1 < (x.1.heap x.2.2).resetAt → ∀ b ∈ x.1.flushTimers.get x.2.1, b = x.2.2)
    ⟨fun h c key ref hasked => h (c, key, ref) hasked,
      fun h x hasked => h x.1 x.2.1 x.2.2 hasked⟩

/-! ## Who waits for a bucket -/

/-- A hit or a callback on a bucket awaits a promise. -/
def Awaits (s : System) (ref : ℕ) (on : Option ℕ) : Prop :=
  (∃ w ∈ s.waiting, w.bucket = ref ∧ w.on = on) ∨
    ∃ task ∈ s.timerTasks, task.bucket = ref ∧ task.on = on

/-- The buckets of the counter belong to keys, and so do those of its hits and callbacks. -/
structure Owned (owner : ℕ → String) (s : System) : Prop where
  buckets : ∀ key ref, s.counter.buckets.get key = some ref →
    ref < s.counter.nextBucket ∧ owner ref = key
  waiting : ∀ w ∈ s.waiting, w.bucket < s.counter.nextBucket ∧ owner w.bucket = w.key
  timerTasks : ∀ task ∈ s.timerTasks,
    task.bucket < s.counter.nextBucket ∧ owner task.bucket = task.key

/-- An upsert in flight is awaited on its bucket. -/
structure InFlight (s : System) : Prop where
  flight : ∀ key u, s.counter.flushInFlight.get key = some u → u < s.counter.nextUpsert ∧
    (s.counter.upserts u).key = key ∧ (s.counter.upserts u).finished = false
  sent : ∀ u < s.counter.nextUpsert, (s.counter.upserts u).status = .sent →
    (s.counter.upserts u).finished = false
  awaited : ∀ u < s.counter.nextUpsert, (s.counter.upserts u).finished = false →
    Awaits s (s.counter.upserts u).bucket (some u)

/-- A stored bucket with pending hits in its window has a timer, or is waited for. -/
def Tended (s : System) (now : ℤ) (key : String) (ref : ℕ) : Prop :=
  s.counter.buckets.get key = some ref → now < (s.counter.heap ref).resetAt →
    (s.counter.heap ref).pendingDelta ≠ [] →
    s.counter.flushTimers.get key = some ref ∨ ∃ on, Awaits s ref on

/-- What holds along the runs without a stale timer. -/
structure Watched (s : System × ℤ) : Prop where
  draining : s.1.counter.draining = false
  owned : ∃ owner, Owned owner s.1
  inFlight : InFlight s.1
  tended : ∀ key ref, Tended s.1 s.2 key ref

lemma watched_init (now : ℤ) : Watched ({}, now) where
  draining := rfl
  owned := ⟨fun _ => "", by
    constructor
    · intro key ref h
      cases h
    · intro w hw
      cases hw
    · intro task htask
      cases htask⟩
  inFlight := by
    constructor
    · intro key u h
      cases h
    · intro u hu
      exact absurd hu (Nat.not_lt_zero u)
    · intro u hu
      exact absurd hu (Nat.not_lt_zero u)
  tended key ref h := by cases h

/-! ## Steps around one key -/

lemma Awaits.mono {s s' : System} (hwaiting : ∀ w ∈ s.waiting, w ∈ s'.waiting)
    (htasks : ∀ task ∈ s.timerTasks, task ∈ s'.timerTasks) {ref : ℕ} {on : Option ℕ}
    (h : Awaits s ref on) : Awaits s' ref on := by
  rcases h with ⟨w, hw, hon⟩ | ⟨task, htask, hon⟩
  · exact Or.inl ⟨w, hwaiting w hw, hon⟩
  · exact Or.inr ⟨task, htasks task htask, hon⟩

/-- What holds of the other keys in the middle of a section on one key. -/
structure WatchedBut (key : String) (s : System × ℤ) : Prop where
  draining : s.1.counter.draining = false
  owned : ∃ owner, Owned owner s.1
  inFlight : InFlight s.1
  tended : ∀ k ≠ key, ∀ ref, Tended s.1 s.2 k ref

lemma WatchedBut.watched {key : String} {s : System × ℤ} (h : WatchedBut key s)
    (hkey : ∀ ref, Tended s.1 s.2 key ref) : Watched s where
  draining := h.draining
  owned := h.owned
  inFlight := h.inFlight
  tended k ref := by
    by_cases hk : k = key
    · exact hk ▸ hkey ref
    · exact h.tended k hk ref

/-- A step that leaves the other keys alone. -/
lemma Watched.but {s s' : System} {now now' : ℤ} (h : Watched (s, now)) (hle : now ≤ now')
    (key : String) (hdraining : s'.counter.draining = false) (howned : ∃ owner, Owned owner s')
    (hflight : InFlight s')
    (hbuckets : ∀ k ≠ key, ∀ r, s'.counter.buckets.get k = some r →
      s.counter.buckets.get k = some r ∧
        (s'.counter.heap r).pendingDelta = (s.counter.heap r).pendingDelta ∧
        (s'.counter.heap r).resetAt = (s.counter.heap r).resetAt)
    (htimers : ∀ k ≠ key, ∀ r, s.counter.flushTimers.get k = some r →
      s'.counter.flushTimers.get k = some r)
    (hawaits : ∀ k ≠ key, ∀ r, s.counter.buckets.get k = some r → ∀ on, Awaits s r on →
      Awaits s' r on) : WatchedBut key (s', now') where
  draining := hdraining
  owned := howned
  inFlight := hflight
  tended k hk r := by
    intro hget hreset hpending
    obtain ⟨hget', hpending', hreset'⟩ := hbuckets k hk r hget
    rw [hpending'] at hpending
    rw [hreset'] at hreset
    rcases h.tended k r hget' (hle.trans_lt hreset) hpending with harmed | ⟨on, hon⟩
    · exact Or.inl (htimers k hk r harmed)
    · exact Or.inr ⟨on, hawaits k hk r hget' on hon⟩

/-- The upserts are as they were, and no wait for one in flight is over. -/
lemma InFlight.congr {s s' : System} (h : InFlight s)
    (hflight : s'.counter.flushInFlight = s.counter.flushInFlight)
    (hnext : s'.counter.nextUpsert = s.counter.nextUpsert)
    (hupserts : s'.counter.upserts = s.counter.upserts)
    (hawaits : ∀ u < s.counter.nextUpsert, (s.counter.upserts u).finished = false →
      ∀ ref, Awaits s ref (some u) → Awaits s' ref (some u)) : InFlight s' where
  flight key u hget := by
    rw [hflight] at hget
    rw [hnext, hupserts]
    exact h.flight key u hget
  sent u hu := by
    rw [hupserts]
    rw [hnext] at hu
    exact h.sent u hu
  awaited u hu hfinished := by
    rw [hupserts] at hfinished ⊢
    rw [hnext] at hu
    exact hawaits u hu hfinished _ (h.awaited u hu hfinished)

/-! ## Scheduling -/

lemma scheduleFlush_timers {c : Counter} (key : String) (ref : ℕ) {k : String} {b : ℕ}
    (h : c.flushTimers.get k = some b) : (c.scheduleFlush key ref).flushTimers.get k = some b := by
  unfold scheduleFlush
  split_ifs with hhas
  · exact h
  · have hk : k ≠ key := by
      rintro rfl
      unfold JsMap.has at hhas
      rw [h] at hhas
      simp at hhas
    exact (JsMap.get_set_of_ne hk ref).trans h

/-- Unless the timer is armed for another bucket it is armed for this one. -/
lemma scheduleFlush_arms {c : Counter} (hdraining : c.draining = false) {key : String} {ref : ℕ}
    (h : ∀ b, c.flushTimers.get key = some b → b = ref) :
    (c.scheduleFlush key ref).flushTimers.get key = some ref := by
  cases hget : c.flushTimers.get key with
  | some b =>
    rw [h b hget] at hget
    exact scheduleFlush_timers key ref hget
  | none =>
    have hhas : c.flushTimers.has key = false := by
      unfold JsMap.has
      rw [hget]
      rfl
    unfold scheduleFlush
    rw [hdraining, hhas, if_neg (by decide)]
    exact JsMap.get_set_self ..

lemma scheduleFlush_eq (c : Counter) (key : String) (ref : ℕ) :
    ∃ timers, c.scheduleFlush key ref = { c with flushTimers := timers } := by
  unfold scheduleFlush
  split_ifs
  · exact ⟨c.flushTimers, rfl⟩
  · exact ⟨_, rfl⟩

/-- A hit or a callback goes on, and a flush may be scheduled for its bucket. -/
lemma Watched.resume {s s' : System} {now now' : ℤ} (h : Watched (s, now)) (hle : now ≤ now')
    (key : String) (ref : ℕ) (on : Option ℕ)
    (hcounter : s'.counter = s.counter ∨ s'.counter = s.counter.scheduleFlush key ref)
    (hwaiting : ∀ w ∈ s'.waiting, w ∈ s.waiting)
    (htasks : ∀ task ∈ s'.timerTasks, task ∈ s.timerTasks)
    (hrest : ∀ r p, Awaits s r p → Awaits s' r p ∨ (r = ref ∧ p = on))
    (hsettled : settled s.counter on = true)
    (hkey : ∀ k, s.counter.buckets.get k = some ref → k = key)
    (harm : s.counter.buckets.get key = some ref → now' < (s.counter.heap ref).resetAt →
      (s.counter.heap ref).pendingDelta ≠ [] → s'.counter.flushTimers.get key = some ref) :
    Watched (s', now') := by
  obtain ⟨timers, hfields⟩ : ∃ timers, s'.counter = { s.counter with flushTimers := timers } := by
    rcases hcounter with heq | heq
    · exact ⟨s.counter.flushTimers, heq⟩
    · obtain ⟨timers, htimers⟩ := scheduleFlush_eq s.counter key ref
      exact ⟨timers, heq.trans htimers⟩
  have hbuckets : s'.counter.buckets = s.counter.buckets := by rw [hfields]
  have hheap : s'.counter.heap = s.counter.heap := by rw [hfields]
  have hnext : s'.counter.nextBucket = s.counter.nextBucket := by rw [hfields]
  have htimers : ∀ k r, s.counter.flushTimers.get k = some r →
      s'.counter.flushTimers.get k = some r := by
    intro k r hget
    rcases hcounter with heq | heq
    · rw [heq]
      exact hget
    · rw [heq]
      exact scheduleFlush_timers key ref hget
  refine (h.but hle key ?_ ?_ ?_ ?_ (fun k _ r => htimers k r) ?_).watched ?_
  · rw [hfields]
    exact h.draining
  · obtain ⟨owner, howner⟩ := h.owned
    refine ⟨owner, ?_, ?_, ?_⟩
    · rw [hbuckets, hnext]
      exact howner.buckets
    · rw [hnext]
      exact fun w hw => howner.waiting w (hwaiting w hw)
    · rw [hnext]
      exact fun task htask => howner.timerTasks task (htasks task htask)
  · refine h.inFlight.congr (by rw [hfields]) (by rw [hfields]) (by rw [hfields]) ?_
    intro u hu hfinished r hawaits
    rcases hrest r (some u) hawaits with hleft | ⟨-, hon⟩
    · exact hleft
    · -- what was waited for has finished
      have hdone : (s.counter.upserts u).finished = true := by
        rw [← hon] at hsettled
        exact hsettled
      rw [hfinished] at hdone
      cases hdone
  · intro k _ r hget
    rw [hbuckets] at hget
    rw [hheap]
    exact ⟨hget, rfl, rfl⟩
  · intro k hk r hget p hawaits
    rcases hrest r p hawaits with hleft | ⟨rfl, -⟩
    · exact hleft
    · exact absurd (hkey k hget) hk
  · intro r hget hreset hpending
    rw [hbuckets] at hget
    rw [hheap] at hreset hpending
    by_cases hr : r = ref
    · subst hr
      exact Or.inl (harm hget hreset hpending)
    · rcases h.tended key r hget (hle.trans_lt hreset) hpending with harmed | ⟨p, hawaits⟩
      · exact Or.inl (htimers key r harmed)
      · rcases hrest r p hawaits with hleft | ⟨heq, -⟩
        · exact Or.inr ⟨p, hleft⟩
        · exact absurd heq hr

/-- All but the one at a place are left when that one goes. -/
lemma mem_eraseIdx_or {α : Type*} {l : List α} {i : ℕ} {x y : α} (hi : l[i]? = some x)
    (hy : y ∈ l) : y ∈ l.eraseIdx i ∨ y = x := by
  obtain ⟨j, hj⟩ := List.mem_iff_getElem?.mp hy
  by_cases hij : j = i
  · subst hij
    exact Or.inr (Option.some.inj (hj.symm.trans hi))
  · exact Or.inl (List.mem_eraseIdx_iff_getElem?.mpr ⟨j, hij, hj⟩)

lemma watched_resumeHit {s : System} {now now' : ℤ} (h : Watched (s, now)) (hle : now ≤ now')
    {i : ℕ} {w : Waiting} (hw : s.waiting[i]? = some w) (hsettled : settled s.counter w.on = true)
    (hstale : NoStaleTimer (s, now) (now', .resumeHit i)) :
    Watched (stepResumeHit ⟨true⟩ s i w, now') := by
  obtain ⟨owner, howner⟩ := h.owned
  have hcounter : (stepResumeHit ⟨true⟩ s i w).counter =
      if (s.counter.heap w.bucket).pendingDelta ≠ [] then
        s.counter.scheduleFlush w.key w.bucket else s.counter := by
    unfold stepResumeHit finishHit
    simp only [Bool.true_and, decide_eq_true_eq]
  refine h.resume hle w.key w.bucket w.on ?_ ?_ (fun _ => id) ?_ hsettled
    ?_ ?_
  · rw [hcounter]
    split_ifs
    · exact Or.inr rfl
    · exact Or.inl rfl
  · exact fun w' hw' => List.mem_of_mem_eraseIdx hw'
  · rintro r p (⟨w', hw', hr, hp⟩ | htask)
    · rcases mem_eraseIdx_or hw hw' with hleft | rfl
      · exact Or.inl (Or.inl ⟨w', hleft, hr, hp⟩)
      · exact Or.inr ⟨hr.symm, hp.symm⟩
    · exact Or.inl (Or.inr htask)
  · intro k hget
    rw [← (howner.buckets k _ hget).2, (howner.waiting w (List.mem_of_getElem? hw)).2]
  · intro hget hreset hpending
    have hasked : asked s (.resumeHit i) = some (s.counter, w.key, w.bucket) := by
      unfold asked
      simp only [hw, Option.bind_some, if_neg hpending]
    rw [hcounter, if_pos hpending]
    exact scheduleFlush_arms h.draining (hstale _ _ _ hasked hget hreset)

lemma watched_resumeTimer {s : System} {now now' : ℤ} (h : Watched (s, now)) (hle : now ≤ now')
    {i : ℕ} {task : TimerTask} (htask : s.timerTasks[i]? = some task)
    (hsettled : settled s.counter task.on = true)
    (hstale : NoStaleTimer (s, now) (now', .resumeTimer i now')) :
    Watched (stepResumeTimer s i task now', now') := by
  obtain ⟨owner, howner⟩ := h.owned
  refine h.resume hle task.key task.bucket task.on ?_ (fun _ => id) ?_ ?_
    hsettled ?_ ?_
  · unfold stepResumeTimer
    dsimp only
    split_ifs
    · exact Or.inr rfl
    · exact Or.inl rfl
  · exact fun task' htask' => List.mem_of_mem_eraseIdx htask'
  · rintro r p (hw | ⟨task', htask', hr, hp⟩)
    · exact Or.inl (Or.inl hw)
    · rcases mem_eraseIdx_or htask htask' with hleft | rfl
      · exact Or.inl (Or.inr ⟨task', hleft, hr, hp⟩)
      · exact Or.inr ⟨hr.symm, hp.symm⟩
  · intro k hget
    rw [← (howner.buckets k _ hget).2, (howner.timerTasks task (List.mem_of_getElem? htask)).2]
  · intro hget hreset hpending
    have hasked : asked s (.resumeTimer i now') = some (s.counter, task.key, task.bucket) := by
      unfold asked
      simp only [htask, Option.bind_some]
      rw [if_pos ⟨hpending, hreset, hget⟩]
    unfold stepResumeTimer
    dsimp only
    rw [if_pos ⟨hpending, hreset, hget⟩]
    exact scheduleFlush_arms h.draining (hstale _ _ _ hasked hget hreset)

end RateLimitCounter
end FirecrawlGateway
