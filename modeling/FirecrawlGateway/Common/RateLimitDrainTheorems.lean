import FirecrawlGateway.Common.RateLimitDrain

/-!
# What a drain leaves behind

After `q` passes, a bucket that still has pending hits had `q` upserts of the drain rejected. A
drain that has resolved has made three passes, or found nothing pending.
-/

namespace FirecrawlGateway
namespace RateLimitCounter

open Counter

/-! ## What is claimed of a drain -/

/-- A section that starts neither a hit nor another drain. -/
def Event.quiet : Event → Bool
  | .hit _ _ _ => false
  | .drain => false
  | _ => true

namespace Counter

/-- The upserts from number `first` on that were sent for a bucket and rejected. -/
def failed (first : ℕ) (c : Counter) (ref : ℕ) : Finset ℕ :=
  {u ∈ Finset.Ico first c.nextUpsert |
    (c.upserts u).bucket = ref ∧ (c.upserts u).status = .rejected}

/-- What a drain leaves whose first upsert has number `first`: nothing in flight, and hits pending
only where three of its upserts failed. The pending hits of a bucket are those that were neither
written nor dropped at the end of a window. -/
structure Drained (first : ℕ) (c : Counter) : Prop where
  finished : ∀ u < c.nextUpsert, (c.upserts u).finished = true
  idle : ∀ key, c.flushInFlight.get key = none
  persisted : ∀ key ref, c.buckets.get key = some ref →
    (c.heap ref).pendingDelta = [] ∨ 3 ≤ (failed first c ref).card
  unwritten : ∀ key ref, c.buckets.get key = some ref →
    ((c.heap ref).pendingDelta : Multiset ℕ) + c.upserted ref .resolved + (c.heap ref).dropped =
      Multiset.range (c.heap ref).made

end Counter

/-- What holds from the call of `drain` on. -/
structure DrainSound (o : Options) (first : ℕ) (s : System) : Prop where
  /-- No timer is armed, and none is armed later. -/
  timers : ∀ es t, EventMachine.run (step o) s es = some t → t.counter.flushTimers = ∅
  /-- Only the drain sends upserts, and only for buckets whose window has not ended. -/
  current : ∀ e s', e.quiet = true → step o s e = some s' →
    ∀ u, s.counter.nextUpsert ≤ u → u < s'.counter.nextUpsert →
      ∃ i now, e = .resumeDrain i now ∧ now < (s.counter.heap (s'.counter.upserts u).bucket).resetAt
  /-- The drain goes on however the upserts that it awaits ended. -/
  goesOn : ∀ i task, s.drains[i]? = some task →
    (∀ u ∈ task.on, (s.counter.upserts u).finished = true) →
      ∀ now, (step o s (.resumeDrain i now)).isSome
  resolved : s.drains = [] → Drained first s.counter

/-! ## No more timers -/

namespace Counter

/-- The counter drains, and no timer is armed. -/
structure Stopped (c : Counter) : Prop where
  draining : c.draining = true
  timers : c.flushTimers = ∅

lemma Stopped.congr {c c' : Counter} (h : Stopped c) (hdraining : c'.draining = c.draining)
    (htimers : c'.flushTimers = c.flushTimers) : Stopped c' :=
  ⟨hdraining.trans h.draining, htimers.trans h.timers⟩

lemma scheduleFlush_of_stopped {c : Counter} (h : Stopped c) (key : String) (ref : ℕ) :
    c.scheduleFlush key ref = c := by
  unfold scheduleFlush
  rw [h.draining, Bool.true_or, if_pos rfl]

lemma finishHit_of_stopped {c : Counter} (h : Stopped c) (o : Options) (key : String) (ref : ℕ) :
    (finishHit o c key ref).1 = c := by
  unfold finishHit
  dsimp only
  rw [scheduleFlush_of_stopped h, ite_self]

lemma Stopped.flushBucket {c : Counter} (h : Stopped c) (now : ℤ) (key : String) (ref : ℕ)
    (fixedResetAt : Option ℤ) : Stopped (c.flushBucket now key ref fixedResetAt).1 := by
  have hflushed := flushBucket_flushed c now key ref fixedResetAt
  exact h.congr hflushed.draining hflushed.flushTimers

lemma Stopped.finishUpsert {c : Counter} (h : Stopped c) (u : ℕ) : Stopped (c.finishUpsert u) := by
  obtain ⟨flights, heq⟩ := finishUpsert_eq c u
  rw [heq]
  exact h.congr rfl rfl

lemma Stopped.flushAll {c : Counter} (h : Stopped c) (now : ℤ) (pending : List (String × ℕ)) :
    Stopped (Counter.flushAll now c pending).1 := by
  induction pending generalizing c with
  | nil => exact h
  | cons e pending ih =>
    have hflushed := flushIfCurrent_flushed c now e.1 e.2
    exact ih (h.congr hflushed.draining hflushed.flushTimers)

end Counter

lemma stopped_step {o : Options} {s s' : System} {e : Event} (h : Stopped s.counter)
    (hstep : step o s e = some s') : Stopped s'.counter := by
  cases e with
  | hit key fixedResetAt now =>
    cases hstep
    have hcurrent := currentBucket_current s.counter now key fixedResetAt
    have hcounted : Stopped ((s.counter.currentBucket now key fixedResetAt).1.countHit
        (s.counter.currentBucket now key fixedResetAt).2) :=
      h.congr hcurrent.draining hcurrent.flushTimers
    unfold stepHit
    dsimp only
    split_ifs
    · exact hcounted.flushBucket now key _ fixedResetAt
    · dsimp only
      rw [finishHit_of_stopped hcounted]
      exact hcounted
  | resumeHit i =>
    simp only [step] at hstep
    split at hstep
    · split_ifs at hstep
      cases hstep
      unfold stepResumeHit
      dsimp only
      rw [finishHit_of_stopped h]
      exact h
    · cases hstep
  | settle u outcome =>
    simp only [step] at hstep
    split_ifs at hstep
    cases hstep
    obtain ⟨status, bucket, -, heq⟩ := settleUpsert_eq s.counter u outcome
    dsimp only
    rw [heq]
    exact h.congr rfl rfl
  | finish u =>
    simp only [step] at hstep
    split_ifs at hstep
    cases hstep
    exact h.finishUpsert u
  | fire key now =>
    simp only [step, h.timers] at hstep
    cases hstep
  | resumeTimer i now =>
    simp only [step] at hstep
    split at hstep
    · split_ifs at hstep
      cases hstep
      unfold stepResumeTimer
      dsimp only
      rw [scheduleFlush_of_stopped h, ite_self]
      exact h
    · cases hstep
  | drain =>
    cases hstep
    exact ⟨rfl, rfl⟩
  | resumeDrain i now =>
    simp only [step] at hstep
    split at hstep
    · split_ifs at hstep
      cases hstep
      unfold stepResumeDrain
      split
      · dsimp only
        split_ifs
        · exact h
        · exact h.flushAll now _
      · dsimp only
        split_ifs
        · exact h
        · exact h
    · cases hstep

/-! ## Failed upserts -/

namespace Counter

variable {first q : ℕ} {c : Counter}

lemma failed_subset {c' : Counter} (hle : c.nextUpsert ≤ c'.nextUpsert)
    (hkept : ∀ u < c.nextUpsert, (c.upserts u).status = .rejected →
      (c'.upserts u).bucket = (c.upserts u).bucket ∧ (c'.upserts u).status = .rejected) (ref : ℕ) :
    failed first c ref ⊆ failed first c' ref := by
  intro u hu
  obtain ⟨hico, hbucket, hstatus⟩ := Finset.mem_filter.mp hu
  obtain ⟨hfirst, hlt⟩ := Finset.mem_Ico.mp hico
  obtain ⟨hbucket', hstatus'⟩ := hkept u hlt hstatus
  exact Finset.mem_filter.mpr
    ⟨Finset.mem_Ico.mpr ⟨hfirst, hlt.trans_le hle⟩, hbucket'.trans hbucket, hstatus'⟩

/-- An answer fails no other upsert. -/
lemma failed_answer {u : ℕ} (hsent : (c.upserts u).status = .sent) (status : UpsertStatus)
    (ref : ℕ) : failed first c ref ⊆ failed first (c.answer u status) ref := by
  have hle : c.nextUpsert ≤ (c.answer u status).nextUpsert := Nat.le_refl _
  refine failed_subset hle (fun v _ hrejected => ?_) ref
  have hv : v ≠ u := by
    rintro rfl
    rw [hsent] at hrejected
    cases hrejected
  have hold : (c.answer u status).upserts v = c.upserts v := Function.update_of_ne hv _ _
  rw [hold]
  exact ⟨rfl, hrejected⟩

/-- A rejection is one more failed upsert of the bucket. -/
lemma card_failed_rejected {u : ℕ} (hfirst : first ≤ u) (hu : u < c.nextUpsert)
    (hsent : (c.upserts u).status = .sent) :
    (failed first c (c.upserts u).bucket).card <
      (failed first (c.answer u .rejected) (c.upserts u).bucket).card := by
  refine Finset.card_lt_card (Finset.ssubset_iff_subset_ne.mpr
    ⟨failed_answer hsent .rejected _, fun heq => ?_⟩)
  have hself : (c.answer u .rejected).upserts u = { c.upserts u with status := .rejected } :=
    Function.update_self ..
  have hmem : u ∈ failed first (c.answer u .rejected) (c.upserts u).bucket := by
    refine Finset.mem_filter.mpr ⟨Finset.mem_Ico.mpr ⟨hfirst, hu⟩, ?_⟩
    rw [hself]
    exact ⟨rfl, rfl⟩
  rw [← heq] at hmem
  have hstatus := (Finset.mem_filter.mp hmem).2.2
  rw [hsent] at hstatus
  cases hstatus

/-- A bucket with pending hits had `q` upserts rejected, and one with an upsert in flight will have
if that one is rejected too. -/
structure Tried (first q : ℕ) (c : Counter) : Prop where
  pending : ∀ key ref, c.buckets.get key = some ref → (c.heap ref).pendingDelta ≠ [] →
    q ≤ (failed first c ref).card
  sent : ∀ u < c.nextUpsert, (c.upserts u).status = .sent →
    q = 0 ∨ first ≤ u ∧ q ≤ (failed first c (c.upserts u).bucket).card + 1

lemma tried_zero (first : ℕ) (c : Counter) : Tried first 0 c :=
  ⟨fun _ _ _ _ => Nat.zero_le _, fun _ _ _ => Or.inl rfl⟩

/-- What is rejected is given back, and what is resolved changes no pending hits. -/
lemma Tried.settleUpsert (h : Tried first q c) {u : ℕ} (hu : u < c.nextUpsert)
    (hsent : (c.upserts u).status = .sent) (outcome : Outcome) :
    Tried first q (c.settleUpsert u outcome) := by
  have hother : ∀ status, status ≠ .sent → ∀ v,
      ((c.answer u status).upserts v).status = .sent → v ≠ u ∧
        (c.answer u status).upserts v = c.upserts v := by
    intro status hstatus v hv
    by_cases hvu : v = u
    · rw [hvu] at hv
      have hself : (c.answer u status).upserts u = { c.upserts u with status := status } :=
        Function.update_self ..
      rw [hself] at hv
      exact absurd hv hstatus
    · exact ⟨hvu, Function.update_of_ne hvu _ _⟩
  have hsame : ∀ status ref, (failed first c ref).card ≤
      (failed first (c.answer u status) ref).card := fun status ref =>
    Finset.card_le_card (failed_answer hsent status ref)
  have hstill : ∀ status, status ≠ .sent → ∀ v < c.nextUpsert,
      ((c.answer u status).upserts v).status = .sent → q = 0 ∨ first ≤ v ∧
        q ≤ (failed first (c.answer u status) ((c.answer u status).upserts v).bucket).card + 1 := by
    intro status hstatus v hv hvsent
    obtain ⟨-, heq⟩ := hother status hstatus v hvsent
    rw [heq] at hvsent ⊢
    rcases h.sent v hv hvsent with hzero | ⟨hfirst, hcard⟩
    · exact Or.inl hzero
    · exact Or.inr ⟨hfirst, hcard.trans (Nat.succ_le_succ (hsame status _))⟩
  rcases settleUpsert_cases c u outcome with ⟨-, heq⟩ | ⟨-, heq⟩ | ⟨count, resetAt, -, heq⟩
  · rw [heq]
    refine ⟨fun key ref hget hpending => ?_, hstill .rejected (by decide)⟩
    by_cases href : ref = (c.upserts u).bucket
    · show q ≤ (failed first (c.answer u .rejected) ref).card
      rcases h.sent u hu hsent with hzero | ⟨hfirst, hcard⟩
      · rw [hzero]
        exact Nat.zero_le _
      · rw [href]
        exact hcard.trans (card_failed_rejected hfirst hu hsent)
    · have hheap : ((c.answer u .rejected).restore (c.upserts u).bucket
          (c.upserts u).delta).heap ref = c.heap ref := modify_heap_of_ne href _
      rw [hheap] at hpending
      exact (h.pending key ref hget hpending).trans (hsame .rejected ref)
  · rw [heq]
    exact ⟨fun key ref hget hpending => (h.pending key ref hget hpending).trans
      (hsame .resolved ref), hstill .resolved (by decide)⟩
  · rw [heq]
    refine ⟨fun key ref hget hpending => ?_, hstill .resolved (by decide)⟩
    have hheap : (((c.answer u .resolved).sync (c.upserts u).bucket count resetAt).heap
        ref).pendingDelta = (c.heap ref).pendingDelta :=
      modify_heap (c := c.answer u .resolved) Bucket.pendingDelta rfl ref
    rw [hheap] at hpending
    exact (h.pending key ref hget hpending).trans (hsame .resolved ref)

lemma Tried.finishUpsert (h : Tried first q c) (u : ℕ) : Tried first q (c.finishUpsert u) := by
  obtain ⟨flights, heq⟩ := finishUpsert_eq c u
  have hbucket := fun i => update_upserts (c := c) (u := u)
    (x := { c.upserts u with finished := true }) Upsert.bucket rfl i
  have hstatus := fun i => update_upserts (c := c) (u := u)
    (x := { c.upserts u with finished := true }) Upsert.status rfl i
  have hsame : ∀ ref, (failed first c ref).card ≤ (failed first (c.finishUpsert u) ref).card := by
    intro ref
    have hle : c.nextUpsert ≤ (c.finishUpsert u).nextUpsert := by rw [heq]
    refine Finset.card_le_card (failed_subset hle (fun v _ hrejected => ?_) ref)
    rw [heq]
    exact ⟨hbucket v, (hstatus v).trans hrejected⟩
  rw [heq] at hsame ⊢
  constructor
  · intro key ref hget hpending
    exact (h.pending key ref hget hpending).trans (hsame ref)
  · intro v hv hsent
    dsimp only at hsent ⊢
    rw [hstatus] at hsent
    rw [hbucket]
    rcases h.sent v hv hsent with hzero | ⟨hfirst, hcard⟩
    · exact Or.inl hzero
    · exact Or.inr ⟨hfirst, hcard.trans (Nat.succ_le_succ (hsame _))⟩

lemma Flights.idle (h : Flights c) (hfinished : ∀ u < c.nextUpsert, (c.upserts u).finished = true)
    (key : String) : c.flushInFlight.get key = none := by
  cases hget : c.flushInFlight.get key with
  | none => rfl
  | some u =>
    obtain ⟨hu, -, hunfinished⟩ := h.flight key u hget
    rw [hfinished u hu] at hunfinished
    cases hunfinished

/-- Where nothing is in flight, a pass flushes every bucket that it has to. -/
lemma Flights.passed (h : Flights c) (now : ℤ)
    (hfinished : ∀ u < c.nextUpsert, (c.upserts u).finished = true) :
    Passed now c.pendingBuckets c (Counter.flushAll now c c.pendingBuckets).1
      (Counter.flushAll now c c.pendingBuckets).2 := by
  refine flushAll_passed now ?_ fun k _ => h.idle hfinished k
  exact c.buckets.nodup.sublist (List.filter_sublist.map Prod.fst)

/-- A pass clears what is pending, and its upserts are one more try of their buckets. -/
lemma Tried.passed {now : ℤ} {c' : Counter} {promises : List ℕ} (h : Tried first q c)
    (hfirst : first ≤ c.nextUpsert) (hnone : ∀ u < c.nextUpsert, (c.upserts u).status ≠ .sent)
    (hpassed : Passed now c.pendingBuckets c c' promises) : Tried first (q + 1) c' := by
  have hpending : ∀ ref, ref ∈ c.pendingBuckets.map Prod.snd →
      ∃ key, c.buckets.get key = some ref ∧ (c.heap ref).pendingDelta ≠ [] := by
    intro ref href
    obtain ⟨e, he, rfl⟩ := List.mem_map.mp href
    obtain ⟨hentry, hdelta⟩ := List.mem_filter.mp he
    exact ⟨e.1, JsMap.mem_entries.mp hentry, of_decide_eq_true hdelta⟩
  constructor
  · intro key ref hget hdelta
    rw [hpassed.buckets] at hget
    by_cases href : ref ∈ c.pendingBuckets.map Prod.snd
    · exact absurd (hpassed.cleared ref href) hdelta
    · rw [hpassed.kept ref href] at hdelta
      have hmem : (key, ref) ∈ c.pendingBuckets :=
        List.mem_filter.mpr ⟨JsMap.mem_entries.mpr hget, decide_eq_true hdelta⟩
      exact absurd (List.mem_map_of_mem (f := Prod.snd) hmem) href
  · intro u hu hsent
    by_cases hold : u < c.nextUpsert
    · rw [hpassed.upserts u hold] at hsent
      exact absurd hsent (hnone u hold)
    · have hle := not_lt.mp hold
      obtain ⟨key, hget, hdelta⟩ := hpending _ (hpassed.sent u hle hu).2.2.1
      have hsame : failed first c (c'.upserts u).bucket ⊆ failed first c' (c'.upserts u).bucket := by
        refine failed_subset hpassed.le (fun v hv hrejected => ?_) _
        rw [hpassed.upserts v hv]
        exact ⟨rfl, hrejected⟩
      refine Or.inr ⟨hfirst.trans hle, Nat.succ_le_succ ?_⟩
      exact (h.pending key _ hget hdelta).trans (Finset.card_le_card hsame)

end Counter

/-! ## The drain, pass by pass -/

/-- How far the drain is: `q` passes have sent their upserts, and it awaits those of `on`. -/
inductive Progress (s : System) : ℕ → List ℕ → Prop
  | settling {pass : ℕ} {on : List ℕ} (h : s.drains = [⟨pass, .settling, on⟩]) (hpass : pass < 3) :
      Progress s pass on
  | flushing {pass : ℕ} {on : List ℕ} (h : s.drains = [⟨pass, .flushing, on⟩]) (hpass : pass < 3) :
      Progress s (pass + 1) on
  | resolved (h : s.drains = []) : Progress s 3 []

lemma Progress.congr {s s' : System} {q : ℕ} {on : List ℕ} (h : Progress s q on)
    (hdrains : s'.drains = s.drains) : Progress s' q on := by
  cases h with
  | settling h hpass => exact .settling (hdrains.trans h) hpass
  | flushing h hpass => exact .flushing (hdrains.trans h) hpass
  | resolved h => exact .resolved (hdrains.trans h)

/-- The drain awaits all that is in flight. -/
structure Advanced (first : ℕ) (s : System) : Prop where
  le : first ≤ s.counter.nextUpsert
  progress : ∃ q on, Progress s q on ∧ Tried first q s.counter ∧
    ∀ u < s.counter.nextUpsert, (s.counter.upserts u).finished = false → u ∈ on

lemma Advanced.congr {first : ℕ} {s s' : System} (h : Advanced first s)
    (hcounter : s'.counter = s.counter) (hdrains : s'.drains = s.drains) : Advanced first s' := by
  obtain ⟨hle, q, on, hprogress, htried, hunfinished⟩ := h
  refine ⟨?_, q, on, hprogress.congr hdrains, ?_, ?_⟩
  all_goals rwa [hcounter]

structure Draining (first : ℕ) (s : System) : Prop where
  stopped : Stopped s.counter
  sound : Sound s.counter
  flights : Flights s.counter
  advanced : Advanced first s

lemma Draining.start {o : Options} {s s' : System} (hreach : Reachable o s) (halone : s.drains = [])
    (hstep : step o s .drain = some s') : Draining s.counter.nextUpsert s' := by
  have hsound := step_sound hstep hreach.sound
  have hflights := flights_step hreach.flights hstep
  cases hstep
  refine ⟨⟨rfl, rfl⟩, hsound, hflights, Nat.le_refl _, 0, s.counter.flushInFlight.values,
    .settling ?_ (by decide), tried_zero _ _, fun u hu hunfinished => ?_⟩
  · dsimp only
    rw [halone, List.nil_append]
  · have hget := hreach.flights.unfinished u hu hunfinished
    exact List.mem_map.mpr ⟨_, JsMap.mem_entries.mpr hget, rfl⟩

/-- What a section of the drain does once all it awaits is settled. -/
lemma resumeDrain_cases {o : Options} {first : ℕ} {s s' : System} {i : ℕ} {now : ℤ}
    (h : Draining first s) (hstep : step o s (.resumeDrain i now) = some s') :
    (∀ u < s.counter.nextUpsert, (s.counter.upserts u).finished = true) ∧
    ∃ pass, pass < 3 ∧
      ((Tried first pass s.counter ∧ s.counter.pendingBuckets = [] ∧ s' = { s with drains := [] }) ∨
      (Tried first pass s.counter ∧ s' = { s with
        counter := (flushAll now s.counter s.counter.pendingBuckets).1
        drains := [⟨pass, .flushing, (flushAll now s.counter s.counter.pendingBuckets).2⟩] }) ∨
      (Tried first (pass + 1) s.counter ∧ pass + 1 < 3 ∧ s' = { s with
        drains := [⟨pass + 1, .settling, s.counter.flushInFlight.values⟩] }) ∨
      (Tried first 3 s.counter ∧ s' = { s with drains := [] })) := by
  obtain ⟨q, on, hprogress, htried, hunfinished⟩ := h.advanced.progress
  simp only [step] at hstep
  split at hstep
  swap
  · cases hstep
  rename_i task htask
  split_ifs at hstep with hsettled
  cases hstep
  have hall : ∀ tasks, s.drains = [tasks] → i = 0 ∧ task = tasks := by
    intro tasks hdrains
    rw [hdrains] at htask
    cases i with
    | zero => exact ⟨rfl, (Option.some.inj htask).symm⟩
    | succ i => cases htask
  have hfinished : task.on = on → ∀ u < s.counter.nextUpsert,
      (s.counter.upserts u).finished = true := by
    intro hon u hu
    by_contra hnot
    have hmem := hunfinished u hu (by simpa using hnot)
    exact hnot (List.all_eq_true.mp hsettled u (hon ▸ hmem))
  cases hprogress with
  | settling hdrains hpass =>
    obtain ⟨rfl, rfl⟩ := hall _ hdrains
    refine ⟨hfinished rfl, q, hpass, ?_⟩
    unfold stepResumeDrain
    dsimp only
    split_ifs with hpending
    · refine Or.inl ⟨htried, hpending, ?_⟩
      rw [hdrains]
      rfl
    · refine Or.inr (Or.inl ⟨htried, ?_⟩)
      rw [hdrains]
      rfl
  | @flushing pass _ hdrains hpass =>
    obtain ⟨rfl, rfl⟩ := hall _ hdrains
    refine ⟨hfinished rfl, pass, hpass, ?_⟩
    unfold stepResumeDrain
    dsimp only
    split_ifs with hmore
    · refine Or.inr (Or.inr (Or.inl ⟨htried, hmore, ?_⟩))
      rw [hdrains]
      rfl
    · have hlast : pass + 1 = 3 := by omega
      refine Or.inr (Or.inr (Or.inr ⟨hlast ▸ htried, ?_⟩))
      rw [hdrains]
      rfl
  | resolved hdrains =>
    rw [hdrains] at htask
    cases htask

/-- The sections of the drain itself. -/
lemma advanced_resumeDrain {o : Options} {first : ℕ} {s s' : System} {i : ℕ} {now : ℤ}
    (h : Draining first s) (hstep : step o s (.resumeDrain i now) = some s') :
    Advanced first s' := by
  obtain ⟨hfinished, pass, hpass, hcases⟩ := resumeDrain_cases h hstep
  have hnone : ∀ u < s.counter.nextUpsert, (s.counter.upserts u).status ≠ .sent := by
    intro u hu hsent
    have hunfinished := h.flights.sent u hu hsent
    rw [hfinished u hu] at hunfinished
    cases hunfinished
  have hidle : ∀ on : List ℕ, ∀ u < s.counter.nextUpsert, (s.counter.upserts u).finished = false →
      u ∈ on := by
    intro on u hu hunfinished
    rw [hfinished u hu] at hunfinished
    cases hunfinished
  rcases hcases with ⟨htried, hpending, rfl⟩ | ⟨htried, rfl⟩ | ⟨htried, hmore, rfl⟩ | ⟨htried, rfl⟩
  · -- nothing was pending, so that the bound on what is pending says nothing
    refine ⟨h.advanced.le, 3, [], .resolved rfl, ⟨fun key ref hget hdelta => ?_, fun u hu hsent => ?_⟩,
      hidle []⟩
    · have hmem : (key, ref) ∈ s.counter.pendingBuckets :=
        List.mem_filter.mpr ⟨JsMap.mem_entries.mpr hget, decide_eq_true hdelta⟩
      rw [hpending] at hmem
      cases hmem
    · exact absurd hsent (hnone u hu)
  · have hpassed := h.flights.passed now hfinished
    refine ⟨h.advanced.le.trans hpassed.le, pass + 1, _, .flushing rfl hpass,
      htried.passed h.advanced.le hnone hpassed, fun u hu hunfinished => ?_⟩
    by_cases hold : u < s.counter.nextUpsert
    · dsimp only at hunfinished
      rw [hpassed.upserts u hold, hfinished u hold] at hunfinished
      cases hunfinished
    · exact (hpassed.sent u (not_lt.mp hold) hu).1
  · exact ⟨h.advanced.le, pass + 1, _, .settling rfl hmore, htried, hidle _⟩
  · exact ⟨h.advanced.le, 3, [], .resolved rfl, htried, hidle []⟩

/-- While the counter drains, a section changes nothing, or handles the answer to an upsert, or is
one of the drain. -/
lemma quiet_cases {o : Options} {s s' : System} {e : Event} (h : Stopped s.counter)
    (hquiet : e.quiet = true) (hstep : step o s e = some s') :
    (s'.counter = s.counter ∧ s'.drains = s.drains) ∨
    (∃ u outcome, u < s.counter.nextUpsert ∧ (s.counter.upserts u).status = .sent ∧
      s' = { s with counter := s.counter.settleUpsert u outcome }) ∨
    (∃ u, s' = { s with counter := s.counter.finishUpsert u }) ∨
    ∃ i now, e = .resumeDrain i now := by
  cases e with
  | hit key fixedResetAt now => cases hquiet
  | drain => cases hquiet
  | resumeHit i =>
    simp only [step] at hstep
    split at hstep
    · split_ifs at hstep
      cases hstep
      exact Or.inl ⟨finishHit_of_stopped h o _ _, rfl⟩
    · cases hstep
  | settle u outcome =>
    simp only [step] at hstep
    split_ifs at hstep with hsent
    cases hstep
    exact Or.inr (Or.inl ⟨u, outcome, hsent.1, hsent.2, rfl⟩)
  | finish u =>
    simp only [step] at hstep
    split_ifs at hstep
    cases hstep
    exact Or.inr (Or.inr (Or.inl ⟨u, rfl⟩))
  | fire key now =>
    simp only [step, h.timers] at hstep
    cases hstep
  | resumeTimer i now =>
    simp only [step] at hstep
    split at hstep
    · split_ifs at hstep
      cases hstep
      refine Or.inl ⟨?_, rfl⟩
      unfold stepResumeTimer
      dsimp only
      rw [scheduleFlush_of_stopped h, ite_self]
    · cases hstep
  | resumeDrain i now => exact Or.inr (Or.inr (Or.inr ⟨i, now, rfl⟩))

lemma advanced_step {o : Options} {first : ℕ} {s s' : System} {e : Event} (h : Draining first s)
    (hquiet : e.quiet = true) (hstep : step o s e = some s') : Advanced first s' := by
  obtain ⟨q, on, hprogress, htried, hunfinished⟩ := h.advanced.progress
  rcases quiet_cases h.stopped hquiet hstep with
    ⟨hcounter, hdrains⟩ | ⟨u, outcome, hu, hsent, rfl⟩ | ⟨u, rfl⟩ | ⟨i, now, rfl⟩
  · exact h.advanced.congr hcounter hdrains
  · obtain ⟨-, -, hnext, -⟩ := settleUpsert_keeps s.counter u outcome
    obtain ⟨status, bucket, -, heq⟩ := settleUpsert_eq s.counter u outcome
    have hsame : ∀ v, ((s.counter.settleUpsert u outcome).upserts v).finished =
        (s.counter.upserts v).finished := by
      intro v
      rw [heq]
      exact update_upserts (x := { s.counter.upserts u with status := status }) Upsert.finished rfl v
    refine ⟨hnext ▸ h.advanced.le, q, on, hprogress.congr rfl, htried.settleUpsert hu hsent outcome,
      fun v hv hfinished => hunfinished v (hnext ▸ hv) ((hsame v).symm.trans hfinished)⟩
  · have htried' := htried.finishUpsert u
    obtain ⟨flights, heq⟩ := finishUpsert_eq s.counter u
    rw [heq] at htried' ⊢
    refine ⟨h.advanced.le, q, on, hprogress.congr rfl, htried', fun v hv hfinished =>
      hunfinished v hv ?_⟩
    by_cases hvu : v = u
    · rw [hvu] at hfinished
      dsimp only at hfinished
      rw [Function.update_self] at hfinished
      cases hfinished
    · exact (congrArg Upsert.finished (Function.update_of_ne hvu _ _)).symm.trans hfinished
  · exact advanced_resumeDrain h hstep

lemma draining_step {o : Options} {first : ℕ} {s s' : System} {e : Event} (h : Draining first s)
    (hquiet : e.quiet = true) (hstep : step o s e = some s') : Draining first s' :=
  { stopped := stopped_step h.stopped hstep
    sound := step_sound hstep h.sound
    flights := flights_step h.flights hstep
    advanced := advanced_step h hquiet hstep }

/-- Only the drain sends, and only for windows that have not ended. -/
lemma Draining.current {o : Options} {first : ℕ} {s s' : System} {e : Event} (h : Draining first s)
    (hquiet : e.quiet = true) (hstep : step o s e = some s') {u : ℕ}
    (hle : s.counter.nextUpsert ≤ u) (hlt : u < s'.counter.nextUpsert) :
    ∃ i now, e = .resumeDrain i now ∧
      now < (s.counter.heap (s'.counter.upserts u).bucket).resetAt := by
  rcases quiet_cases h.stopped hquiet hstep with
    ⟨hcounter, -⟩ | ⟨v, outcome, -, -, rfl⟩ | ⟨v, rfl⟩ | ⟨i, now, rfl⟩
  · rw [hcounter] at hlt
    exact absurd hlt (not_lt.mpr hle)
  · rw [(settleUpsert_keeps s.counter v outcome).2.2.1] at hlt
    exact absurd hlt (not_lt.mpr hle)
  · obtain ⟨flights, heq⟩ := finishUpsert_eq s.counter v
    rw [heq] at hlt
    exact absurd hlt (not_lt.mpr hle)
  · refine ⟨i, now, rfl, ?_⟩
    obtain ⟨hfinished, pass, -, hcases⟩ := resumeDrain_cases h hstep
    rcases hcases with ⟨-, -, rfl⟩ | ⟨-, rfl⟩ | ⟨-, -, rfl⟩ | ⟨-, rfl⟩
    · exact absurd hlt (not_lt.mpr hle)
    · exact ((h.flights.passed now hfinished).sent u hle hlt).2.2.2
    · exact absurd hlt (not_lt.mpr hle)
    · exact absurd hlt (not_lt.mpr hle)

/-- The end of a drain. -/
lemma Draining.drained {first : ℕ} {s : System} (h : Draining first s) (hdone : s.drains = []) :
    Drained first s.counter := by
  obtain ⟨q, on, hprogress, htried, hunfinished⟩ := h.advanced.progress
  have hlast : q = 3 ∧ on = [] := by
    cases hprogress with
    | settling hdrains _ | flushing hdrains _ =>
      rw [hdone] at hdrains
      cases hdrains
    | resolved _ => exact ⟨rfl, rfl⟩
  obtain ⟨rfl, rfl⟩ := hlast
  have hfinished : ∀ u < s.counter.nextUpsert, (s.counter.upserts u).finished = true := by
    intro u hu
    by_contra hnot
    exact absurd (hunfinished u hu (by simpa using hnot)) List.not_mem_nil
  refine ⟨hfinished, h.flights.idle hfinished, fun key ref hget => ?_, fun key ref hget => ?_⟩
  · by_cases hdelta : (s.counter.heap ref).pendingDelta = []
    · exact Or.inl hdelta
    · exact Or.inr (htried.pending key ref hget hdelta)
  · have hcounted := h.sound.ledger.counted ref (h.sound.placed.current key ref hget)
    -- nothing is in flight that could hold a hit
    have hsent : s.counter.upserted ref .sent = 0 := by
      refine Finset.sum_eq_zero fun u hu => if_neg fun hand => ?_
      have hlt := Finset.mem_range.mp hu
      have hnot := h.flights.sent u hlt hand.2
      rw [hfinished u hlt] at hnot
      cases hnot
    unfold counted at hcounted
    rwa [hsent, add_zero] at hcounted

/-- From the call of a drain on, as long as no hit starts and no other drain, the drain writes
all it can. -/
theorem drain_persists {o : Options} {s₀ s₁ s : System} {es : List Event} (hreach : Reachable o s₀)
    (halone : s₀.drains = []) (hdrain : step o s₀ .drain = some s₁)
    (hquiet : ∀ e ∈ es, e.quiet = true) (hrun : EventMachine.run (step o) s₁ es = some s) :
    DrainSound o s₀.counter.nextUpsert s := by
  have h : Draining s₀.counter.nextUpsert s :=
    EventMachine.run_invariant_along (G := fun _ e => e.quiet = true)
      (fun _ _ _ hs he hstep => draining_step hs he hstep) (Draining.start hreach halone hdrain)
      (EventMachine.along_of_forall (step o) s₁ hquiet) hrun
  constructor
  case timers =>
    intro es' t hrun'
    have hstopped := EventMachine.run_invariant (I := fun s => Stopped s.counter)
      (fun _ _ _ hs hstep => stopped_step hs hstep) h.stopped hrun'
    exact hstopped.timers
  case current =>
    intro e s' he hstep u hle hlt
    exact h.current he hstep hle hlt
  case goesOn =>
    intro i task htask hfinished now
    have hsettled : (task.on.all fun u => (s.counter.upserts u).finished) = true :=
      List.all_eq_true.mpr hfinished
    simp only [step, htask]
    rw [if_pos hsettled]
    rfl
  case resolved => exact h.drained

/-- A hit is pending when the counter drains, and the database does not come back. -/
def usage : List Event :=
  [.hit "k" none 100000, .settle 0 (.resolved (some (1, 160000))), .finish 0, .resumeHit 0,
    .hit "k" none 101000]

def failingPasses : List Event :=
  [.resumeDrain 0 102000, .settle 1 .rejected, .finish 1, .resumeDrain 0 102000,
    .resumeDrain 0 103000, .settle 2 .rejected, .finish 2, .resumeDrain 0 103000,
    .resumeDrain 0 104000, .settle 3 .rejected, .finish 3, .resumeDrain 0 104000]

theorem drain_persists_failing : ∃ s₀ s₁ s, EventMachine.run (step ⟨true⟩) {} usage = some s₀ ∧
    step ⟨true⟩ s₀ .drain = some s₁ ∧
    EventMachine.run (step ⟨true⟩) s₁ failingPasses = some s ∧ s.drains = [] ∧
    (s.counter.heap 0).pendingDelta = [1] ∧ DrainSound ⟨true⟩ s₀.counter.nextUpsert s := by
  have hquiet : ∀ e ∈ failingPasses, e.quiet = true := by decide
  have hall : (EventMachine.run (step ⟨true⟩) {} usage).any (fun s₀ => s₀.drains = [] ∧
      ((step ⟨true⟩ s₀ .drain).any fun s₁ =>
        (EventMachine.run (step ⟨true⟩) s₁ failingPasses).any fun s =>
          s.drains = [] ∧ (s.counter.heap 0).pendingDelta = [1]) = true) = true := by
    decide +kernel
  obtain ⟨s₀, hs₀, h₀⟩ := (Option.any_eq_true _ _).mp hall
  obtain ⟨halone, h₀⟩ := of_decide_eq_true h₀
  obtain ⟨s₁, hs₁, h₁⟩ := (Option.any_eq_true _ _).mp h₀
  obtain ⟨s, hs, h⟩ := (Option.any_eq_true _ _).mp h₁
  obtain ⟨hdone, hpending⟩ := of_decide_eq_true h
  exact ⟨s₀, s₁, s, hs₀, hs₁, hs, hdone, hpending,
    drain_persists ⟨usage, hs₀⟩ halone hs₁ hquiet hs⟩

end RateLimitCounter
end FirecrawlGateway
