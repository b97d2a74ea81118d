import FirecrawlGateway.Proxy.CircuitBreakerTheorems

/-!
# When the circuit breaker trips

An onlooker of a run writes a `Chronicle`: which closed period each running call was admitted
in, and how the calls of the current closed period have settled. The onlooker only sees whether
the circuit is closed, open or half-open; `Recorded` ties its notes to the counter, the
generation and the permits the source decides by.
-/

namespace FirecrawlGateway
namespace CircuitBreaker

open EventMachine

variable {o : Options}

/-! ## The chronicle of a run -/

/-- What an onlooker of a run has written down. -/
structure Chronicle where
  /-- How often the circuit has opened. -/
  openings : ℕ := 0
  /-- How often the circuit has closed: the number of the closed period it is or was in. -/
  closings : ℕ := 0
  /-- The closed period in which a running call was admitted, if the circuit was closed then. -/
  period : ℕ → Option ℕ := fun _ => none
  /-- How often the circuit had opened when a call started. -/
  openingsAtStart : ℕ → ℕ := fun _ => 0
  /-- How the calls admitted in the current closed period have settled, the last one last; `true`
  is a failure. -/
  outcomes : List Bool := []

/-- The circuit went over to `target`. -/
def Becomes (s s' : System) (target : CircuitState) : Prop :=
  s.breaker.state ≠ target ∧ s'.breaker.state = target

instance (s s' : System) (target : CircuitState) : Decidable (Becomes s s' target) :=
  inferInstanceAs (Decidable (_ ∧ _))

/-- A call of the current closed period settled as `failed`. -/
def Chronicle.settled (c : Chronicle) (id : ℕ) (failed : Bool) : List Bool :=
  if c.period id = some c.closings then c.outcomes ++ [failed] else c.outcomes

/-- The onlooker sees a step. -/
def Chronicle.note (c : Chronicle) (s : System) (e : Event) (s' : System) : Chronicle where
  openings := if Becomes s s' .opened then c.openings + 1 else c.openings
  closings := if Becomes s s' .closed then c.closings + 1 else c.closings
  period := match e with
    | .start id _ =>
      Function.update c.period id (if s.breaker.state = .closed then some c.closings else none)
    | .settle id _ _ => Function.update c.period id none
  openingsAtStart := match e with
    | .start id _ => Function.update c.openingsAtStart id c.openings
    | .settle _ _ _ => c.openingsAtStart
  outcomes :=
    if Becomes s s' .closed then []
    else match e with
      | .start _ _ => c.outcomes
      | .settle id r _ => c.settled id r.failed

/-- The call was admitted before the circuit last opened. -/
def Chronicle.Stale (c : Chronicle) (s : System) (id : ℕ) : Prop :=
  s.running id ≠ none ∧ c.openingsAtStart id < c.openings

/-- A run from a fresh breaker, and what its onlooker wrote down. -/
def Watched (o : Options) (es : List Event) (s : System) (c : Chronicle) : Prop :=
  run (watched (step o) Chronicle.note) ({}, {}) es = some (s, c)

/-! ## Trailing failures -/

/-- How many failures a list of outcomes ends with. -/
def trailingFailures (outcomes : List Bool) : ℕ := (outcomes.reverse.takeWhile id).length

@[simp] lemma trailingFailures_nil : trailingFailures [] = 0 := rfl

@[simp] lemma trailingFailures_snoc (outcomes : List Bool) (failed : Bool) :
    trailingFailures (outcomes ++ [failed]) = if failed then trailingFailures outcomes + 1 else 0 := by
  cases failed <;> simp [trailingFailures]

/-- The last `n` outcomes are failures when the list ends with at least `n` of them. -/
lemma replicate_suffix_iff (n : ℕ) (outcomes : List Bool) :
    List.replicate n true <:+ outcomes ↔ n ≤ trailingFailures outcomes := by
  induction outcomes using List.reverseRecOn generalizing n with
  | nil => simp
  | append_singleton outcomes failed ih =>
    cases n with
    | zero => simp
    | succ n =>
      rw [List.replicate_succ', List.suffix_concat_iff, trailingFailures_snoc]
      constructor
      · rintro (hnil | ⟨t, heq, hsuffix⟩)
        · simp at hnil
        · obtain ⟨rfl, hlast⟩ := List.append_inj' heq rfl
          obtain rfl : true = failed := by simpa using hlast
          have := (ih n).mp hsuffix
          simpa using this
      · intro hle
        cases failed with
        | false => simp at hle
        | true => exact Or.inr ⟨_, rfl, (ih n).mpr (by simpa using hle)⟩

/-! ## The source's bookkeeping, in terms of the chronicle -/

/-- A permit of generation `g`, issued in the closed period `p`, is current exactly while that
period lasts. -/
structure PermitOf (b : Breaker) (c : Chronicle) (p g : ℕ) : Prop where
  period_le : p ≤ c.closings
  generation_le : g ≤ b.generation
  current : b.state = .closed → (p = c.closings ↔ g = b.generation)
  past : b.state ≠ .closed → g < b.generation

/-- What the chronicle says of a call number. -/
def CallRecorded (b : Breaker) (c : Chronicle) (id : ℕ) : Option Admission → Prop
  | none => c.period id = none
  | some .unguarded => False
  | some (.permit ⟨.closed, g⟩) =>
    c.openingsAtStart id = g ∧ ∃ p, c.period id = some p ∧ PermitOf b c p g
  | some (.permit ⟨.probe, g⟩) =>
    c.openingsAtStart id = g ∧ c.period id = none ∧ g = b.generation

structure Recorded (s : System) (c : Chronicle) : Prop where
  generation : s.breaker.generation = c.openings
  calls : ∀ id, CallRecorded s.breaker c id (s.running id)
  failures : s.breaker.state = .closed →
    s.breaker.consecutiveFailures = trailingFailures c.outcomes

lemma recorded_init : Recorded {} {} where
  generation := rfl
  calls _ := rfl
  failures _ := rfl

/-! ## Breaker changes -/

/-- Permits outlive a step that keeps the circuit closed, or not closed. -/
lemma PermitOf.keep {b b' : Breaker} {c c' : Chronicle} {p g : ℕ} (h : PermitOf b c p g)
    (hstate : b'.state = .closed ↔ b.state = .closed) (hgen : b'.generation = b.generation)
    (hclosings : c'.closings = c.closings) : PermitOf b' c' p g where
  period_le := hclosings ▸ h.period_le
  generation_le := hgen ▸ h.generation_le
  current hc := by
    rw [hclosings, hgen]
    exact h.current (hstate.mp hc)
  past hc := by
    rw [hgen]
    exact h.past (mt hstate.mpr hc)

/-- When the circuit opens, every permit is past. -/
lemma PermitOf.opens {b b' : Breaker} {c c' : Chronicle} {p g : ℕ} (h : PermitOf b c p g)
    (hstate : b'.state = .opened) (hgen : b'.generation = b.generation + 1)
    (hclosings : c'.closings = c.closings) : PermitOf b' c' p g where
  period_le := hclosings ▸ h.period_le
  generation_le := by
    have := h.generation_le
    omega
  current hc := by simp [hstate] at hc
  past _ := by
    have := h.generation_le
    omega

/-- When the circuit closes, a new period begins, and no permit is of it. -/
lemma PermitOf.closes {b b' : Breaker} {c c' : Chronicle} {p g : ℕ} (h : PermitOf b c p g)
    (hopen : b.state ≠ .closed) (hgen : b'.generation = b.generation)
    (hclosings : c'.closings = c.closings + 1) (hstate : b'.state = .closed) :
    PermitOf b' c' p g := by
  have hperiod := h.period_le
  have hpast := h.past hopen
  refine ⟨by omega, by omega, fun _ => iff_of_false (by omega) (by omega), fun hc => ?_⟩
  exact absurd hstate hc

/-! ## What a call with a closed permit does when it settles -/

lemma release_stale {b : Breaker} {g : ℕ} (h : g ≠ b.generation ∨ b.state ≠ .closed) (now : ℤ)
    (failed : Bool) : release o now b ⟨.closed, g⟩ failed = b := if_pos h

lemma release_success {b : Breaker} (hs : b.state = .closed) (now : ℤ) :
    release o now b ⟨.closed, b.generation⟩ false = { b with consecutiveFailures := 0 } := by
  simp [release, hs]

lemma release_failure {b : Breaker} (hs : b.state = .closed) (now : ℤ) :
    release o now b ⟨.closed, b.generation⟩ true =
      if o.failureThreshold ≤ b.consecutiveFailures + 1 then
        openCircuit now { b with consecutiveFailures := b.consecutiveFailures + 1 }
      else { b with consecutiveFailures := b.consecutiveFailures + 1 } := by
  simp [release, hs]

@[simp] lemma openCircuit_generation (now : ℤ) (b : Breaker) :
    (openCircuit now b).generation = b.generation + 1 := by
  unfold openCircuit transition
  split <;> rfl

@[simp] lemma transition_generation (b : Breaker) (t : CircuitState) :
    (transition b t).generation = b.generation := by
  unfold transition
  split <;> rfl

/-! ## The chronicle keeps up -/

/-- A step that concerns the call `id` only. -/
lemma Recorded.step {s s' : System} {c c' : Chronicle} (h : Recorded s c) (id : ℕ)
    (hrunning : ∀ j ≠ id, s'.running j = s.running j)
    (hperiod : ∀ j ≠ id, c'.period j = c.period j)
    (hstart : ∀ j ≠ id, c'.openingsAtStart j = c.openingsAtStart j)
    (hpermit : ∀ p g, PermitOf s.breaker c p g → PermitOf s'.breaker c' p g)
    (hprobe : ∀ j ≠ id, IsProbe s j → s'.breaker.generation = s.breaker.generation)
    (hgen : s'.breaker.generation = c'.openings)
    (hself : CallRecorded s'.breaker c' id (s'.running id))
    (hfailures : s'.breaker.state = .closed →
      s'.breaker.consecutiveFailures = trailingFailures c'.outcomes) : Recorded s' c' where
  generation := hgen
  failures := hfailures
  calls j := by
    by_cases hj : j = id
    · rw [hj]
      exact hself
    · have hold := h.calls j
      rw [hrunning j hj]
      cases ha : s.running j with
      | none =>
        rw [ha] at hold
        exact (hperiod j hj).trans hold
      | some a =>
        rw [ha] at hold
        match a with
        | .unguarded => exact hold
        | .permit ⟨.closed, g⟩ =>
          obtain ⟨hg, p, hp, hof⟩ := hold
          exact ⟨(hstart j hj).trans hg, p, (hperiod j hj).trans hp, hpermit p g hof⟩
        | .permit ⟨.probe, g⟩ =>
          obtain ⟨hg, hp, hcur⟩ := hold
          exact ⟨(hstart j hj).trans hg, (hperiod j hj).trans hp,
            hcur.trans (hprobe j hj ⟨g, ha⟩).symm⟩

lemma recorded_start (ho : 1 ≤ o.failureThreshold) {s s' : System} {c : Chronicle} {id : ℕ}
    {now : ℤ} (hinv : Inv o s) (h : Recorded s c) (hstep : step o s (.start id now) = some s') :
    Recorded s' (c.note s (.start id now) s') := by
  obtain ⟨hidle, rfl⟩ := step_start_eq_some.mp hstep
  -- a start neither opens nor closes the circuit, and keeps the generation
  have hkeep : ((execute o now s.breaker).1.state = .closed ↔ s.breaker.state = .closed) ∧
      ((execute o now s.breaker).1.state = .opened → s.breaker.state = .opened) ∧
      (execute o now s.breaker).1.generation = s.breaker.generation ∧
      (execute o now s.breaker).1.consecutiveFailures = s.breaker.consecutiveFailures := by
    rcases execute_cases ho hinv.flag now with ⟨hs, he⟩ | ⟨hs, -, he⟩ | ⟨hs, -, he⟩ | ⟨hs, he⟩ <;>
      simp [he, hs]
  obtain ⟨hclosed, hopened, hgen, hcount⟩ := hkeep
  generalize hs' : (⟨(execute o now s.breaker).1,
    Function.update s.running id (execute o now s.breaker).2⟩ : System) = s'
  have hbreaker : s'.breaker = (execute o now s.breaker).1 := by rw [← hs']
  have hrunning : s'.running = Function.update s.running id (execute o now s.breaker).2 := by
    rw [← hs']
  have hnotOpened : ¬ Becomes s s' .opened := fun hb => hb.1 (hopened (hbreaker ▸ hb.2))
  have hnotClosed : ¬ Becomes s s' .closed := fun hb => hb.1 (hclosed.mp (hbreaker ▸ hb.2))
  refine h.step id (fun j hj => ?_) (fun j hj => ?_) (fun j hj => ?_) (fun p g hof => ?_)
    (fun _ _ _ => ?_) ?_ ?_ (fun hc => ?_)
  · rw [hrunning, Function.update_of_ne hj]
  · exact Function.update_of_ne hj _ _
  · exact Function.update_of_ne hj _ _
  · exact hof.keep (hbreaker ▸ hclosed) (hbreaker ▸ hgen) (if_neg hnotClosed)
  · rw [hbreaker, hgen]
  · rw [hbreaker, hgen, h.generation]
    exact (if_neg hnotOpened).symm
  · have hstart : (c.note s (.start id now) s').openingsAtStart id = s.breaker.generation := by
      simp [Chronicle.note, h.generation]
    have hperiod : (c.note s (.start id now) s').period id =
        if s.breaker.state = .closed then some c.closings else none := by
      simp [Chronicle.note]
    rw [hbreaker, hrunning, Function.update_self]
    rcases execute_cases ho hinv.flag now with ⟨hs, he⟩ | ⟨hs, -, he⟩ | ⟨hs, -, he⟩ | ⟨hs, he⟩ <;>
      rw [he]
    · -- a call of the current period
      refine ⟨hstart, c.closings, by rw [hperiod, if_pos hs], ?_⟩
      have hclosings : (c.note s (.start id now) s').closings = c.closings := if_neg hnotClosed
      exact ⟨hclosings.ge, le_refl _, fun _ => iff_of_true hclosings.symm rfl, fun hc => absurd hs hc⟩
    · show (c.note s (.start id now) s').period id = none
      simp [hperiod, hs]
    · exact ⟨hstart, by simp [hperiod, hs], rfl⟩
    · show (c.note s (.start id now) s').period id = none
      simp [hperiod, hs]
  · rw [hbreaker] at hc ⊢
    rw [hcount, h.failures (hclosed.mp hc)]
    simp [Chronicle.note, hnotClosed]

/-- A call that settles leaves the other calls, their periods and their starts alone. -/
lemma Recorded.settle {s : System} {b : Breaker} {c c' : Chronicle} (h : Recorded s c) {id : ℕ}
    {r : Settlement} {now : ℤ}
    (hc' : c' = c.note s (.settle id r now) ⟨b, Function.update s.running id none⟩)
    (hpermit : ∀ p g, PermitOf s.breaker c p g → PermitOf b c' p g)
    (hprobe : ∀ j ≠ id, IsProbe s j → b.generation = s.breaker.generation)
    (hgen : b.generation = c'.openings)
    (hfailures : b.state = .closed → b.consecutiveFailures = trailingFailures c'.outcomes) :
    Recorded ⟨b, Function.update s.running id none⟩ c' := by
  subst hc'
  refine h.step id (fun j hj => ?_) (fun j hj => ?_) (fun _ _ => rfl) hpermit hprobe hgen ?_
    hfailures
  · exact Function.update_of_ne hj _ _
  · exact Function.update_of_ne hj _ _
  · show CallRecorded b _ id (Function.update s.running id none id)
    rw [Function.update_self]
    exact Function.update_self id none c.period

/-- The chronicle after a settlement that leaves the circuit open or closed as it was. -/
lemma note_settle_of_same {s s' : System} (hstate : s'.breaker.state = s.breaker.state)
    (c : Chronicle) (id : ℕ) (r : Settlement) (now : ℤ) :
    (c.note s (.settle id r now) s').openings = c.openings ∧
    (c.note s (.settle id r now) s').closings = c.closings ∧
    (c.note s (.settle id r now) s').outcomes = c.settled id r.failed := by
  have hnot : ∀ target, ¬ Becomes s s' target := fun target hb => hb.1 (hstate ▸ hb.2)
  exact ⟨if_neg (hnot _), if_neg (hnot _), if_neg (hnot _)⟩

/-- The chronicle after a settlement that opens the circuit. -/
lemma note_settle_of_opens {s s' : System} (hs : s.breaker.state ≠ .opened)
    (hs' : s'.breaker.state = .opened) (c : Chronicle) (id : ℕ) (r : Settlement) (now : ℤ) :
    (c.note s (.settle id r now) s').openings = c.openings + 1 ∧
    (c.note s (.settle id r now) s').closings = c.closings := by
  have hnot : ¬ Becomes s s' .closed := fun hb => absurd hb.2 (by simp [hs'])
  exact ⟨if_pos ⟨hs, hs'⟩, if_neg hnot⟩

/-- The chronicle after a settlement that closes the circuit. -/
lemma note_settle_of_closes {s s' : System} (hs : s.breaker.state ≠ .closed)
    (hs' : s'.breaker.state = .closed) (c : Chronicle) (id : ℕ) (r : Settlement) (now : ℤ) :
    (c.note s (.settle id r now) s').openings = c.openings ∧
    (c.note s (.settle id r now) s').closings = c.closings + 1 ∧
    (c.note s (.settle id r now) s').outcomes = [] := by
  have hnot : ¬ Becomes s s' .opened := fun hb => absurd hb.2 (by simp [hs'])
  exact ⟨if_neg hnot, if_pos ⟨hs, hs'⟩, if_pos ⟨hs, hs'⟩⟩

/-- The probe settles: the circuit opens again, or a new closed period begins. -/
lemma recorded_settle_probe {s : System} {c : Chronicle} {id g : ℕ} {r : Settlement} {now : ℤ}
    (hinv : Inv o s) (h : Recorded s c) (ha : s.running id = some (.permit ⟨.probe, g⟩)) :
    let s' : System :=
      ⟨release o now s.breaker ⟨.probe, g⟩ r.failed, Function.update s.running id none⟩
    Recorded s' (c.note s (.settle id r now) s') := by
  intro s'
  have hid : IsProbe s id := ⟨g, ha⟩
  have hhalf : s.breaker.state = .halfOpen := hinv.probe_iff.mpr ⟨id, hid⟩
  have honly : ∀ j ≠ id, ¬ IsProbe s j := fun j hj hprobe => hj (hinv.one_probe j id hprobe hid)
  have hopened : s.breaker.state ≠ .opened := by simp [hhalf]
  have hclosed : s.breaker.state ≠ .closed := by simp [hhalf]
  cases hfailed : r.failed with
  | true =>
    have hs' : s'.breaker.state = .opened := by simp [s', hfailed, release]
    have hgen : s'.breaker.generation = s.breaker.generation + 1 := by simp [s', hfailed, release]
    obtain ⟨hopenings, hclosings⟩ := note_settle_of_opens hopened hs' c id r now
    refine h.settle rfl (fun p k hof => hof.opens hs' hgen hclosings)
      (fun j hj hprobe => absurd hprobe (honly j hj)) ?_ (fun hc => absurd (hs'.symm.trans hc) (by simp))
    show s'.breaker.generation = _
    rw [hgen, hopenings, h.generation]
  | false =>
    have hs' : s'.breaker.state = .closed := by simp [s', hfailed, release]
    have hgen : s'.breaker.generation = s.breaker.generation := by simp [s', hfailed, release]
    obtain ⟨hopenings, hclosings, houtcomes⟩ := note_settle_of_closes hclosed hs' c id r now
    refine h.settle rfl (fun p k hof => hof.closes hclosed hgen hclosings hs')
      (fun j hj hprobe => absurd hprobe (honly j hj)) ?_ (fun _ => ?_)
    · show s'.breaker.generation = _
      rw [hgen, hopenings, h.generation]
    · rw [houtcomes]
      simp [hfailed, release]

/-- A settlement that leaves the state, the generation and the periods alone. -/
lemma Recorded.settle_same {s : System} {b : Breaker} {c : Chronicle} (h : Recorded s c) {id : ℕ}
    {r : Settlement} {now : ℤ} (hstate : b.state = s.breaker.state)
    (hgen : b.generation = s.breaker.generation)
    (hfailures : b.state = .closed →
      b.consecutiveFailures = trailingFailures (c.settled id r.failed)) :
    let s' : System := ⟨b, Function.update s.running id none⟩
    Recorded s' (c.note s (.settle id r now) s') := by
  intro s'
  have hsame : s'.breaker.state = s.breaker.state := hstate
  obtain ⟨hopenings, hclosings, houtcomes⟩ := note_settle_of_same hsame c id r now
  refine h.settle rfl (fun p k hof => hof.keep (by rw [hstate]) hgen hclosings) (fun _ _ _ => hgen)
    ?_ (fun hc => ?_)
  · rw [hgen, hopenings, h.generation]
  · rw [houtcomes]
    exact hfailures hc

lemma recorded_settle {s s' : System} {c : Chronicle} {id : ℕ} {r : Settlement} {now : ℤ}
    (hinv : Inv o s) (h : Recorded s c) (hstep : step o s (.settle id r now) = some s') :
    Recorded s' (c.note s (.settle id r now) s') := by
  obtain ⟨a, ha, rfl⟩ := step_settle_eq_some.mp hstep
  have hcall := h.calls id
  rw [ha] at hcall
  match a with
  | .unguarded => exact hcall.elim
  | .permit ⟨.probe, g⟩ => exact recorded_settle_probe hinv h ha
  | .permit ⟨.closed, g⟩ =>
    obtain ⟨-, p, hp, hof⟩ := hcall
    simp only [executeFinally]
    by_cases hcurrent : s.breaker.state = .closed ∧ g = s.breaker.generation
    · -- the call is of the current period, and its outcome is counted
      obtain ⟨hs, rfl⟩ := hcurrent
      have hsettled : c.settled id r.failed = c.outcomes ++ [r.failed] :=
        if_pos (hp.trans (congrArg some ((hof.current hs).mpr rfl)))
      have hcount := h.failures hs
      cases hfailed : r.failed with
      | false =>
        rw [release_success hs]
        refine h.settle_same rfl rfl fun _ => ?_
        rw [hsettled, hfailed]
        simp
      | true =>
        rw [release_failure hs]
        split_ifs with hfull
        · have hs' : (openCircuit now { s.breaker with
              consecutiveFailures := s.breaker.consecutiveFailures + 1 }).state = .opened :=
            openCircuit_state _ _
          have hnone := not_isProbe_of_state hinv (by simp [hs])
          generalize hb : openCircuit now { s.breaker with
            consecutiveFailures := s.breaker.consecutiveFailures + 1 } = b at hs'
          have hgen : b.generation = s.breaker.generation + 1 := by simp [← hb]
          have hnot : s.breaker.state ≠ .opened := by simp [hs]
          have hopened : (⟨b, Function.update s.running id none⟩ : System).breaker.state = .opened :=
            hs'
          obtain ⟨hopenings, hclosings⟩ := note_settle_of_opens hnot hopened c id r now
          refine h.settle rfl (fun p k hof => hof.opens hs' hgen hclosings)
            (fun j _ hprobe => absurd hprobe (hnone j)) ?_ (fun hc => by simp [hs'] at hc)
          rw [hgen, hopenings, h.generation]
        · refine h.settle_same rfl rfl fun _ => ?_
          rw [hsettled, hfailed]
          simp [hcount]
    · -- the call is of an earlier period: neither the breaker nor the outcomes notice
      have hstale : g ≠ s.breaker.generation ∨ s.breaker.state ≠ .closed := by tauto
      rw [release_stale hstale]
      refine h.settle_same rfl rfl fun hs => ?_
      have hpast : ¬ p = c.closings := fun hp => hcurrent ⟨hs, (hof.current hs).mp hp⟩
      rw [h.failures hs, Chronicle.settled, hp, if_neg (by simpa using hpast)]

lemma Watched.recorded (ho : 1 ≤ o.failureThreshold) {es : List Event} {s : System} {c : Chronicle}
    (h : Watched o es s c) : Inv o s ∧ Recorded s c := by
  refine run_invariant (I := fun w => Inv o w.1 ∧ Recorded w.1 w.2) ?_
    (⟨inv_init ho, recorded_init⟩ : Inv o {} ∧ Recorded {} {}) h
  intro w e w' hw hstep
  obtain ⟨hstep, hnote⟩ := watched_eq_some.mp hstep
  rw [hnote]
  cases e with
  | start id now => exact ⟨inv_start ho hw.1 hstep, recorded_start ho hw.1 hw.2 hstep⟩
  | settle id r now => exact ⟨inv_settle ho hw.1 hstep, recorded_settle hw.1 hw.2 hstep⟩

/-! ## A row of failures -/

/-- The event is the settlement of a call of the current closed period, and makes the last
`failureThreshold` settlements of such calls failures. -/
def CompletesRow (o : Options) (c : Chronicle) : Event → Prop
  | .start _ _ => False
  | .settle id r _ =>
    c.period id = some c.closings ∧
      List.replicate o.failureThreshold true <:+ c.outcomes ++ [r.failed]

lemma completesRow_settle_iff (ho : 1 ≤ o.failureThreshold) (c : Chronicle) (id : ℕ)
    (r : Settlement) (now : ℤ) :
    CompletesRow o c (.settle id r now) ↔ c.period id = some c.closings ∧
      r.failed = true ∧ o.failureThreshold ≤ trailingFailures c.outcomes + 1 := by
  simp only [CompletesRow, replicate_suffix_iff, trailingFailures_snoc]
  cases r.failed with
  | true => simp
  | false =>
    have : ¬ o.failureThreshold ≤ 0 := by omega
    simp [this]

/-- From a closed circuit, a settlement opens it exactly when it completes a row of failures. -/
lemma settle_opens_iff (ho : 1 ≤ o.failureThreshold) {s s' : System} {c : Chronicle} {id : ℕ}
    {r : Settlement} {now : ℤ} (hinv : Inv o s) (h : Recorded s c) (hs : s.breaker.state = .closed)
    (hstep : step o s (.settle id r now) = some s') :
    (s'.breaker.state = .opened ↔ CompletesRow o c (.settle id r now)) ∧
      s'.breaker.state ≠ .halfOpen := by
  obtain ⟨a, ha, rfl⟩ := step_settle_eq_some.mp hstep
  have hcall := h.calls id
  rw [ha] at hcall
  rw [completesRow_settle_iff ho]
  match a with
  | .unguarded => exact hcall.elim
  | .permit ⟨.probe, g⟩ =>
    exact absurd ⟨g, ha⟩ (not_isProbe_of_state hinv (by simp [hs]) id)
  | .permit ⟨.closed, g⟩ =>
    obtain ⟨-, p, hp, hof⟩ := hcall
    simp only [executeFinally]
    rw [hp, Option.some_inj, hof.current hs, ← h.failures hs]
    by_cases hg : g = s.breaker.generation
    · subst hg
      cases hfailed : r.failed with
      | false => simp [release_success hs, hs]
      | true =>
        rw [release_failure hs]
        split_ifs with hfull
        · simp [hfull]
        · simp [hfull, hs]
    · rw [release_stale (Or.inl hg)]
      simp [hs, hg]

/-! ## Calls from before -/

lemma Recorded.release_stale {s : System} {c : Chronicle} (h : Recorded s c) {id : ℕ}
    (hstale : c.Stale s id) {a : Admission} (ha : s.running id = some a) (r : Settlement) (now : ℤ) :
    executeFinally o now s.breaker a r = s.breaker := by
  have hcall := h.calls id
  have hpast := h.generation ▸ hstale.2
  rw [ha] at hcall
  match a with
  | .unguarded => rfl
  | .permit ⟨.probe, g⟩ =>
    -- a probe was let through after the circuit last opened
    obtain ⟨hg, -, hcurrent⟩ := hcall
    omega
  | .permit ⟨.closed, g⟩ =>
    obtain ⟨hg, -⟩ := hcall
    exact CircuitBreaker.release_stale (Or.inl (by omega)) now r.failed

/-- The run in which the call `id` is still running as `a`. -/
def System.withCall (s : System) (id : ℕ) (a : Option Admission) : System :=
  { s with running := Function.update s.running id a }

/-- What the other calls do does not depend on a call that does nothing. -/
lemma step_withCall {s s' : System} {id : ℕ} {e : Event} (hidle : s.running id = none)
    (hstart : ∀ now, e ≠ .start id now) (hstep : step o s e = some s') (a : Option Admission) :
    s'.running id = none ∧ step o (s.withCall id a) e = some (s'.withCall id a) := by
  cases e with
  | start j now =>
    have hj : j ≠ id := fun hj => hstart now (by rw [hj])
    obtain ⟨hjdle, rfl⟩ := step_start_eq_some.mp hstep
    refine ⟨by simp [hj.symm, hidle], step_start_eq_some.mpr ⟨by simp [System.withCall, hj, hjdle], ?_⟩⟩
    simp only [System.withCall]
    rw [Function.update_comm hj]
  | settle j r now =>
    obtain ⟨b, hb, rfl⟩ := step_settle_eq_some.mp hstep
    have hj : j ≠ id := by
      rintro rfl
      rw [hidle] at hb
      cases hb
    refine ⟨by simp [hj.symm, hidle], step_settle_eq_some.mpr ⟨b, by simp [System.withCall, hj, hb], ?_⟩⟩
    simp only [System.withCall]
    rw [Function.update_comm hj]

lemma run_withCall {s t : System} {id : ℕ} {es : List Event} (hidle : s.running id = none)
    (hstart : ∀ now, .start id now ∉ es) (hrun : run (step o) s es = some t)
    (a : Option Admission) : run (step o) (s.withCall id a) es = some (t.withCall id a) := by
  induction es generalizing s with
  | nil =>
    cases hrun
    rfl
  | cons e es ih =>
    obtain ⟨s', hs', hrun'⟩ := (run_cons_eq_some _).mp hrun
    obtain ⟨hidle', hstep⟩ := step_withCall hidle
      (fun now he => hstart now (he ▸ List.mem_cons_self)) hs' a
    refine (run_cons_eq_some _).mpr ⟨_, hstep, ih hidle' (fun now hmem => ?_) hrun'⟩
    exact hstart now (List.mem_cons_of_mem _ hmem)

/-! ## Main result -/

/-- When a run trips the breaker, and what it does not notice. -/
structure TripsExactly (o : Options) (es : List Event) (s : System) (c : Chronicle) : Prop where
  /-- The closed circuit opens at exactly the events that complete a row of failures. -/
  opens_iff : s.breaker.state = .closed → ∀ e s', step o s e = some s' →
    (s'.breaker.state = .opened ↔ CompletesRow o c e) ∧ s'.breaker.state ≠ .halfOpen
  /-- Without the settlement of a call from before the circuit last opened, the run goes on with
  the same breaker and the same admissions, only that this one call has not settled. Call numbers
  are not given twice. -/
  stale_invisible : ∀ id, c.Stale s id → ∀ r now post t, (∀ later, .start id later ∉ post) →
    run (step o) {} (es ++ .settle id r now :: post) = some t →
    run (step o) {} (es ++ post) = some (t.withCall id (s.running id))

/-- **The circuit breaker trips exactly on consecutive current failures**, in every interleaving
of calls. -/
theorem trips_exactly (o : Options) (ho : 1 ≤ o.failureThreshold) (es : List Event) (s : System)
    (c : Chronicle) (h : Watched o es s c) : TripsExactly o es s c where
  opens_iff hs e s' hstep := by
    obtain ⟨hinv, hrec⟩ := h.recorded ho
    cases e with
    | settle id r now => exact settle_opens_iff ho hinv hrec hs hstep
    | start id now =>
      obtain ⟨-, rfl⟩ := step_start_eq_some.mp hstep
      rcases execute_cases ho hinv.flag now with ⟨-, he⟩ | ⟨hc, -⟩ | ⟨hc, -⟩ | ⟨hc, -⟩
      · simp [he, hs, CompletesRow]
      all_goals simp [hs] at hc
  stale_invisible id hstale r now post t hstart hrun := by
    obtain ⟨-, hrec⟩ := h.recorded ho
    have hes : run (step o) {} es = some s := run_iff_run_watched.mpr ⟨c, h⟩
    rw [run_append, hes, Option.bind_some] at hrun ⊢
    obtain ⟨s', hs', hrun'⟩ := (run_cons_eq_some _).mp hrun
    obtain ⟨a, ha, rfl⟩ := step_settle_eq_some.mp hs'
    rw [hrec.release_stale hstale ha] at hrun'
    have hrest := run_withCall (Function.update_self id none s.running) hstart hrun' (s.running id)
    have hback : (⟨s.breaker, Function.update s.running id none⟩ : System).withCall id
        (s.running id) = s := by
      simp [System.withCall]
    rwa [hback] at hrest

/-- Two calls start, one fails and opens the circuit, and the other is from before. -/
theorem trips_exactly_once : ∃ s c, s.breaker.state = .opened ∧ c.Stale s 1 ∧
    TripsExactly ⟨1, 10⟩ [.start 0 0, .start 1 0, .settle 0 .rejection 3] s c := by
  refine ⟨_, _, ?_, ?_, trips_exactly ⟨1, 10⟩ (by decide) _ _ _ rfl⟩
  · rfl
  · exact ⟨by decide, by decide⟩

end CircuitBreaker
end FirecrawlGateway
