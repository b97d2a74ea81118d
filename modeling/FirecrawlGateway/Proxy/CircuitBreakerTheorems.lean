import FirecrawlGateway.Proxy.CircuitBreaker

/-!
# Safety of the circuit breaker

The invariant `Inv` ties the three fields the source updates in different methods to the
calls that are running: the probe flag is up exactly in the half-open state, and exactly then
one running call is a probe. `execute_cases` says once what a new call can meet, and the
`release_*` lemmas what a settled one does; every safety property is read off these.
-/

namespace FirecrawlGateway
namespace CircuitBreaker

variable {o : Options}

/-! ## What the methods do -/

@[simp] lemma transition_state (b : Breaker) (t : CircuitState) : (transition b t).state = t := by
  unfold transition
  split
  · assumption
  · rfl

@[simp] lemma transition_probeInFlight (b : Breaker) (t : CircuitState) :
    (transition b t).probeInFlight = b.probeInFlight := by
  unfold transition
  split <;> rfl

@[simp] lemma transition_consecutiveFailures (b : Breaker) (t : CircuitState) :
    (transition b t).consecutiveFailures = b.consecutiveFailures := by
  unfold transition
  split <;> rfl

@[simp] lemma openCircuit_state (now : ℤ) (b : Breaker) :
    (openCircuit now b).state = .opened := by
  simp [openCircuit]

@[simp] lemma openCircuit_probeInFlight (now : ℤ) (b : Breaker) :
    (openCircuit now b).probeInFlight = b.probeInFlight := by
  simp [openCircuit]

/-- The probe flag is up exactly in the half-open state. -/
def FlagMatches (b : Breaker) : Prop := b.probeInFlight = true ↔ b.state = .halfOpen

/-- What a new call meets when the breaker is enabled: a closed circuit, a circuit that is
still cooling down, one whose cooldown is over, or one with its probe in flight. -/
lemma execute_cases (ho : 1 ≤ o.failureThreshold) {b : Breaker} (hb : FlagMatches b) (now : ℤ) :
    (b.state = .closed ∧
      execute o now b = (b, some (.permit ⟨.closed, b.generation⟩))) ∨
    (b.state = .opened ∧ now - b.openedAt < o.cooldownMs ∧ execute o now b = (b, none)) ∨
    (b.state = .opened ∧ o.cooldownMs ≤ now - b.openedAt ∧
      execute o now b = ({ b with state := .halfOpen, probeInFlight := true },
        some (.permit ⟨.probe, b.generation⟩))) ∨
    (b.state = .halfOpen ∧ execute o now b = (b, none)) := by
  have hpos : ¬ o.failureThreshold ≤ 0 := by omega
  unfold FlagMatches at hb
  cases hs : b.state with
  | closed =>
    left
    simp [execute, hpos, acquire, hs]
  | opened =>
    -- the flag is down, so `acquire` cannot be turned away after its transition
    have hflag : b.probeInFlight = false := by simpa [hs] using hb
    by_cases hcool : now - b.openedAt < o.cooldownMs
    · right; left
      simp [execute, hpos, acquire, hs, hcool]
    · right; right; left
      refine ⟨rfl, not_lt.mp hcool, ?_⟩
      simp [execute, hpos, acquire, hs, hcool, acquireProbe, transition, hflag]
  | halfOpen =>
    have hflag : b.probeInFlight = true := hb.mpr hs
    right; right; right
    simp [execute, hpos, acquire, hs, acquireProbe, hflag]

/-- A settled probe takes the flag down and leaves the circuit open or closed; closed only
with the failure counter at zero. -/
lemma release_probe (now : ℤ) (b : Breaker) (generation : ℕ) (failed : Bool) :
    (release o now b ⟨.probe, generation⟩ failed).probeInFlight = false ∧
    ((release o now b ⟨.probe, generation⟩ failed).state = .opened ∨
      (release o now b ⟨.probe, generation⟩ failed).state = .closed ∧
        (release o now b ⟨.probe, generation⟩ failed).consecutiveFailures = 0) := by
  cases failed <;> simp [release]

/-- A call with a closed permit never touches the probe flag. -/
lemma release_closed_probeInFlight (now : ℤ) (b : Breaker) (generation : ℕ) (failed : Bool) :
    (release o now b ⟨.closed, generation⟩ failed).probeInFlight = b.probeInFlight := by
  unfold release
  simp only
  split_ifs <;> simp

/-- A call with a closed permit changes nothing unless the circuit is closed, and then it
leaves the circuit open, or closed with the failure counter below the threshold. -/
lemma release_closed_state (ho : 1 ≤ o.failureThreshold) (now : ℤ) (b : Breaker)
    (generation : ℕ) (failed : Bool)
    (hb : b.state = .closed → b.consecutiveFailures < o.failureThreshold) :
    let b' := release o now b ⟨.closed, generation⟩ failed
    (b.state ≠ .closed → b' = b) ∧
    (b.state = .closed → b'.state ≠ .halfOpen) ∧
    (b'.state = .closed → b'.consecutiveFailures < o.failureThreshold) := by
  unfold release
  simp only
  split_ifs with hstale hok hfull
  · -- a stale permit
    refine ⟨fun _ => rfl, fun hc => by simp [hc], hb⟩
  · -- a success resets the counter
    obtain ⟨-, hc⟩ := not_or.mp hstale
    refine ⟨fun h => absurd h hc, fun hc => by simp [hc], fun _ => ?_⟩
    show 0 < o.failureThreshold
    omega
  · -- the failure that reaches the threshold opens the circuit
    obtain ⟨-, hc⟩ := not_or.mp hstale
    exact ⟨fun h => absurd h hc, by simp, by simp⟩
  · obtain ⟨-, hc⟩ := not_or.mp hstale
    refine ⟨fun h => absurd h hc, fun hc => by simp [hc], fun _ => ?_⟩
    exact not_le.mp hfull

/-! ## What a step does -/

/-- A call that starts was idle, and the step records what `execute` decided. -/
lemma step_start_eq_some {s s' : System} {id : ℕ} {now : ℤ} :
    step o s (.start id now) = some s' ↔ s.running id = none ∧
      s' = ⟨(execute o now s.breaker).1,
        Function.update s.running id (execute o now s.breaker).2⟩ := by
  simp only [step]
  cases s.running id with
  | none => simp [eq_comm]
  | some a => simp

/-- A call that settles was running, and gives its admission back. -/
lemma step_settle_eq_some {s s' : System} {id : ℕ} {r : Settlement} {now : ℤ} :
    step o s (.settle id r now) = some s' ↔ ∃ a, s.running id = some a ∧
      s' = ⟨executeFinally o now s.breaker a r, Function.update s.running id none⟩ := by
  simp only [step]
  cases s.running id with
  | none => simp
  | some a => simp [eq_comm]

/-- The probes after the running call `id` became `a`. -/
lemma isProbe_update {s : System} {b : Breaker} {id : ℕ} {a : Option Admission} (i : ℕ) :
    IsProbe ⟨b, Function.update s.running id a⟩ i ↔
      if i = id then ∃ g, a = some (.permit ⟨.probe, g⟩) else IsProbe s i := by
  unfold IsProbe
  by_cases hi : i = id
  · subst hi
    simp
  · simp [hi]

/-- Replacing a call that is no probe by one that is no probe moves no probe. -/
lemma isProbe_update_of_not {s : System} {id : ℕ} (hid : ¬ IsProbe s id) {a : Option Admission}
    (ha : ¬ ∃ g, a = some (.permit ⟨.probe, g⟩)) (b : Breaker) (i : ℕ) :
    IsProbe ⟨b, Function.update s.running id a⟩ i ↔ IsProbe s i := by
  rw [isProbe_update]
  split
  · subst_vars
    exact iff_of_false ha hid
  · rfl

/-! ## The invariant -/

structure Inv (o : Options) (s : System) : Prop where
  flag : FlagMatches s.breaker
  one_probe : ∀ i j, IsProbe s i → IsProbe s j → i = j
  probe_iff : s.breaker.state = .halfOpen ↔ ∃ id, IsProbe s id
  below : s.breaker.state = .closed → s.breaker.consecutiveFailures < o.failureThreshold

lemma not_isProbe_of_state {s : System} (h : Inv o s) (hs : s.breaker.state ≠ .halfOpen) (id : ℕ) :
    ¬ IsProbe s id :=
  fun hid => hs (h.probe_iff.mpr ⟨id, hid⟩)

lemma inv_init (ho : 1 ≤ o.failureThreshold) : Inv o {} where
  flag := by simp [FlagMatches]
  one_probe := by simp [IsProbe]
  probe_iff := by simp [IsProbe]
  below _ := ho

/-- A step that moves no probe and keeps the state and the flag keeps the invariant. -/
lemma Inv.frame {s s' : System} (h : Inv o s) (hstate : s'.breaker.state = s.breaker.state)
    (hflag : s'.breaker.probeInFlight = s.breaker.probeInFlight)
    (hprobe : ∀ i, IsProbe s' i ↔ IsProbe s i)
    (hbelow : s'.breaker.state = .closed → s'.breaker.consecutiveFailures < o.failureThreshold) :
    Inv o s' where
  flag := by
    unfold FlagMatches
    rw [hflag, hstate]
    exact h.flag
  one_probe i j hi hj := h.one_probe i j ((hprobe i).mp hi) ((hprobe j).mp hj)
  probe_iff := by
    rw [hstate, h.probe_iff]
    exact exists_congr fun i => (hprobe i).symm
  below := hbelow

lemma inv_start (ho : 1 ≤ o.failureThreshold) {s s' : System} {id : ℕ} {now : ℤ} (h : Inv o s)
    (hstep : step o s (.start id now) = some s') : Inv o s' := by
  obtain ⟨hidle, rfl⟩ := step_start_eq_some.mp hstep
  have hid : ¬ IsProbe s id := by simp [IsProbe, hidle]
  rcases execute_cases ho h.flag now with ⟨hs, he⟩ | ⟨hs, -, he⟩ | ⟨hs, -, he⟩ | ⟨hs, he⟩ <;>
    rw [he]
  · exact h.frame rfl rfl (isProbe_update_of_not hid (by simp) _) h.below
  · exact h.frame rfl rfl (isProbe_update_of_not hid (by simp) _) h.below
  · -- the cooldown is over: this call is the probe, and there was none before
    have hnone : ∀ i, ¬ IsProbe s i := not_isProbe_of_state h (by simp [hs])
    have honly : ∀ b i, IsProbe ⟨b, Function.update s.running id
        (some (.permit ⟨.probe, s.breaker.generation⟩))⟩ i ↔ i = id := by
      intro b i
      rw [isProbe_update]
      split
      · exact iff_of_true ⟨_, rfl⟩ ‹_›
      · exact iff_of_false (hnone i) ‹_›
    refine ⟨by simp [FlagMatches], fun i j hi hj => ?_,
      iff_of_true rfl ⟨id, (honly _ id).mpr rfl⟩, by simp⟩
    rw [(honly _ i).mp hi, (honly _ j).mp hj]
  · exact h.frame rfl rfl (isProbe_update_of_not hid (by simp) _) h.below

lemma inv_settle (ho : 1 ≤ o.failureThreshold) {s s' : System} {id : ℕ} {r : Settlement} {now : ℤ}
    (h : Inv o s) (hstep : step o s (.settle id r now) = some s') : Inv o s' := by
  obtain ⟨a, ha, rfl⟩ := step_settle_eq_some.mp hstep
  match a with
  | .unguarded =>
    have hid : ¬ IsProbe s id := by simp [IsProbe, ha]
    exact h.frame rfl rfl (isProbe_update_of_not hid (by simp) _) h.below
  | .permit ⟨.closed, g⟩ =>
    have hid : ¬ IsProbe s id := by simp [IsProbe, ha]
    have hkeep := isProbe_update_of_not hid (a := none) (by simp)
    obtain ⟨hsame, hnot, hbelow⟩ := release_closed_state ho now s.breaker g r.failed h.below
    by_cases hc : s.breaker.state = .closed
    · -- the circuit was closed, so no probe runs before or after
      have hnone : ∀ i, ¬ IsProbe s i := not_isProbe_of_state h (by simp [hc])
      have hflag : s.breaker.probeInFlight = false := by simpa [FlagMatches, hc] using h.flag
      refine ⟨?_, fun i j hi => absurd ((hkeep _ i).mp hi) (hnone i), ?_, hbelow⟩
      · have := release_closed_probeInFlight (o := o) now s.breaker g r.failed
        exact iff_of_false (by simp [executeFinally, this, hflag]) (hnot hc)
      · exact iff_of_false (hnot hc) fun ⟨i, hi⟩ => hnone i ((hkeep _ i).mp hi)
    · -- the circuit is open or half-open, and this call no longer counts
      have hb := hsame hc
      refine h.frame ?_ ?_ (hkeep _) hbelow <;> exact congrArg _ hb
  | .permit ⟨.probe, g⟩ =>
    have hid : IsProbe s id := ⟨g, ha⟩
    obtain ⟨hflag, hstate⟩ := release_probe (o := o) now s.breaker g r.failed
    have hnot : (release o now s.breaker ⟨.probe, g⟩ r.failed).state ≠ .halfOpen := by
      rcases hstate with hs | ⟨hs, -⟩ <;> simp [hs]
    -- the only probe has just settled
    have hnone : ∀ b i, ¬ IsProbe ⟨b, Function.update s.running id none⟩ i := by
      intro b i
      rw [isProbe_update]
      split
      · simp
      · intro hi
        exact absurd (h.one_probe i id hi hid) ‹_›
    refine ⟨iff_of_false (by simp [executeFinally, hflag]) hnot,
      fun i _ hi => absurd hi (hnone _ i), iff_of_false hnot fun ⟨i, hi⟩ => hnone _ i hi,
      fun hc => ?_⟩
    rcases hstate with hs | ⟨-, hzero⟩
    · simp [executeFinally, hs] at hc
    · show (release o now s.breaker ⟨.probe, g⟩ r.failed).consecutiveFailures < _
      omega

theorem Reachable.inv (ho : 1 ≤ o.failureThreshold) {s : System} (h : Reachable o s) : Inv o s := by
  refine EventMachine.Reachable.invariant h (inv_init ho) fun s e s' hs hstep => ?_
  cases e with
  | start id now => exact inv_start ho hs hstep
  | settle id r now => exact inv_settle ho hs hstep

/-! ## Safety -/

/-- What a state of the breaker guarantees to the calls that run and to those that start. -/
structure Safe (o : Options) (s : System) : Prop where
  /-- At most one running call is a probe. -/
  one_probe : ∀ i j, IsProbe s i → IsProbe s j → i = j
  /-- Unless the circuit is closed, a new call is short-circuited and changes nothing, or it
  becomes the only probe. -/
  short_circuit : s.breaker.state ≠ .closed → ∀ id now s', step o s (.start id now) = some s' →
    (s'.running id = none ∧ s'.breaker = s.breaker) ∨ (IsProbe s' id ∧ ∀ j, ¬ IsProbe s j)
  /-- Nothing is admitted while the circuit is open and still cooling down. -/
  cooldown : s.breaker.state = .opened → ∀ id now s', now - s.breaker.openedAt < o.cooldownMs →
    step o s (.start id now) = some s' → s'.running id = none ∧ s'.breaker = s.breaker
  /-- The circuit is half-open exactly while a probe is in flight. -/
  half_open_iff : s.breaker.state = .halfOpen ↔ ∃ id, IsProbe s id
  /-- A probe can always settle, and then the circuit is open or closed. -/
  probe_settles : ∀ id r now, IsProbe s id → ∃ s', step o s (.settle id r now) = some s' ∧
    (s'.breaker.state = .opened ∨ s'.breaker.state = .closed)
  /-- An open circuit whose cooldown is over admits the next call as its probe. -/
  not_stuck : s.breaker.state = .opened → ∀ id now, o.cooldownMs ≤ now - s.breaker.openedAt →
    s.running id = none → ∃ s', step o s (.start id now) = some s' ∧ IsProbe s' id
  /-- A closed circuit has counted fewer failures than the threshold. -/
  below_threshold : s.breaker.state = .closed →
    s.breaker.consecutiveFailures < o.failureThreshold

lemma Inv.safe (ho : 1 ≤ o.failureThreshold) {s : System} (h : Inv o s) : Safe o s where
  one_probe := h.one_probe
  half_open_iff := h.probe_iff
  below_threshold := h.below
  short_circuit hs id now s' hstep := by
    obtain ⟨-, rfl⟩ := step_start_eq_some.mp hstep
    rcases execute_cases ho h.flag now with ⟨hc, -⟩ | ⟨-, -, he⟩ | ⟨hop, -, he⟩ | ⟨-, he⟩
    · exact absurd hc hs
    · left
      simp [he]
    · right
      refine ⟨?_, not_isProbe_of_state h (by simp [hop])⟩
      simp [IsProbe, he]
    · left
      simp [he]
  cooldown hop id now s' hcool hstep := by
    obtain ⟨-, rfl⟩ := step_start_eq_some.mp hstep
    rcases execute_cases ho h.flag now with ⟨hc, -⟩ | ⟨-, -, he⟩ | ⟨-, hover, -⟩ | ⟨hc, -⟩
    · simp [hop] at hc
    · simp [he]
    · omega
    · simp [hop] at hc
  probe_settles id r now hid := by
    obtain ⟨g, hg⟩ := hid
    refine ⟨_, step_settle_eq_some.mpr ⟨_, hg, rfl⟩, ?_⟩
    obtain ⟨-, hstate⟩ := release_probe (o := o) now s.breaker g r.failed
    exact hstate.imp_right And.left
  not_stuck hop id now hover hidle := by
    refine ⟨_, step_start_eq_some.mpr ⟨hidle, rfl⟩, ?_⟩
    rcases execute_cases ho h.flag now with ⟨hc, -⟩ | ⟨-, hcool, -⟩ | ⟨-, -, he⟩ | ⟨hc, -⟩
    · simp [hop] at hc
    · omega
    · simp [IsProbe, he]
    · simp [hop] at hc

/-- **Circuit breaker safety**, over every interleaving of calls and every clock. -/
theorem safe_of_reachable (o : Options) (ho : 1 ≤ o.failureThreshold) (s : System)
    (h : Reachable o s) : Safe o s :=
  (h.inv ho).safe ho

/-- One failure opens the circuit, and the call that starts after the cooldown is the probe. -/
theorem safe_of_reachable_probe :
    Safe ⟨1, 10⟩ {
      breaker := { state := .halfOpen, consecutiveFailures := 1, openedAt := 3,
                   probeInFlight := true, generation := 1 }
      running := Function.update (Function.update (Function.update (fun _ => none) 0
        (some (.permit ⟨.closed, 0⟩))) 0 none) 1 (some (.permit ⟨.probe, 1⟩)) } :=
  safe_of_reachable ⟨1, 10⟩ (by decide) _
    ⟨[.start 0 0, .settle 0 .rejection 3, .start 1 13], rfl⟩

end CircuitBreaker
end FirecrawlGateway
