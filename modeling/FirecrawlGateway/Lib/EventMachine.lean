import Mathlib.Tactic

/-!
# Machines driven by events

A concurrent program whose atomic sections are known is a deterministic machine: an
interleaving is a list of events, and each event runs one atomic section. This file has
the runs of such machines and the induction rules every safety proof starts from:

* `run_invariant`, for a property every step keeps;
* `run_invariant_along`, for a property a step keeps under a guard, over the runs whose
  steps all meet it;
* `run_iff_along`, for the exact condition under which a run keeps a property;
* `run_iff_run_watched`, for a property of the notes an onlooker takes along a run.
-/

namespace EventMachine

variable {σ ε : Type*} (step : σ → ε → Option σ)

/-! ## Runs -/

/-- The state after a list of events; `none` as soon as one of them cannot happen. -/
def run : σ → List ε → Option σ
  | s, [] => some s
  | s, e :: es => (step s e).bind fun s' => run s' es

@[simp] lemma run_nil (s : σ) : run step s [] = some s := rfl

lemma run_cons (s : σ) (e : ε) (es : List ε) :
    run step s (e :: es) = (step s e).bind fun s' => run step s' es := rfl

lemma run_append (s : σ) (es fs : List ε) :
    run step s (es ++ fs) = (run step s es).bind fun s' => run step s' fs := by
  induction es generalizing s with
  | nil => rfl
  | cons e es ih =>
    rw [List.cons_append, run_cons, run_cons]
    cases step s e with
    | none => rfl
    | some s' => exact ih s'

/-- A run read from its first step. -/
lemma run_cons_eq_some {s t : σ} {e : ε} {es : List ε} :
    run step s (e :: es) = some t ↔ ∃ s', step s e = some s' ∧ run step s' es = some t := by
  rw [run_cons, Option.bind_eq_some_iff]

/-- The states a machine started in `init` can be in. -/
def Reachable (init s : σ) : Prop := ∃ es, run step init es = some s

lemma Reachable.refl (init : σ) : Reachable step init init := ⟨[], rfl⟩

variable {step}

lemma Reachable.trans {init s t : σ} {es : List ε} (h : Reachable step init s)
    (hrun : run step s es = some t) : Reachable step init t := by
  obtain ⟨ds, hds⟩ := h
  refine ⟨ds ++ es, ?_⟩
  rw [run_append, hds]
  exact hrun

/-! ## Induction rules -/

/-- A property that every step keeps holds at the end of every run. -/
theorem run_invariant {I : σ → Prop} (hstep : ∀ s e s', I s → step s e = some s' → I s')
    {s t : σ} {es : List ε} (h : I s) (hrun : run step s es = some t) : I t := by
  induction es generalizing s with
  | nil =>
    cases hrun
    exact h
  | cons e es ih =>
    obtain ⟨s', hs', hrun'⟩ := (run_cons_eq_some step).mp hrun
    exact ih (hstep s e s' h hs') hrun'

/-- A property of the initial state that every step keeps holds in every reachable state. -/
theorem Reachable.invariant {I : σ → Prop} {init s : σ} (h : Reachable step init s)
    (hinit : I init) (hstep : ∀ s e s', I s → step s e = some s' → I s') : I s := by
  obtain ⟨es, hrun⟩ := h
  exact run_invariant hstep hinit hrun

variable (step)

/-- Every step of the run on `es` from `s` is taken in a state and on an event that meet `G`. -/
def Along (G : σ → ε → Prop) : σ → List ε → Prop
  | _, [] => True
  | s, e :: es => G s e ∧ ∀ s', step s e = some s' → Along G s' es

/-- A guard that can be decided is decided along a run. -/
instance decidableAlong (G : σ → ε → Prop) [∀ s e, Decidable (G s e)] :
    ∀ s es, Decidable (Along step G s es)
  | _, [] => isTrue trivial
  | s, e :: es =>
    have : Decidable (∀ s', step s e = some s' → Along step G s' es) :=
      match step s e with
      | none => isTrue fun _ hs' => nomatch hs'
      | some s' =>
        have := decidableAlong G s' es
        decidable_of_iff (Along step G s' es)
          ⟨fun hs' _ heq => Option.some.inj heq ▸ hs', fun hall => hall s' rfl⟩
    inferInstanceAs (Decidable (G s e ∧ _))

/-- A guard on the events alone. -/
lemma along_of_forall {P : ε → Prop} (s : σ) {es : List ε} (h : ∀ e ∈ es, P e) :
    Along step (fun _ e => P e) s es := by
  induction es generalizing s with
  | nil => trivial
  | cons e es ih =>
    obtain ⟨he, hes⟩ := List.forall_mem_cons.mp h
    exact ⟨he, fun s' _ => ih s' hes⟩

variable {step}

/-- A property that every guarded step keeps holds at the end of every guarded run. -/
theorem run_invariant_along {G : σ → ε → Prop} {I : σ → Prop}
    (hstep : ∀ s e s', I s → G s e → step s e = some s' → I s')
    {s t : σ} {es : List ε} (h : I s) (hG : Along step G s es)
    (hrun : run step s es = some t) : I t := by
  induction es generalizing s with
  | nil =>
    cases hrun
    exact h
  | cons e es ih =>
    obtain ⟨s', hs', hrun'⟩ := (run_cons_eq_some step).mp hrun
    exact ih (hstep s e s' h hG.1 hs') (hG.2 s' hs') hrun'

/-- A property that a guarded step gains or loses by a condition of its own holds at the end of a
guarded run exactly when every step met its condition. -/
theorem run_iff_along {G H : σ → ε → Prop} {I P : σ → Prop}
    (hstep : ∀ s e s', I s → G s e → step s e = some s' → I s' ∧ (P s' ↔ P s ∧ H s e))
    {s t : σ} {es : List ε} (h : I s) (hG : Along step G s es)
    (hrun : run step s es = some t) : P t ↔ P s ∧ Along step H s es := by
  induction es generalizing s with
  | nil =>
    cases hrun
    exact (and_iff_left trivial).symm
  | cons e es ih =>
    obtain ⟨s', hs', hrun'⟩ := (run_cons_eq_some step).mp hrun
    obtain ⟨hI, hP⟩ := hstep s e s' h hG.1 hs'
    -- there is one next state only
    have hrest : (∀ t', step s e = some t' → Along step H t' es) ↔ Along step H s' es :=
      ⟨fun hall => hall s' hs', fun hs t' ht' => Option.some.inj (hs'.symm.trans ht') ▸ hs⟩
    rw [ih hI (hG.2 s' hs') hrun', hP, and_assoc]
    exact and_congr_right' (and_congr_right' hrest.symm)

/-! ## Onlookers -/

section Onlookers

variable {ν : Type*} (step) (note : ν → σ → ε → σ → ν)

/-- The machine together with an onlooker, who turns its notes into new ones at every step. -/
def watched (s : σ × ν) (e : ε) : Option (σ × ν) :=
  (step s.1 e).map fun s' => (s', note s.2 s.1 e s')

variable {step note}

lemma watched_eq_some {s t : σ × ν} {e : ε} :
    watched step note s e = some t ↔ step s.1 e = some t.1 ∧ t.2 = note s.2 s.1 e t.1 := by
  unfold watched
  rw [Option.map_eq_some_iff]
  constructor
  · rintro ⟨s', hs', rfl⟩
    exact ⟨hs', rfl⟩
  · rintro ⟨hs', hnote⟩
    exact ⟨t.1, hs', Prod.ext rfl hnote.symm⟩

/-- An onlooker changes nothing: the watched machine has the runs of the machine. -/
theorem run_iff_run_watched {s t : σ} {n : ν} {es : List ε} :
    run step s es = some t ↔ ∃ n', run (watched step note) (s, n) es = some (t, n') := by
  induction es generalizing s n with
  | nil => simp
  | cons e es ih =>
    rw [run_cons_eq_some]
    constructor
    · rintro ⟨s', hs', hrun⟩
      obtain ⟨n', hn'⟩ := ih.mp hrun
      exact ⟨n', (run_cons_eq_some _).mpr ⟨(s', note n s e s'), watched_eq_some.mpr ⟨hs', rfl⟩, hn'⟩⟩
    · rintro ⟨n', hrun⟩
      obtain ⟨⟨s', m⟩, hs', hrun'⟩ := (run_cons_eq_some _).mp hrun
      exact ⟨s', (watched_eq_some.mp hs').1, ih.mpr ⟨n', hrun'⟩⟩

/-- Guards on the machine, along a watched run. -/
lemma along_watched {G : σ → ε → Prop} {s : σ} (n : ν) {es : List ε} (h : Along step G s es) :
    Along (watched step note) (fun w e => G w.1 e) (s, n) es := by
  induction es generalizing s n with
  | nil => trivial
  | cons e es ih =>
    refine ⟨h.1, fun w hw => ?_⟩
    exact ih w.2 (h.2 w.1 (watched_eq_some.mp hw).1)

end Onlookers

end EventMachine
