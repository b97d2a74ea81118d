import Mathlib.Tactic

/-!
# Guarded logs

A log records what a program did, oldest first. It is guarded by `ok` when every entry was
allowed by the entries before it. A program that appends only what is allowed keeps its log
guarded, and what holds of the log as a whole follows from the guard.
-/

namespace GuardedLog

variable {α β : Type*} {ok : List α → α → Prop} {log : List α}

/-- Every entry of the log was allowed by the entries before it. -/
def Guarded (ok : List α → α → Prop) (log : List α) : Prop :=
  ∀ pre a post, log = pre ++ a :: post → ok pre a

lemma guarded_nil : Guarded ok [] := by
  intro pre a post h
  simp at h

/-- One more entry. -/
lemma Guarded.snoc {a : α} (h : Guarded ok log) (ha : ok log a) : Guarded ok (log ++ [a]) := by
  intro pre b post heq
  rcases List.eq_nil_or_concat post with rfl | ⟨post, c, rfl⟩
  · obtain ⟨rfl, hab⟩ := List.append_inj' heq rfl
    cases hab
    exact ha
  · rw [List.concat_eq_append, ← List.cons_append, ← List.append_assoc] at heq
    obtain ⟨hlog, -⟩ := List.append_inj' heq rfl
    exact h pre b post hlog

/-- The log before its last entry. -/
lemma Guarded.init {a : α} (h : Guarded ok (log ++ [a])) : Guarded ok log := by
  intro pre b post heq
  refine h pre b (post ++ [a]) ?_
  rw [heq, List.append_assoc, List.cons_append]

lemma Guarded.last {a : α} (h : Guarded ok (log ++ [a])) : ok log a := h log a [] rfl

/-! ## Consequences -/

/-- What the guard says of every value read off the log. -/
lemma Guarded.forall_filterMap {f : α → Option β} {p : β → Prop} (h : Guarded ok log)
    (hp : ∀ pre a b, ok pre a → f a = some b → p b) : ∀ b ∈ log.filterMap f, p b := by
  intro b hb
  obtain ⟨a, ha, hf⟩ := List.mem_filterMap.mp hb
  obtain ⟨pre, post, heq⟩ := List.append_of_mem ha
  exact hp pre a b (h pre a post heq) hf

/-- A guard that rules a kind of entry out. -/
lemma Guarded.filterMap_eq_nil {f : α → Option β} (h : Guarded ok log)
    (hnone : ∀ pre a b, ok pre a → f a ≠ some b) : log.filterMap f = [] :=
  List.eq_nil_iff_forall_not_mem.mpr (h.forall_filterMap hnone)

/-- A guard that asks for fresh values gives distinct values. -/
lemma Guarded.nodup_filterMap {f : α → Option β} (h : Guarded ok log)
    (hfresh : ∀ pre a b, ok pre a → f a = some b → b ∉ pre.filterMap f) :
    (log.filterMap f).Nodup := by
  induction log using List.reverseRecOn with
  | nil => exact List.nodup_nil
  | append_singleton log a ih =>
    rw [List.filterMap_append]
    cases hf : f a with
    | none => simpa [hf] using ih h.init
    | some b =>
      have hb := hfresh log a b h.last hf
      simp only [List.filterMap_cons, hf, List.filterMap_nil]
      rw [List.nodup_append]
      refine ⟨ih h.init, List.nodup_singleton b, fun x hx y hy => ?_⟩
      rw [List.mem_singleton.mp hy]
      rintro rfl
      exact hb hx

/-- A guard that asks for no earlier value gives at most one. -/
lemma Guarded.filterMap_length_le {f : α → Option β} (h : Guarded ok log)
    (hfirst : ∀ pre a b, ok pre a → f a = some b → pre.filterMap f = []) :
    (log.filterMap f).length ≤ 1 := by
  induction log using List.reverseRecOn with
  | nil => exact Nat.zero_le 1
  | append_singleton log a ih =>
    rw [List.filterMap_append]
    cases hf : f a with
    | none => simpa [hf] using ih h.init
    | some b => simp [hf, hfirst log a b h.last hf]

end GuardedLog
