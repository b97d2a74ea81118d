import Mathlib.Data.List.TakeWhile
import Mathlib.Tactic

/-!
# Notices of an incident

A condition is checked again and again, and somebody is told about it: that it holds (`alert`),
that it still holds (`stillFiring`), that it no longer does (`resolved`). `Protocol` says of the
checks of one condition, with the notices that were delivered, what the recipient may rely on.
`Legal` says the same check by check: what a notifier may deliver after what it delivered
before. `protocol_of_legal` is the reason to check by check.
-/

namespace IncidentLog

inductive Notice
  | alert
  | stillFiring
  | resolved
deriving DecidableEq, Repr

/-- A check, with the notice that it led to and that was delivered. -/
structure Check where
  now : ℤ
  active : Bool
  delivered : Option Notice
deriving DecidableEq, Repr

/-- `(alert stillFiring* resolved)*`. -/
inductive Cycles : List Notice → Prop
  | nil : Cycles []
  | concat {done : List Notice} (n : ℕ) (h : Cycles done) :
      Cycles (done ++ (.alert :: List.replicate n .stillFiring ++ [.resolved]))

/-- What the recipient may rely on; reminders are `gap` apart, and `needed` clean checks in a row
come before the end of an incident. -/
structure Protocol (gap : ℤ) (needed : ℕ) (checks : List Check) : Prop where
  notices : ∃ whole, Cycles whole ∧ checks.filterMap Check.delivered <+: whole
  active : ∀ c ∈ checks, c.delivered = some .alert ∨ c.delivered = some .stillFiring →
    c.active = true
  /-- A reminder comes `gap` after the last notice, which was of the incident. -/
  reminder : ∀ before c after, checks = before ++ c :: after → c.delivered = some .stillFiring →
    ∃ earlier last quiet, before = earlier ++ last :: quiet ∧
      (last.delivered = some .alert ∨ last.delivered = some .stillFiring) ∧
      (∀ q ∈ quiet, q.delivered = none) ∧ gap ≤ c.now - last.now
  /-- The end of an incident comes at a clean check that is at least the `needed`-th in a row. -/
  resolved : ∀ before c after, checks = before ++ c :: after → c.delivered = some .resolved →
    ∃ earlier clean, before ++ [c] = earlier ++ clean ∧ needed ≤ clean.length ∧
      ∀ q ∈ clean, q.active = false
  /-- The recipient was told of the incident before. -/
  announced : ∀ before c after, checks = before ++ c :: after →
    c.delivered = some .stillFiring ∨ c.delivered = some .resolved →
    ∃ earlier a rest, before = earlier ++ a :: rest ∧ a.delivered = some .alert ∧
      ∀ q ∈ rest, q.delivered = none ∨ q.delivered = some .stillFiring

/-! ## Check by check -/

/-- The last check that led to a notice. -/
def lastNotice (checks : List Check) : Option Check :=
  checks.reverse.find? fun c => c.delivered.isSome

/-- The last notice was not the end of the incident. -/
def Firing (checks : List Check) : Prop :=
  ∃ last, lastNotice checks = some last ∧ last.delivered ≠ some .resolved

/-- How many checks at the end were clean. -/
def cleanRun (checks : List Check) : ℕ := (checks.reverse.takeWhile fun c => !c.active).length

/-- What may be delivered at a check, after the checks before it. -/
inductive Allowed (gap : ℤ) (needed : ℕ) (before : List Check) (c : Check) : Prop
  | quiet (h : c.delivered = none)
  | alert (h : c.delivered = some .alert) (hactive : c.active = true) (hfiring : ¬Firing before)
  | reminder (last : Check) (h : c.delivered = some .stillFiring) (hactive : c.active = true)
      (hlast : lastNotice before = some last) (hfiring : last.delivered ≠ some .resolved)
      (hgap : gap ≤ c.now - last.now)
  | resolved (h : c.delivered = some .resolved) (hfiring : Firing before)
      (hclean : needed ≤ cleanRun (before ++ [c]))

inductive Legal (gap : ℤ) (needed : ℕ) : List Check → Prop
  | nil : Legal gap needed []
  | concat {checks : List Check} {c : Check} (h : Legal gap needed checks)
      (hc : Allowed gap needed checks c) : Legal gap needed (checks ++ [c])

variable {gap : ℤ} {needed : ℕ} {checks before after : List Check} {c last : Check}

lemma lastNotice_concat : lastNotice (checks ++ [c]) =
    if c.delivered.isSome then some c else lastNotice checks := by
  unfold lastNotice
  rw [List.reverse_append, List.reverse_singleton, List.singleton_append, List.find?_cons]
  cases c.delivered <;> rfl

lemma cleanRun_concat : cleanRun (checks ++ [c]) = if c.active then 0 else cleanRun checks + 1 := by
  unfold cleanRun
  rw [List.reverse_append, List.reverse_singleton, List.singleton_append, List.takeWhile_cons]
  cases c.active <;> rfl

lemma not_firing_nil : ¬Firing [] := by
  rintro ⟨last, hlast, -⟩
  cases hlast

lemma firing_concat : Firing (checks ++ [c]) ↔
    (c.delivered = none ∧ Firing checks) ∨ c.delivered = some .alert ∨
      c.delivered = some .stillFiring := by
  unfold Firing
  rw [lastNotice_concat]
  cases hc : c.delivered with
  | none => simp
  | some notice => cases notice <;> simp [hc]

lemma firing_of_lastNotice (hlast : lastNotice checks = some last)
    (h : last.delivered ≠ some .resolved) : Firing checks := ⟨last, hlast, h⟩

/-- The last notice, with the quiet checks after it. -/
lemma lastNotice_eq_some (h : lastNotice checks = some last) : ∃ earlier quiet,
    checks = earlier ++ last :: quiet ∧ last.delivered ≠ none ∧
      ∀ q ∈ quiet, q.delivered = none := by
  unfold lastNotice at h
  obtain ⟨hsome, quiet, earlier, hreverse, hquiet⟩ := List.find?_eq_some_iff_append.mp h
  refine ⟨earlier.reverse, quiet.reverse, ?_, ?_, fun q hq => ?_⟩
  · have := congrArg List.reverse hreverse
    simpa using this
  · exact Option.isSome_iff_ne_none.mp hsome
  · have := hquiet q (List.mem_reverse.mp hq)
    simpa using this

/-- The clean checks at the end. -/
lemma exists_clean_suffix (checks : List Check) : ∃ earlier clean,
    checks = earlier ++ clean ∧ clean.length = cleanRun checks ∧
      ∀ q ∈ clean, q.active = false := by
  refine ⟨(checks.reverse.dropWhile fun c => !c.active).reverse,
    (checks.reverse.takeWhile fun c => !c.active).reverse, ?_, ?_, fun q hq => ?_⟩
  · rw [← List.reverse_append, List.takeWhile_append_dropWhile, List.reverse_reverse]
  · rw [List.length_reverse]
    rfl
  · have := List.mem_takeWhile_imp (List.mem_reverse.mp hq)
    simpa using this

/-- Every check of a legal list is allowed by those before it, which are legal. -/
lemma Legal.allowed (h : Legal gap needed (before ++ c :: after)) :
    Legal gap needed before ∧ Allowed gap needed before c := by
  generalize hchecks : before ++ c :: after = checks at h
  induction h generalizing after with
  | nil => simp at hchecks
  | concat h hc ih =>
    rcases List.eq_nil_or_concat after with rfl | ⟨rest, d, rfl⟩
    · obtain ⟨rfl, hcd⟩ := List.append_inj' hchecks rfl
      cases hcd
      exact ⟨h, hc⟩
    · rw [List.concat_eq_append, ← List.cons_append, ← List.append_assoc] at hchecks
      exact ih (List.append_inj' hchecks rfl).1

/-- The notices so far: whole incidents, and the one that goes on. -/
lemma Legal.notices (h : Legal gap needed checks) : ∃ done, Cycles done ∧
    ((¬Firing checks ∧ checks.filterMap Check.delivered = done) ∨
      ∃ n, Firing checks ∧
        checks.filterMap Check.delivered = done ++ .alert :: List.replicate n .stillFiring) := by
  induction h with
  | nil => exact ⟨[], .nil, Or.inl ⟨not_firing_nil, rfl⟩⟩
  | @concat checks c h hc ih =>
    obtain ⟨done, hdone, hcase⟩ := ih
    rw [List.filterMap_append]
    cases hc with
    | quiet hquiet =>
      refine ⟨done, hdone, ?_⟩
      simpa [firing_concat, hquiet] using hcase
    | alert halert _ hfiring =>
      obtain ⟨-, hnotices⟩ | ⟨n, hfiring', -⟩ := hcase
      · refine ⟨done, hdone, Or.inr ⟨0, firing_concat.mpr (Or.inr (Or.inl halert)), ?_⟩⟩
        simp [hnotices, halert]
      · exact absurd hfiring' hfiring
    | reminder last hstill _ hlast hfiring _ =>
      obtain ⟨hnot, -⟩ | ⟨n, -, hnotices⟩ := hcase
      · exact absurd (firing_of_lastNotice hlast hfiring) hnot
      · refine ⟨done, hdone, Or.inr ⟨n + 1, firing_concat.mpr (Or.inr (Or.inr hstill)), ?_⟩⟩
        simp [hnotices, hstill, List.replicate_succ']
    | resolved hresolved hfiring _ =>
      obtain ⟨hnot, -⟩ | ⟨n, -, hnotices⟩ := hcase
      · exact absurd hfiring hnot
      · refine ⟨_, hdone.concat n, Or.inl ⟨?_, ?_⟩⟩
        · simp [firing_concat, hresolved]
        · simp [hnotices, hresolved]

/-- An incident that goes on was announced. -/
lemma Legal.announced (h : Legal gap needed checks) (hfiring : Firing checks) :
    ∃ earlier a rest, checks = earlier ++ a :: rest ∧ a.delivered = some .alert ∧
      ∀ q ∈ rest, q.delivered = none ∨ q.delivered = some .stillFiring := by
  induction h with
  | nil => exact absurd hfiring not_firing_nil
  | @concat checks c h hc ih =>
    -- one more check of an incident that was announced before
    have hextend : (c.delivered = none ∨ c.delivered = some .stillFiring) → Firing checks →
        ∃ earlier a rest, checks ++ [c] = earlier ++ a :: rest ∧ a.delivered = some .alert ∧
          ∀ q ∈ rest, q.delivered = none ∨ q.delivered = some .stillFiring := by
      intro hdelivered hbefore
      obtain ⟨earlier, a, rest, rfl, ha, hrest⟩ := ih hbefore
      refine ⟨earlier, a, rest ++ [c], by simp, ha, fun q hq => ?_⟩
      rcases List.mem_append.mp hq with hq | hq
      · exact hrest q hq
      · rwa [List.mem_singleton.mp hq]
    cases hc with
    | quiet hquiet =>
      rcases firing_concat.mp hfiring with ⟨-, hbefore⟩ | hnotice | hnotice
      · exact hextend (Or.inl hquiet) hbefore
      · rw [hquiet] at hnotice
        cases hnotice
      · rw [hquiet] at hnotice
        cases hnotice
    | alert halert _ _ => exact ⟨checks, c, [], rfl, halert, fun q hq => by cases hq⟩
    | reminder last hstill _ hlast hnot _ =>
      exact hextend (Or.inr hstill) (firing_of_lastNotice hlast hnot)
    | resolved hresolved _ _ =>
      simp [firing_concat, hresolved] at hfiring

theorem protocol_of_legal (h : Legal gap needed checks) : Protocol gap needed checks where
  notices := by
    obtain ⟨done, hdone, hcase⟩ := h.notices
    obtain ⟨-, hnotices⟩ | ⟨n, -, hnotices⟩ := hcase
    · exact ⟨done, hdone, hnotices ▸ List.prefix_rfl⟩
    · refine ⟨_, hdone.concat n, ?_⟩
      rw [hnotices]
      exact ⟨[.resolved], by simp⟩
  active := by
    intro c hc hdelivered
    obtain ⟨before, after, rfl⟩ := List.append_of_mem hc
    cases h.allowed.2 with
    | quiet hquiet => simp [hquiet] at hdelivered
    | alert _ hactive _ => exact hactive
    | reminder _ _ hactive _ _ _ => exact hactive
    | resolved hresolved _ _ => simp [hresolved] at hdelivered
  reminder := by
    rintro before c after rfl hstill
    cases h.allowed.2 with
    | quiet hquiet => simp [hquiet] at hstill
    | alert halert _ _ => simp [halert] at hstill
    | reminder last _ _ hlast hfiring hgap =>
      obtain ⟨earlier, quiet, hbefore, hsome, hquiet⟩ := lastNotice_eq_some hlast
      refine ⟨earlier, last, quiet, hbefore, ?_, hquiet, hgap⟩
      cases hd : last.delivered with
      | none => exact absurd hd hsome
      | some notice => cases notice <;> simp_all
    | resolved hresolved _ _ => simp [hresolved] at hstill
  resolved := by
    rintro before c after rfl hresolved
    cases h.allowed.2 with
    | quiet hquiet => simp [hquiet] at hresolved
    | alert halert _ _ => simp [halert] at hresolved
    | reminder _ hstill _ _ _ _ => simp [hstill] at hresolved
    | resolved _ _ hclean =>
      obtain ⟨earlier, clean, heq, hlength, hall⟩ := exists_clean_suffix (before ++ [c])
      exact ⟨earlier, clean, heq, hlength ▸ hclean, hall⟩
  announced := by
    rintro before c after rfl hdelivered
    obtain ⟨hbefore, hallowed⟩ := h.allowed
    cases hallowed with
    | quiet hquiet => simp [hquiet] at hdelivered
    | alert halert _ _ => simp [halert] at hdelivered
    | reminder _ _ _ hlast hfiring _ => exact hbefore.announced (firing_of_lastNotice hlast hfiring)
    | resolved _ hfiring _ => exact hbefore.announced hfiring

end IncidentLog
