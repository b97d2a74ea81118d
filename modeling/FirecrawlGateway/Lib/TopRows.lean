import Mathlib.Tactic

/-!
# The greatest members of a set

`ORDER BY key DESC LIMIT n` gives the `n` greatest rows; among rows with equal keys the choice is
free. `IsTop` says that a list is such a choice, `isTop_take` that a sorted list starts with one, and
`IsTop.merge` that two of them make one of the union, also when the second one leaves out what is
below a bound and the first one has seen that.
-/

namespace TopRows

variable {α κ : Type*} [LinearOrder κ]

/-- `top` is the `n` greatest members of `rows`, the greatest first. -/
structure IsTop (key : α → κ) (n : ℕ) (rows : Set α) (top : List α) : Prop where
  nodup : top.Nodup
  sorted : top.Pairwise fun a b => key b ≤ key a
  subset : ∀ a ∈ top, a ∈ rows
  length_le : top.length ≤ n
  complete : ∀ a ∈ rows, a ∉ top → top.length = n ∧ ∀ b ∈ top, key a ≤ key b

variable {key : α → κ} {n : ℕ} {rows rows' later : Set α} {top top' sorted : List α}

/-- A member that comes after the first `n` of a sorted list is no greater than any of them. -/
lemma le_of_mem_drop (hsorted : sorted.Pairwise fun a b => key b ≤ key a) {a b : α}
    (ha : a ∈ sorted.drop n) (hb : b ∈ sorted.take n) : key a ≤ key b := by
  rw [← List.take_append_drop n sorted] at hsorted
  exact (List.pairwise_append.mp hsorted).2.2 b hb a ha

/-- A sorted list starts with its greatest members. -/
lemma isTop_take (hsorted : sorted.Pairwise fun a b => key b ≤ key a) (hnodup : sorted.Nodup) :
    IsTop key n {a | a ∈ sorted} (sorted.take n) := by
  constructor
  · exact hnodup.sublist (List.take_sublist n sorted)
  · exact hsorted.sublist (List.take_sublist n sorted)
  · exact fun a ha => List.mem_of_mem_take ha
  · exact List.length_take_le n sorted
  · intro a ha hnot
    have hdrop : a ∈ sorted.drop n := by
      have hmem : a ∈ sorted.take n ++ sorted.drop n := by rwa [List.take_append_drop]
      exact (List.mem_append.mp hmem).resolve_left hnot
    refine ⟨?_, fun b hb => le_of_mem_drop hsorted hdrop hb⟩
    have hlong := List.length_pos_of_mem hdrop
    rw [List.length_drop] at hlong
    rw [List.length_take]
    omega

/-- Where `n` members of a sorted list are at least `k`, its first `n` are. -/
lemma le_of_mem_take (hsorted : sorted.Pairwise fun a b => key b ≤ key a) {great : List α}
    (hgreat : great.Nodup) (hlength : great.length = n) (hsub : ∀ a ∈ great, a ∈ sorted) {k : κ}
    (hk : ∀ a ∈ great, k ≤ key a) :
    (sorted.take n).length = n ∧ ∀ b ∈ sorted.take n, k ≤ key b := by
  have hle : great.length ≤ sorted.length := (hgreat.subperm hsub).length_le
  refine ⟨by rw [List.length_take]; omega, fun b hb => ?_⟩
  by_contra hlt
  -- then all of them come before `b`, and there are too many
  obtain ⟨front, rest, hsplit⟩ := List.append_of_mem hb
  have hbefore : ∀ a ∈ great, a ∈ front := by
    intro a ha
    have hlater : ∀ x ∈ rest ++ sorted.drop n, key x ≤ key b := by
      rw [← List.take_append_drop n sorted, hsplit, List.append_assoc] at hsorted
      exact (List.pairwise_cons.mp (List.pairwise_append.mp hsorted).2.1).1
    have hmem := hsub a ha
    rw [← List.take_append_drop n sorted, hsplit, List.append_assoc, List.mem_append,
      List.cons_append, List.mem_cons] at hmem
    rcases hmem with hfront | rfl | hlater'
    · exact hfront
    · exact absurd (hk a ha) hlt
    · exact absurd ((hk a ha).trans (hlater a hlater')) hlt
  have hcount := (hgreat.subperm hbefore).length_le
  have htake := congrArg List.length hsplit
  rw [List.length_append, List.length_cons, List.length_take] at htake
  omega

namespace IsTop

lemma congr (h : IsTop key n rows top) (heq : ∀ a, a ∈ rows ↔ a ∈ rows') :
    IsTop key n rows' top := by
  have hrows : rows = rows' := Set.ext heq
  rwa [← hrows]

/-- The greatest members of two sets, sorted together: `top'` need only cover the members of `rows'`
that `rows` does not have. -/
lemma merge (h : IsTop key n rows top) (h' : IsTop key n {a | a ∈ rows' ∧ a ∈ later} top')
    (hlater : ∀ a ∈ rows', a ∉ rows → a ∈ later)
    (hsorted : sorted.Pairwise fun a b => key b ≤ key a) (hnodup : sorted.Nodup)
    (hmem : ∀ a, a ∈ sorted ↔ a ∈ top ∨ a ∈ top') :
    IsTop key n (rows ∪ rows') (sorted.take n) := by
  have htake := isTop_take (n := n) hsorted hnodup
  constructor
  · exact htake.nodup
  · exact htake.sorted
  · intro a ha
    rcases (hmem a).mp (htake.subset a ha) with htop | htop'
    · exact Or.inl (h.subset a htop)
    · exact Or.inr (h'.subset a htop').1
  · exact htake.length_le
  · intro a ha hnot
    by_cases hin : a ∈ sorted
    · exact htake.complete a hin hnot
    · have hout := not_or.mp fun hor => hin ((hmem a).mpr hor)
      by_cases hrows : a ∈ rows
      · obtain ⟨hfull, hge⟩ := h.complete a hrows hout.1
        exact le_of_mem_take hsorted h.nodup hfull (fun b hb => (hmem b).mpr (Or.inl hb)) hge
      · have hrows' := ha.resolve_left hrows
        obtain ⟨hfull, hge⟩ := h'.complete a ⟨hrows', hlater a hrows' hrows⟩ hout.2
        exact le_of_mem_take hsorted h'.nodup hfull (fun b hb => (hmem b).mpr (Or.inr hb)) hge

end IsTop

end TopRows
