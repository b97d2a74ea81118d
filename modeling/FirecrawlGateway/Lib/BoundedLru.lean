import Mathlib.Tactic

/-!
# Least recently used, within a bound

A store knows what it keeps under each key and when the key was last used. When a value is put in,
what stays of the others is what fits next to it together with everything that was used later.

A program keeps such a store as a list with the least recently used entry first. There the entries
that stay are the longest suffix that fits (`LongestSuffix`), which is what is left when entries
are dropped from the front (`fitting`). `Lists.put`, `Lists.use`, `Lists.forget` and `Lists.clear`
carry a list and its store through the operations.
-/

namespace BoundedLru

variable {κ ν : Type*} (weight : ν → ℕ)

/-! ## Suffixes that fit -/

def total (l : List (κ × ν)) : ℕ := (l.map fun e => weight e.2).sum

@[simp] lemma total_nil : total weight ([] : List (κ × ν)) = 0 := rfl

@[simp] lemma total_cons (e : κ × ν) (l : List (κ × ν)) :
    total weight (e :: l) = weight e.2 + total weight l := rfl

@[simp] lemma total_append (l m : List (κ × ν)) :
    total weight (l ++ m) = total weight l + total weight m := by
  unfold total
  rw [List.map_append, List.sum_append]

lemma total_le_of_sublist {l m : List (κ × ν)} (h : l.Sublist m) :
    total weight l ≤ total weight m := by
  unfold total
  exact (h.map _).sum_le_sum fun _ _ => Nat.zero_le _

/-- What is left when entries are dropped from the front until the rest fits. -/
def fitting (cap : ℕ) : List (κ × ν) → List (κ × ν)
  | [] => []
  | e :: l => if total weight (e :: l) ≤ cap then e :: l else fitting cap l

/-- `kept` is the longest suffix of the entries that fits. -/
structure LongestSuffix (cap : ℕ) (l kept : List (κ × ν)) : Prop where
  suffix : kept <:+ l
  fits : total weight kept ≤ cap
  longest : ∀ other, other <:+ l → total weight other ≤ cap → other <:+ kept

lemma longestSuffix_fitting (cap : ℕ) (l : List (κ × ν)) :
    LongestSuffix weight cap l (fitting weight cap l) := by
  induction l with
  | nil => exact ⟨List.suffix_rfl, Nat.zero_le _, fun other h _ => h⟩
  | cons e l ih =>
    unfold fitting
    split_ifs with hfits
    · exact ⟨List.suffix_rfl, hfits, fun other h _ => h⟩
    · refine ⟨ih.suffix.trans (List.suffix_cons e l), ih.fits, fun other h hother => ?_⟩
      rcases List.suffix_cons_iff.mp h with rfl | h
      · exact absurd hother hfits
      · exact ih.longest other h hother

/-- The last entry stays if it fits, and the others have the room it leaves. -/
lemma fitting_concat {cap : ℕ} {e : κ × ν} (h : weight e.2 ≤ cap) (l : List (κ × ν)) :
    fitting weight cap (l ++ [e]) = fitting weight (cap - weight e.2) l ++ [e] := by
  induction l with
  | nil => exact if_pos h
  | cons f l ih =>
    have hroom : total weight (f :: (l ++ [e])) ≤ cap ↔
        total weight (f :: l) ≤ cap - weight e.2 := by
      rw [← List.cons_append, total_append, total_cons weight e, total_nil]
      omega
    rw [List.cons_append, fitting, fitting, ih]
    by_cases hfits : total weight (f :: l) ≤ cap - weight e.2
    · rw [if_pos (hroom.mpr hfits), if_pos hfits, List.cons_append]
    · rw [if_neg (mt hroom.mp hfits), if_neg hfits]

/-- An entry stays when it fits together with those behind it. -/
lemma mem_fitting_iff {cap : ℕ} {before after : List (κ × ν)} {e : κ × ν}
    (hnodup : (before ++ e :: after).Nodup) :
    e ∈ fitting weight cap (before ++ e :: after) ↔ total weight (e :: after) ≤ cap := by
  have hlongest := longestSuffix_fitting weight cap (before ++ e :: after)
  have hsuffix : e :: after <:+ before ++ e :: after := List.suffix_append ..
  constructor
  · intro hmem
    obtain ⟨front, back, hkept⟩ := List.append_of_mem hmem
    obtain ⟨dropped, hdropped⟩ := hlongest.suffix
    -- an entry is in one place only
    have hsame : after = back := by
      rw [hkept, ← List.append_assoc] at hdropped
      obtain ⟨-, hafter, hbefore⟩ := List.nodup_append.mp hnodup
      have hnot : e ∉ before := fun h => hbefore e h e List.mem_cons_self rfl
      exact ((List.append_cons_inj_of_notMem hnot (List.nodup_cons.mp hafter).1).mp
        hdropped.symm).2.2
    subst hsame
    exact (total_le_of_sublist weight (hkept ▸ List.sublist_append_right ..)).trans hlongest.fits
  · intro hfits
    exact (hlongest.longest _ hsuffix hfits).subset List.mem_cons_self

/-! ## The store -/

/-- What is kept under a key, and at which use of the store the key was last used. The keys are
those that were ever put in. -/
structure Store (κ ν : Type*) where
  time : ℕ
  keys : Finset κ
  used : κ → ℕ
  kept : κ → Option ν
  used_le : ∀ k, used k ≤ time
  mem_keys : ∀ k v, kept k = some v → k ∈ keys

namespace Store

variable [DecidableEq κ] (s : Store κ ν)

def empty : Store κ ν where
  time := 0
  keys := ∅
  used _ := 0
  kept _ := none
  used_le _ := le_rfl
  mem_keys _ _ h := nomatch h

lemma used_update_le (k j : κ) : Function.update s.used k (s.time + 1) j ≤ s.time + 1 := by
  by_cases hj : j = k
  · rw [hj, Function.update_self]
  · rw [Function.update_of_ne hj]
    exact (s.used_le j).trans (Nat.le_succ _)

def use (k : κ) : Store κ ν :=
  { s with
    time := s.time + 1
    used := Function.update s.used k (s.time + 1)
    used_le := s.used_update_le k }

def forget (k : κ) : Store κ ν :=
  { s with
    kept := Function.update s.kept k none
    mem_keys := fun j v h => by
      by_cases hj : j = k
      · rw [hj, Function.update_self] at h
        cases h
      · rw [Function.update_of_ne hj] at h
        exact s.mem_keys j v h }

def clear : Store κ ν :=
  { s with
    kept := fun _ => none
    mem_keys := fun _ _ h => nomatch h }

/-- The weight of what is kept under the keys other than `k` that were used when `j` was or
later. -/
def usedSince (k j : κ) : ℕ :=
  ∑ i ∈ s.keys with i ≠ k ∧ s.used j ≤ s.used i, (s.kept i).elim 0 weight

/-- What is kept once `v` is put in under `k`. -/
def keptNext (cap : ℕ) (k : κ) (v : ν) (j : κ) : Option ν :=
  if j = k then some v
  else if weight v + s.usedSince weight k j ≤ cap then s.kept j
  else none

def put (cap : ℕ) (k : κ) (v : ν) : Store κ ν where
  time := s.time + 1
  keys := insert k s.keys
  used := Function.update s.used k (s.time + 1)
  kept := s.keptNext weight cap k v
  used_le := s.used_update_le k
  mem_keys j w h := by
    rw [Finset.mem_insert]
    by_cases hj : j = k
    · exact Or.inl hj
    · unfold keptNext at h
      rw [if_neg hj] at h
      split_ifs at h
      exact Or.inr (s.mem_keys j w h)

end Store

/-! ## Stores as lists -/

variable {weight}

/-- The list has the entries of the store, the least recently used first. -/
structure Lists (l : List (κ × ν)) (s : Store κ ν) : Prop where
  mem : ∀ k v, (k, v) ∈ l ↔ s.kept k = some v
  ordered : l.Pairwise fun a b => s.used a.1 < s.used b.1

/-- The entries under other keys. -/
def others [DecidableEq κ] (l : List (κ × ν)) (k : κ) : List (κ × ν) := l.filter (·.1 ≠ k)

lemma others_eq_self [DecidableEq κ] {l : List (κ × ν)} {k : κ} (h : ∀ v, (k, v) ∉ l) :
    others l k = l := by
  refine List.filter_eq_self.mpr fun e he => ?_
  rw [decide_eq_true_iff]
  rintro rfl
  exact h e.2 he

/-- Entries last used one after another have different keys. -/
lemma nodup_of_ordered {l : List (κ × ν)} {used : κ → ℕ}
    (h : l.Pairwise fun a b => used a.1 < used b.1) : (l.map Prod.fst).Nodup :=
  List.pairwise_map.mpr (h.imp fun hlt heq => absurd (heq ▸ hlt) (lt_irrefl _))

variable (weight) in
/-- The weight of one entry and of the others. -/
lemma total_others [DecidableEq κ] {l : List (κ × ν)} (hnodup : (l.map Prod.fst).Nodup) {k : κ}
    {v : ν} (hmem : (k, v) ∈ l) : total weight l = weight v + total weight (others l k) := by
  obtain ⟨before, after, rfl⟩ := List.append_of_mem hmem
  rw [List.map_append, List.map_cons, List.nodup_append, List.nodup_cons] at hnodup
  obtain ⟨-, ⟨hafter, -⟩, hbefore⟩ := hnodup
  have hleft : others before k = before := others_eq_self fun w hw =>
    hbefore k (List.mem_map.mpr ⟨(k, w), hw, rfl⟩) k List.mem_cons_self rfl
  have hright : others after k = after := others_eq_self fun w hw =>
    hafter (List.mem_map.mpr ⟨(k, w), hw, rfl⟩)
  have hothers : others (before ++ (k, v) :: after) k = before ++ after := by
    unfold others at hleft hright ⊢
    rw [List.filter_append, List.filter_cons_of_neg (by simp), hleft, hright]
  rw [hothers, total_append, total_append, total_cons, Nat.add_left_comm]

section Lists

variable {l : List (κ × ν)} {s : Store κ ν}

lemma lists_empty : Lists ([] : List (κ × ν)) Store.empty :=
  ⟨fun _ _ => ⟨(nomatch ·), (nomatch ·)⟩, List.Pairwise.nil⟩

lemma Lists.clear (_ : Lists l s) : Lists [] s.clear :=
  ⟨fun _ _ => ⟨(nomatch ·), (nomatch ·)⟩, List.Pairwise.nil⟩

variable [DecidableEq κ]

lemma Lists.mem_others (h : Lists l s) {k j : κ} {w : ν} :
    (j, w) ∈ others l k ↔ s.kept j = some w ∧ j ≠ k := by
  unfold others
  rw [List.mem_filter, h.mem, decide_eq_true_iff]

lemma Lists.forget (h : Lists l s) (k : κ) : Lists (others l k) (s.forget k) := by
  refine ⟨fun j v => ?_, h.ordered.sublist List.filter_sublist⟩
  show (j, v) ∈ others l k ↔ Function.update s.kept k none j = some v
  rw [h.mem_others]
  by_cases hj : j = k
  · simp [hj]
  · simp [hj]

/-- An entry that is used goes to the end. -/
lemma Lists.ordered_concat (h : Lists l s) {kept : List (κ × ν)} {k : κ}
    (hkept : kept.Sublist (others l k)) (v : ν) :
    (kept ++ [(k, v)]).Pairwise fun a b =>
      Function.update s.used k (s.time + 1) a.1 < Function.update s.used k (s.time + 1) b.1 := by
  have hne : ∀ e ∈ kept, e.1 ≠ k := fun e he => by
    simpa using List.of_mem_filter (hkept.subset he)
  have hordered := h.ordered.sublist (hkept.trans List.filter_sublist)
  refine List.pairwise_append.mpr ⟨?_, List.pairwise_singleton .., fun a ha b hb => ?_⟩
  · refine hordered.imp_of_mem fun ha hb hlt => ?_
    rwa [Function.update_of_ne (hne _ ha), Function.update_of_ne (hne _ hb)]
  · rw [List.mem_singleton.mp hb, Function.update_of_ne (hne a ha), Function.update_self]
    exact Nat.lt_succ_of_le (s.used_le a.1)

lemma Lists.use (h : Lists l s) {k : κ} {v : ν} (hkept : s.kept k = some v) :
    Lists (others l k ++ [(k, v)]) (s.use k) := by
  refine ⟨fun j w => ?_, h.ordered_concat (List.Sublist.refl _) v⟩
  show (j, w) ∈ others l k ++ [(k, v)] ↔ s.kept j = some w
  rw [List.mem_append, h.mem_others, List.mem_singleton]
  by_cases hj : j = k
  · simp [hj, hkept, eq_comm]
  · simp [hj]

/-- The weight of what was used since is the weight of the entries from there on. -/
lemma Lists.usedSince_eq (h : Lists l s) {k j : κ} {w : ν} {before after : List (κ × ν)}
    (hsplit : others l k = before ++ (j, w) :: after) :
    s.usedSince weight k j = total weight ((j, w) :: after) := by
  set rest := (j, w) :: after with hrest
  have hordered : (before ++ rest).Pairwise fun a b => s.used a.1 < s.used b.1 :=
    hsplit ▸ h.ordered.sublist List.filter_sublist
  obtain ⟨-, hafter, hbefore⟩ := List.pairwise_append.mp hordered
  have hkept : ∀ e ∈ rest, s.kept e.1 = some e.2 ∧ e.1 ≠ k := fun e he =>
    h.mem_others.mp (hsplit ▸ List.mem_append_right before he)
  have hsince : ∀ e ∈ rest, s.used j ≤ s.used e.1 := fun e he => by
    rcases List.mem_cons.mp he with rfl | he
    · exact le_rfl
    · exact ((List.pairwise_cons.mp hafter).1 e he).le
  have hnodup : (rest.map Prod.fst).Nodup := nodup_of_ordered hafter
  have hsubset : (rest.map Prod.fst).toFinset ⊆
      {i ∈ s.keys | i ≠ k ∧ s.used j ≤ s.used i} := by
    intro i hi
    obtain ⟨e, he, rfl⟩ := List.mem_map.mp (List.mem_toFinset.mp hi)
    exact Finset.mem_filter.mpr
      ⟨s.mem_keys _ _ (hkept e he).1, (hkept e he).2, hsince e he⟩
  calc s.usedSince weight k j
      = ∑ i ∈ (rest.map Prod.fst).toFinset, (s.kept i).elim 0 weight := by
        refine (Finset.sum_subset hsubset fun i hi hnot => ?_).symm
        obtain ⟨-, hne, hle⟩ := Finset.mem_filter.mp hi
        cases hi : s.kept i with
        | none => rfl
        | some u =>
          -- it would be one of those before, which were used earlier
          have hmem : (i, u) ∈ before ++ rest := hsplit ▸ h.mem_others.mpr ⟨hi, hne⟩
          rcases List.mem_append.mp hmem with hmem | hmem
          · exact absurd hle (not_le.mpr (hbefore _ hmem (j, w) List.mem_cons_self))
          · exact absurd (List.mem_toFinset.mpr (List.mem_map_of_mem hmem)) hnot
    _ = ((rest.map Prod.fst).map fun i => (s.kept i).elim 0 weight).sum :=
        List.sum_toFinset _ hnodup
    _ = total weight rest := by
        unfold total
        rw [List.map_map]
        refine congrArg List.sum (List.map_congr_left fun e he => ?_)
        simp only [Function.comp_apply, (hkept e he).1, Option.elim_some]

variable (weight) in
lemma Lists.put (h : Lists l s) {cap : ℕ} {v : ν} (hfits : weight v ≤ cap) (k : κ) :
    Lists (fitting weight (cap - weight v) (others l k) ++ [(k, v)]) (s.put weight cap k v) := by
  have hlongest := longestSuffix_fitting weight (cap - weight v) (others l k)
  refine ⟨fun j w => ?_, h.ordered_concat hlongest.suffix.sublist v⟩
  show _ ↔ s.keptNext weight cap k v j = some w
  unfold Store.keptNext
  rw [List.mem_append, List.mem_singleton]
  by_cases hj : j = k
  · -- no other entry has the key
    have hnot : (j, w) ∉ fitting weight (cap - weight v) (others l k) := fun hmem =>
      (h.mem_others.mp (hlongest.suffix.subset hmem)).2 hj
    rw [if_pos hj, or_iff_right hnot, Prod.mk_inj, Option.some_inj]
    exact ⟨fun heq => heq.2.symm, fun heq => ⟨hj, heq.symm⟩⟩
  · have hne : (j, w) ≠ (k, v) := fun heq => hj (Prod.mk_inj.mp heq).1
    rw [if_neg hj, or_iff_left hne]
    by_cases hmem : (j, w) ∈ others l k
    · obtain ⟨before, after, hsplit⟩ := List.append_of_mem hmem
      have hnodup : (others l k).Nodup := ((nodup_of_ordered h.ordered).of_map _).filter _
      rw [h.usedSince_eq hsplit, (h.mem_others.mp hmem).1, hsplit,
        mem_fitting_iff weight (hsplit ▸ hnodup), ite_eq_left_iff]
      simp only [reduceCtorEq, imp_false, not_not]
      omega
    · have hnot : s.kept j ≠ some w := fun hkept => hmem (h.mem_others.mpr ⟨hkept, hj⟩)
      refine iff_of_false (fun hin => hmem (hlongest.suffix.subset hin)) ?_
      split_ifs
      · exact hnot
      · exact fun heq => nomatch heq

end Lists

end BoundedLru
