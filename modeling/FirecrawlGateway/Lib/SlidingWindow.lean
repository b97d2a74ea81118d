import FirecrawlGateway.Lib.JsMap

/-!
# Sums over a sliding window

Weights that come with a place on a line are summed in buckets, one for each place, and the buckets
behind the newest one are dropped. A sum over the places that no drop has reached is the sum over
all weights that ever came, as long as nothing looks behind the drops.
-/

namespace SlidingWindow

variable {β M : Type*} [AddCommMonoid M] (value : β → M)

/-! ## Sums by place -/

/-- What came, newest first: a place and a weight. -/
def weightAt (history : List (ℤ × M)) (place : ℤ) : M :=
  ((history.filter (·.1 = place)).map Prod.snd).sum

/-- The weights of the places after `low`, up to `high`. -/
def weightIn (low high : ℤ) (history : List (ℤ × M)) : M :=
  ((history.filter fun e => low < e.1 ∧ e.1 ≤ high).map Prod.snd).sum

lemma weightAt_cons (place k : ℤ) (w : M) (history : List (ℤ × M)) :
    weightAt ((k, w) :: history) place = (if k = place then w else 0) + weightAt history place := by
  unfold weightAt
  by_cases hk : k = place
  · rw [List.filter_cons_of_pos (by simpa using hk), List.map_cons, List.sum_cons, if_pos hk]
  · rw [List.filter_cons_of_neg (by simpa using hk), if_neg hk, zero_add]

/-- A range is the sum of its places. -/
theorem weightIn_eq_sum (low high : ℤ) (history : List (ℤ × M)) :
    weightIn low high history = ∑ place ∈ Finset.Ioc low high, weightAt history place := by
  induction history with
  | nil =>
    symm
    apply Finset.sum_eq_zero
    intro place _
    rfl
  | cons e history ih =>
    obtain ⟨k, w⟩ := e
    simp only [weightAt_cons, Finset.sum_add_distrib, Finset.sum_ite_eq, Finset.mem_Ioc]
    rw [← ih]
    unfold weightIn
    -- the new weight is in the sum exactly when its place is in the range
    by_cases hk : low < k ∧ k ≤ high
    · rw [List.filter_cons_of_pos (by simpa using hk), List.map_cons, List.sum_cons, if_pos hk]
    · rw [List.filter_cons_of_neg (by simpa using hk), if_neg hk, zero_add]

/-! ## Buckets -/

/-- The weight of a bucket, which is nothing where there is none. -/
def bucketAt (buckets : JsMap ℤ β) (place : ℤ) : M := (buckets.get place).elim 0 value

/-- The sum over the buckets of a range. -/
def windowSum (low high : ℤ) (buckets : JsMap ℤ β) : M :=
  ((buckets.entries.filter fun e => low < e.1 ∧ e.1 ≤ high).map fun e => value e.2).sum

/-- Every bucket up to `bound` is dropped. -/
def prune (bound : ℤ) (buckets : JsMap ℤ β) : JsMap ℤ β :=
  (buckets.entries.map Prod.fst).foldl (fun m key => if key ≤ bound then m.delete key else m) buckets

/-- The entries of a map hold each bucket once. -/
lemma weightAt_entries (buckets : JsMap ℤ β) (place : ℤ) :
    weightAt (buckets.entries.map fun e => (e.1, value e.2)) place =
      bucketAt value buckets place := by
  have hfind : ∀ entries : List (ℤ × β), (entries.map Prod.fst).Nodup →
      weightAt (entries.map fun e => (e.1, value e.2)) place =
        ((entries.find? (·.1 = place)).map Prod.snd).elim 0 value := by
    intro entries hnodup
    induction entries with
    | nil => rfl
    | cons e entries ih =>
      rw [List.map_cons, List.nodup_cons] at hnodup
      rw [List.map_cons, weightAt_cons, ih hnodup.2]
      by_cases hplace : e.1 = place
      · have hnone : entries.find? (·.1 = place) = none := by
          apply List.find?_eq_none.mpr
          intro later hlater heq
          apply hnodup.1
          rw [hplace, ← of_decide_eq_true heq]
          exact List.mem_map_of_mem hlater
        rw [if_pos hplace, hnone, List.find?_cons_of_pos (by simpa using hplace)]
        show value e.2 + 0 = value e.2
        rw [add_zero]
      · rw [if_neg hplace, List.find?_cons_of_neg (by simpa using hplace), zero_add]
  exact hfind buckets.entries buckets.nodup

lemma windowSum_eq_sum (low high : ℤ) (buckets : JsMap ℤ β) :
    windowSum value low high buckets =
      ∑ place ∈ Finset.Ioc low high, bucketAt value buckets place := by
  have hweights : windowSum value low high buckets =
      weightIn low high (buckets.entries.map fun e => (e.1, value e.2)) := by
    unfold windowSum weightIn
    rw [List.filter_map, List.map_map]
    rfl
  rw [hweights, weightIn_eq_sum]
  apply Finset.sum_congr rfl
  intro place _
  exact weightAt_entries value buckets place

omit [AddCommMonoid M] in
lemma get_foldl_delete (bound : ℤ) (keys : List ℤ) (buckets : JsMap ℤ β) (place : ℤ) :
    (keys.foldl (fun m key => if key ≤ bound then m.delete key else m) buckets).get place =
      if place ≤ bound ∧ place ∈ keys then none else buckets.get place := by
  induction keys generalizing buckets with
  | nil => simp
  | cons key keys ih =>
    rw [List.foldl_cons, ih]
    by_cases hkey : key ≤ bound
    · rw [if_pos hkey]
      by_cases hplace : place = key
      · simp [hplace, hkey]
      · rw [JsMap.get_delete_of_ne hplace]
        simp [hplace]
    · rw [if_neg hkey]
      have hne : place ≤ bound → place ≠ key := by
        intro hle heq
        omega
      grind

lemma get_prune (bound : ℤ) (buckets : JsMap ℤ β) (place : ℤ) :
    (prune bound buckets).get place = if place ≤ bound then none else buckets.get place := by
  unfold prune
  rw [get_foldl_delete]
  by_cases hplace : place ≤ bound
  · rw [if_pos hplace]
    by_cases hmem : place ∈ buckets.entries.map Prod.fst
    · rw [if_pos ⟨hplace, hmem⟩]
    · rw [if_neg (fun h => hmem h.2)]
      apply Option.eq_none_iff_forall_ne_some.mpr
      intro bucket hbucket
      apply hmem
      exact List.mem_map_of_mem (JsMap.mem_entries.mpr hbucket)
  · rw [if_neg hplace, if_neg (fun h => hplace h.1)]

/-! ## Histories -/

/-- After `bound`, the buckets hold what came. -/
def Holds (bound : ℤ) (history : List (ℤ × M)) (buckets : JsMap ℤ β) : Prop :=
  ∀ place, bound < place → bucketAt value buckets place = weightAt history place

variable {value} {bound : ℤ} {history : List (ℤ × M)} {buckets : JsMap ℤ β}

lemma holds_empty (bound : ℤ) : Holds value bound [] (∅ : JsMap ℤ β) := fun _ _ => rfl

/-- A weight is added to the bucket of its place. -/
lemma Holds.set (h : Holds value bound history buckets) {k : ℤ} {w : M} {bucket : β}
    (hbucket : value bucket = w + bucketAt value buckets k) :
    Holds value bound ((k, w) :: history) (buckets.set k bucket) := by
  intro place hplace
  rw [weightAt_cons, ← h place hplace]
  by_cases hk : k = place
  · rw [if_pos hk, ← hk, ← hbucket]
    unfold bucketAt
    rw [JsMap.get_set_self]
    rfl
  · rw [if_neg hk, zero_add]
    unfold bucketAt
    rw [JsMap.get_set_of_ne (Ne.symm hk)]

lemma Holds.prune (h : Holds value bound history buckets) {bound' : ℤ} (hle : bound' ≤ bound) :
    Holds value bound history (SlidingWindow.prune bound' buckets) := by
  intro place hplace
  rw [← h place hplace]
  unfold bucketAt
  rw [get_prune, if_neg (by omega)]

/-- The sum over a window that no drop has reached. -/
theorem Holds.windowSum_eq (h : Holds value bound history buckets) {low : ℤ} (hle : bound ≤ low)
    (high : ℤ) : windowSum value low high buckets = weightIn low high history := by
  rw [windowSum_eq_sum, weightIn_eq_sum]
  apply Finset.sum_congr rfl
  intro place hplace
  apply h
  have hlow := (Finset.mem_Ioc.mp hplace).1
  omega

omit [AddCommMonoid M] in
/-- There is at most one bucket for a place. -/
lemma size_le {low high : ℤ}
    (h : ∀ place bucket, buckets.get place = some bucket → low < place ∧ place ≤ high) :
    buckets.size ≤ (high - low).toNat := by
  have hsub : (buckets.entries.map Prod.fst).toFinset ⊆ Finset.Ioc low high := by
    intro place hplace
    obtain ⟨e, he, rfl⟩ := List.mem_map.mp (List.mem_toFinset.mp hplace)
    exact Finset.mem_Ioc.mpr (h e.1 e.2 (JsMap.mem_entries.mp he))
  have hcard := Finset.card_le_card hsub
  rw [List.toFinset_card_of_nodup buckets.nodup, List.length_map, Int.card_Ioc] at hcard
  exact hcard

end SlidingWindow
