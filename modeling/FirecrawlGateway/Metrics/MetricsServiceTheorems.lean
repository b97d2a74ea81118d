import FirecrawlGateway.Alerts.AlertService
import FirecrawlGateway.Lib.SlidingWindow
import FirecrawlGateway.Metrics.MetricsService

/-!
# What the metrics say of the requests

The buckets of the minutes forget what is an hour old, and the alerts look at ten minutes. So what
the rule on fallbacks is given is a count over all requests that were ever observed. The labels of
the histogram are few, whatever clients ask for.
-/

namespace FirecrawlGateway
namespace Metrics

open Proxy (RequestObservation)
open SlidingWindow

/-! ## The window -/

/-- A request that says something about the health of a backend. -/
def Counted (observation : RequestObservation) : Prop :=
  observation.reachedBackend = true ∧ observation.backend ∈ backends

instance (observation : RequestObservation) : Decidable (Counted observation) :=
  inferInstanceAs (Decidable (_ ∧ _))

/-- A number that buckets have, and what a request adds to it. -/
structure Tally where
  value : MinuteBucket → ℕ
  weight : Bool → ℕ
  value_empty : value {} = 0
  value_counted : ∀ (bucket : MinuteBucket) (fallbackUsed : Bool),
    value
      { total := bucket.total + 1
        fallbacks := if fallbackUsed then bucket.fallbacks + 1 else bucket.fallbacks } =
      weight fallbackUsed + value bucket

def totals : Tally where
  value := MinuteBucket.total
  weight _ := 1
  value_empty := rfl
  value_counted _ _ := Nat.add_comm ..

def fallbackTotals : Tally where
  value := MinuteBucket.fallbacks
  weight fallbackUsed := if fallbackUsed then 1 else 0
  value_empty := rfl
  value_counted bucket fallbackUsed := by
    cases fallbackUsed
    · exact (Nat.zero_add _).symm
    · exact Nat.add_comm ..

variable (tally : Tally)

/-- What the requests add, newest first. -/
def Tally.history (es : List (RequestObservation × ℤ)) : List (ℤ × ℕ) :=
  (es.reverse.filter fun e => Counted e.1).map fun e => (minuteOf e.2, tally.weight e.1.fallbackUsed)

lemma Tally.history_concat (es : List (RequestObservation × ℤ)) (e : RequestObservation × ℤ) :
    tally.history (es ++ [e]) =
      if Counted e.1 then (minuteOf e.2, tally.weight e.1.fallbackUsed) :: tally.history es
      else tally.history es := by
  unfold Tally.history
  rw [List.reverse_concat]
  by_cases he : Counted e.1
  · rw [List.filter_cons_of_pos (by simpa using he), List.map_cons, if_pos he]
  · rw [List.filter_cons_of_neg (by simpa using he), if_neg he]

lemma observeAll_concat (es : List (RequestObservation × ℤ)) (e : RequestObservation × ℤ) :
    observeAll (es ++ [e]) = observeRequest (observeAll es) e.1 e.2 := by
  unfold observeAll
  rw [List.foldl_append]
  rfl

lemma minuteBuckets_concat (es : List (RequestObservation × ℤ)) (e : RequestObservation × ℤ) :
    (observeAll (es ++ [e])).minuteBuckets =
      if Counted e.1 then countInWindow (observeAll es).minuteBuckets e.1.fallbackUsed e.2
      else (observeAll es).minuteBuckets := by
  rw [observeAll_concat]
  rfl

variable {tally}

/-- One request: its bucket is counted up, and only buckets an hour before it are dropped. -/
lemma holds_countInWindow {newest : ℤ} {history : List (ℤ × ℕ)} {buckets : JsMap ℤ MinuteBucket}
    (h : Holds tally.value (newest - windowRetentionMinutes) history buckets) {now : ℤ}
    (hnow : minuteOf now ≤ newest) (fallbackUsed : Bool) :
    Holds tally.value (newest - windowRetentionMinutes)
      ((minuteOf now, tally.weight fallbackUsed) :: history)
      (countInWindow buckets fallbackUsed now) := by
  have hold : tally.value ((buckets.get (minuteOf now)).getD {}) =
      bucketAt tally.value buckets (minuteOf now) := by
    unfold bucketAt
    cases buckets.get (minuteOf now) with
    | none => exact tally.value_empty
    | some bucket => rfl
  have hcounted := h.set (k := minuteOf now) (w := tally.weight fallbackUsed)
    ((tally.value_counted _ fallbackUsed).trans (congrArg _ hold))
  -- the drop reaches no further than an hour before this minute
  have hle : minuteOf now - windowRetentionMinutes ≤ newest - windowRetentionMinutes := by omega
  exact hcounted.prune hle

lemma holds_observeAll {newest : ℤ} {es : List (RequestObservation × ℤ)}
    (hnow : ∀ e ∈ es, minuteOf e.2 ≤ newest) :
    Holds tally.value (newest - windowRetentionMinutes) (tally.history es)
      (observeAll es).minuteBuckets := by
  induction es using List.reverseRecOn with
  | nil => exact holds_empty _
  | append_singleton es e ih =>
    have hes := ih fun e he => hnow e (List.mem_append_left _ he)
    have hlast := hnow e (List.mem_append_right _ (List.mem_singleton_self e))
    rw [minuteBuckets_concat, Tally.history_concat]
    by_cases he : Counted e.1
    · rw [if_pos he, if_pos he]
      exact holds_countInWindow hes hlast _
    · rw [if_neg he, if_neg he]
      exact hes

/-- The loop of `recentFallbackStats` sums each of the two numbers. -/
lemma foldl_window (newest minutes : ℤ) (entries : List (ℤ × MinuteBucket)) (sum : MinuteBucket) :
    (entries.foldl
      (fun sum entry =>
        if newest - minutes < entry.1 ∧ entry.1 ≤ newest then
          { total := sum.total + entry.2.total, fallbacks := sum.fallbacks + entry.2.fallbacks }
        else sum) sum) =
      { total := sum.total + ((entries.filter fun e => newest - minutes < e.1 ∧ e.1 ≤ newest).map
          fun e => totals.value e.2).sum
        fallbacks := sum.fallbacks + ((entries.filter fun e =>
          newest - minutes < e.1 ∧ e.1 ≤ newest).map fun e => fallbackTotals.value e.2).sum } := by
  induction entries generalizing sum with
  | nil => rfl
  | cons entry entries ih =>
    rw [List.foldl_cons, ih]
    by_cases hin : newest - minutes < entry.1 ∧ entry.1 ≤ newest
    · rw [if_pos hin, List.filter_cons_of_pos (by simpa using hin), List.map_cons, List.sum_cons,
        List.map_cons, List.sum_cons, ← Nat.add_assoc, ← Nat.add_assoc]
      rfl
    · rw [if_neg hin, List.filter_cons_of_neg (by simpa using hin)]

lemma recentFallbackStats_eq_windowSum (s : MetricsService) (minutes now : ℤ) :
    recentFallbackStats s minutes now =
      { total := windowSum totals.value (minuteOf now - minutes) (minuteOf now) s.minuteBuckets
        fallbacks := windowSum fallbackTotals.value (minuteOf now - minutes) (minuteOf now)
          s.minuteBuckets } := by
  unfold recentFallbackStats
  dsimp only
  rw [foldl_window]
  simp only [Nat.zero_add]
  rfl

/-- The weights of a window, one request at a time. -/
lemma weightIn_history {low high : ℤ} {es : List (RequestObservation × ℤ)}
    (hnow : ∀ e ∈ es, minuteOf e.2 ≤ high) :
    weightIn low high (tally.history es) =
      ((es.filter fun e => Counted e.1 ∧ low < minuteOf e.2).map fun e =>
        tally.weight e.1.fallbackUsed).sum := by
  induction es using List.reverseRecOn with
  | nil => rfl
  | append_singleton es e ih =>
    have hes := ih fun e he => hnow e (List.mem_append_left _ he)
    have hlast := hnow e (List.mem_append_right _ (List.mem_singleton_self e))
    rw [Tally.history_concat, List.filter_append, List.map_append, List.sum_append, ← hes]
    unfold weightIn
    by_cases he : Counted e.1
    · rw [if_pos he]
      by_cases hlow : low < minuteOf e.2
      · rw [List.filter_cons_of_pos (by simp [hlow, hlast]),
          List.filter_cons_of_pos (by simp [he, hlow])]
        simp [Nat.add_comm]
      · rw [List.filter_cons_of_neg (by simp [hlow]), List.filter_cons_of_neg (by simp [hlow])]
        simp
    · rw [if_neg he, List.filter_cons_of_neg (by simp [he])]
      simp

/-- A sum of ones is a count. -/
lemma sum_map_weight (es : List (RequestObservation × ℤ)) :
    (es.map fun e => fallbackTotals.weight e.1.fallbackUsed).sum =
      es.countP fun e => e.1.fallbackUsed := by
  induction es with
  | nil => rfl
  | cons e es ih =>
    rw [List.map_cons, List.sum_cons, ih, List.countP_cons, Nat.add_comm]
    rfl

/-- The requests that a window of minutes counts. -/
def InWindow (minutes now : ℤ) (e : RequestObservation × ℤ) : Prop :=
  Counted e.1 ∧ minuteOf now - minutes < minuteOf e.2

instance (minutes now : ℤ) (e : RequestObservation × ℤ) : Decidable (InWindow minutes now e) :=
  inferInstanceAs (Decidable (_ ∧ _))

/-- As long as the clock has not gone back by a minute, a window of at most an hour has every
request that was observed in it, although the buckets forget. -/
lemma recentFallbackStats_counts {es : List (RequestObservation × ℤ)} {minutes now : ℤ}
    (hminutes : minutes ≤ windowRetentionMinutes)
    (hnow : ∀ e ∈ es, minuteOf e.2 ≤ minuteOf now) :
    recentFallbackStats (observeAll es) minutes now =
      { total := es.countP fun e => InWindow minutes now e
        fallbacks := es.countP fun e => InWindow minutes now e ∧ e.1.fallbackUsed = true } := by
  -- the window begins where the buckets still are
  have hle : minuteOf now - windowRetentionMinutes ≤ minuteOf now - minutes := by omega
  have hholds : ∀ tally : Tally, Holds tally.value (minuteOf now - windowRetentionMinutes)
      (tally.history es) (observeAll es).minuteBuckets := fun _ => holds_observeAll hnow
  have htotal := (hholds totals).windowSum_eq hle (minuteOf now)
  have hfallbacks := (hholds fallbackTotals).windowSum_eq hle (minuteOf now)
  rw [weightIn_history hnow] at htotal hfallbacks
  rw [recentFallbackStats_eq_windowSum, htotal, hfallbacks, sum_map_weight]
  congr 1
  · have hones : (es.filter fun e => InWindow minutes now e).map (fun _ => 1) =
        List.replicate (es.countP fun e => InWindow minutes now e) 1 := by
      rw [List.map_const', ← List.countP_eq_length_filter]
    show ((es.filter fun e => InWindow minutes now e).map fun _ => 1).sum = _
    rw [hones, List.sum_replicate_nat, Nat.mul_one]
  · rw [List.countP_filter]
    apply List.countP_congr
    intro e _
    simp only [Bool.and_eq_true, decide_eq_true_eq, and_comm]
    rfl

/-- What the alert on fallbacks goes by is a count over every request that was ever observed: of
those that reached a backend in the last ten minutes there were enough, and enough fell back. -/
theorem fallbackRate_active_iff {es : List (RequestObservation × ℤ)} {now : ℤ}
    (hnow : ∀ e ∈ es, minuteOf e.2 ≤ minuteOf now) (p : Alerts.Platform) (ratioThreshold : ℤ)
    (c : Alerts.Conditions) :
    (Alerts.fallbackRateCheck p ratioThreshold
        { c with
          total := (recentFallbackStats (observeAll es) Alerts.fallbackWindowMinutes now).total
          fallbacks :=
            (recentFallbackStats (observeAll es) Alerts.fallbackWindowMinutes now).fallbacks }).active =
        true ↔
      20 ≤ es.countP (fun e => InWindow 10 now e) ∧
      ratioThreshold ≤ p.percent (es.countP fun e => InWindow 10 now e ∧ e.1.fallbackUsed = true)
        (es.countP fun e => InWindow 10 now e) := by
  have hten : ((Alerts.fallbackWindowMinutes : ℕ) : ℤ) = 10 := rfl
  rw [hten, recentFallbackStats_counts (by decide) hnow]
  unfold Alerts.fallbackRateCheck
  dsimp only
  rw [decide_eq_true_eq]
  show 20 ≤ _ ∧ _ ↔ _
  apply and_congr_right
  intro henough
  rw [if_pos (by omega)]

/-! ## Memory -/

/-- A request that counts leaves the buckets of the hour before it, and its own. -/
lemma get_countInWindow {buckets : JsMap ℤ MinuteBucket} {now : ℤ} {fallbackUsed : Bool}
    {place : ℤ} {bucket : MinuteBucket}
    (hget : (countInWindow buckets fallbackUsed now).get place = some bucket) :
    minuteOf now - windowRetentionMinutes < place ∧
      (place = minuteOf now ∨ buckets.get place = some bucket) := by
  have hprune : (prune (minuteOf now - windowRetentionMinutes) (buckets.set (minuteOf now) _)).get
    place = some bucket := hget
  rw [get_prune] at hprune
  by_cases hplace : place ≤ minuteOf now - windowRetentionMinutes
  · rw [if_pos hplace] at hprune
    cases hprune
  · rw [if_neg hplace] at hprune
    refine ⟨by omega, ?_⟩
    by_cases heq : place = minuteOf now
    · exact Or.inl heq
    · rw [JsMap.get_set_of_ne heq] at hprune
      exact Or.inr hprune

/-- Buckets are of minutes in which requests came. -/
lemma get_observeAll {newest : ℤ} {es : List (RequestObservation × ℤ)}
    (hnow : ∀ e ∈ es, minuteOf e.2 ≤ newest) {place : ℤ} {bucket : MinuteBucket}
    (hget : (observeAll es).minuteBuckets.get place = some bucket) : place ≤ newest := by
  induction es using List.reverseRecOn generalizing place bucket with
  | nil => cases hget
  | append_singleton es e ih =>
    have hlast := hnow e (List.mem_append_right _ (List.mem_singleton_self e))
    rw [minuteBuckets_concat] at hget
    split_ifs at hget
    · obtain ⟨-, heq | hold⟩ := get_countInWindow hget
      · omega
      · exact ih (fun e he => hnow e (List.mem_append_left _ he)) hold
    · exact ih (fun e he => hnow e (List.mem_append_left _ he)) hget

/-- While the clock does not go back, there are at most 60 buckets. -/
theorem size_minuteBuckets_le {es : List (RequestObservation × ℤ)}
    (htimes : es.Pairwise fun a b => minuteOf a.2 ≤ minuteOf b.2) :
    (observeAll es).minuteBuckets.size ≤ 60 := by
  induction es using List.reverseRecOn with
  | nil => exact Nat.zero_le _
  | append_singleton es e ih =>
    obtain ⟨hes, -, hlast⟩ := List.pairwise_append.mp htimes
    rw [minuteBuckets_concat]
    split_ifs
    · have hsize : (countInWindow (observeAll es).minuteBuckets e.1.fallbackUsed e.2).size ≤
          (minuteOf e.2 - (minuteOf e.2 - windowRetentionMinutes)).toNat := size_le ?_
      · have hhour : (minuteOf e.2 - (minuteOf e.2 - windowRetentionMinutes)).toNat = 60 := by
          unfold windowRetentionMinutes
          omega
        omega
      · intro place bucket hget
        obtain ⟨hafter, heq | hold⟩ := get_countInWindow hget
        · omega
        · have hle := get_observeAll (fun a ha => hlast a ha e (List.mem_singleton_self e)) hold
          exact ⟨hafter, hle⟩
    · exact ih hes

/-! ## Labels -/

/-- The labels there can be. -/
def labelSpace : List Labels :=
  ("none" :: backendLabels).flatMap fun backend =>
    ("other" :: [1, 2, 3, 4, 5].map fun hundreds => toString hundreds ++ "xx").flatMap fun status =>
      ["true", "false"].flatMap fun fallback =>
        ("other" :: ['1', '2'].flatMap fun version => routeSegments.map (endpointLabel version)).map
          fun route => ⟨backend, status, fallback, route⟩

lemma length_labelSpace : labelSpace.length = 1392 := by
  decide +kernel

lemma statusClass_mem (statusCode : ℕ) : statusClass statusCode ∈
    "other" :: [1, 2, 3, 4, 5].map fun hundreds => toString hundreds ++ "xx" := by
  unfold statusClass
  dsimp only
  split_ifs with hhundreds
  · apply List.mem_cons_of_mem
    apply List.mem_map.mpr
    refine ⟨statusCode / 100, ?_, rfl⟩
    simp only [List.mem_cons, List.not_mem_nil, or_false]
    omega
  · exact List.mem_cons_self

lemma matchRoute_some {chars segment : List Char} {version : Char} :
    matchRoute chars = some (version, segment) ↔
      (version = '1' ∨ version = '2') ∧ segment ≠ [] ∧
        ∃ rest, chars = '/' :: 'v' :: version :: '/' :: rest ∧
          segment = (rest.takeWhile isSegmentChar).take 40 := by
  constructor
  · intro h
    unfold matchRoute at h
    split at h
    · rename_i version' rest
      dsimp only at h
      split_ifs at h with hmatch
      cases h
      exact ⟨hmatch.1, hmatch.2, rest, rfl, rfl⟩
    · cases h
  · intro ⟨hversion, hne, rest, hchars, hsegment⟩
    subst hchars hsegment
    exact if_pos ⟨hversion, hne⟩

lemma routeLabel_mem (path : String) : routeLabel path ∈
    "other" :: ['1', '2'].flatMap fun version => routeSegments.map (endpointLabel version) := by
  unfold routeLabel
  split
  · exact List.mem_cons_self
  · rename_i version segment hmatch
    dsimp only
    split_ifs with hsegment
    · apply List.mem_cons_of_mem
      apply List.mem_flatMap.mpr
      have hversion := (matchRoute_some.mp hmatch).1
      exact ⟨version, by simpa using hversion, List.mem_map_of_mem hsegment⟩
    · exact List.mem_cons_self

lemma labels_mem (observation : RequestObservation) : labels observation ∈ labelSpace := by
  unfold labelSpace labels
  simp only [List.mem_flatMap, List.mem_map]
  refine ⟨_, ?_, _, statusClass_mem observation.statusCode, _, ?_, _,
    routeLabel_mem observation.path, rfl⟩
  · split_ifs with hbackend
    · exact List.mem_cons_of_mem _ hbackend
    · exact List.mem_cons_self
  · cases observation.fallbackUsed
    · exact List.mem_cons_of_mem _ List.mem_cons_self
    · exact List.mem_cons_self

lemma requestDuration_observeAll (es : List (RequestObservation × ℤ)) :
    (observeAll es).requestDuration = (es.map fun e => labels e.1).reverse := by
  induction es using List.reverseRecOn with
  | nil => rfl
  | append_singleton es e ih =>
    rw [observeAll_concat, List.map_append, List.reverse_append, ← ih]
    rfl

lemma length_series_le (es : List (RequestObservation × ℤ)) :
    (observeAll es).requestDuration.dedup.length ≤ 1392 := by
  have hsub : (observeAll es).requestDuration.dedup ⊆ labelSpace := by
    intro label hlabel
    rw [List.mem_dedup, requestDuration_observeAll, List.mem_reverse] at hlabel
    obtain ⟨e, -, rfl⟩ := List.mem_map.mp hlabel
    exact labels_mem e.1
  have hle := ((List.nodup_dedup _).subperm hsub).length_le
  rwa [length_labelSpace] at hle

/-! ## Endpoints -/

/-- Only upper case letters change, which are segment characters and become others. -/
lemma isSegmentChar_toLower (c : Char) : isSegmentChar c.toLower = isSegmentChar c := by
  by_cases hupper : c.val ≥ 'A'.val ∧ c.val ≤ 'Z'.val
  · have hall : ∀ n < 128, isSegmentChar (Char.ofNat n).toLower = isSegmentChar (Char.ofNat n) := by
      decide
    have hascii : c.toNat < 128 := lt_of_le_of_lt (UInt32.le_iff_toNat_le.mp hupper.2) (by decide)
    rw [← Char.ofNat_toNat c]
    exact hall c.toNat hascii
  · unfold Char.toLower
    rw [dif_neg hupper]

/-- A captured segment that is an endpoint is all of the segment. -/
lemma length_lt_of_mem_routeSegments {segment : String} (h : segment ∈ routeSegments) :
    segment.toList ≠ [] ∧ segment.toList.length < 40 ∧ segment.toList.all isSegmentChar = true := by
  revert segment
  decide

lemma endpointLabel_inj {version version' : Char} {segment segment' : String}
    (h : endpointLabel version segment = endpointLabel version' segment') :
    version = version' ∧ segment = segment' := by
  have htext := congrArg String.toList h
  unfold endpointLabel at htext
  simpa [String.toList_inj] using htext

lemma endpointLabel_ne_other (version : Char) (segment : String) :
    endpointLabel version segment ≠ "other" := by
  intro h
  have htext := congrArg String.toList h
  unfold endpointLabel at htext
  simp at htext

/-- A request is labelled with an endpoint exactly when the second segment of its path is the
endpoint in any letter case, however the path goes on. -/
lemma routeLabel_eq_endpointLabel_iff {path : String} {version : Char} {segment : String}
    (hsegment : segment ∈ routeSegments) :
    routeLabel path = endpointLabel version segment ↔
      (version = '1' ∨ version = '2') ∧ ∃ word rest : List Char,
        path.toList = '/' :: 'v' :: version :: '/' :: (word ++ rest) ∧
        word.map Char.toLower = segment.toList ∧ rest.head?.all (fun c => !isSegmentChar c) = true := by
  obtain ⟨hne, hlength, hchars⟩ := length_lt_of_mem_routeSegments hsegment
  constructor
  · intro hlabel
    unfold routeLabel at hlabel
    split at hlabel
    · exact absurd hlabel.symm (endpointLabel_ne_other _ _)
    · rename_i version' captured hmatch
      dsimp only at hlabel
      split_ifs at hlabel with hcaptured
      · obtain ⟨rfl, hword⟩ := endpointLabel_inj hlabel
        obtain ⟨hversion, -, rest, hpath, htake⟩ := matchRoute_some.mp hmatch
        have hlower : captured.map Char.toLower = segment.toList := by
          rw [← hword, String.toList_ofList]
        have hlen : captured.length < 40 := by
          rw [← hlower, List.length_map] at hlength
          exact hlength
        -- fewer than 40 characters were captured, so the segment ended there
        have hall : captured = rest.takeWhile isSegmentChar := by
          rw [htake, List.length_take] at hlen
          rw [htake, List.take_of_length_le (by omega)]
        refine ⟨hversion, captured, rest.dropWhile isSegmentChar, ?_, hlower, ?_⟩
        · rw [hpath, hall, List.takeWhile_append_dropWhile]
        · cases hrest : rest.dropWhile isSegmentChar with
          | nil => rfl
          | cons c cs =>
            have hcons : rest.dropWhile isSegmentChar ≠ [] := by
              rw [hrest]
              exact List.cons_ne_nil c cs
            have hhead := List.head_dropWhile_not isSegmentChar hcons
            simp only [hrest, List.head_cons] at hhead
            show (!isSegmentChar c) = true
            rw [hhead]
            rfl
      · exact absurd hlabel.symm (endpointLabel_ne_other _ _)
  · intro ⟨hversion, word, rest, hpath, hlower, hrest⟩
    have hword : ∀ c ∈ word, isSegmentChar c = true := by
      intro c hc
      have hmem : c.toLower ∈ segment.toList := by
        rw [← hlower]
        exact List.mem_map_of_mem hc
      rw [← isSegmentChar_toLower]
      exact List.all_eq_true.mp hchars _ hmem
    have htake : (word ++ rest).takeWhile isSegmentChar = word := by
      rw [List.takeWhile_append_of_pos hword]
      cases rest with
      | nil => rw [List.takeWhile_nil, List.append_nil]
      | cons c cs =>
        have hc : ¬ isSegmentChar c = true := by simpa using hrest
        rw [List.takeWhile_cons_of_neg hc, List.append_nil]
    have hlen : word.length < 40 := by
      rw [← hlower, List.length_map] at hlength
      exact hlength
    have hmatch : matchRoute path.toList = some (version, word) := by
      apply matchRoute_some.mpr
      refine ⟨hversion, ?_, word ++ rest, hpath, ?_⟩
      · intro hnil
        apply hne
        rw [← hlower, hnil]
        rfl
      · rw [htake, List.take_of_length_le (by omega)]
    unfold routeLabel
    rw [hmatch]
    dsimp only
    rw [hlower, String.ofList_toList, if_pos hsegment]

/-- Whatever paths clients ask for, the histogram has at most 1392 series. A request is counted
under an endpoint exactly when the second segment of its path is that endpoint. -/
theorem series_bounded (es : List (RequestObservation × ℤ)) :
    (observeAll es).requestDuration.dedup.length ≤ 1392 ∧
      ∀ e ∈ es, labels e.1 ∈ (observeAll es).requestDuration ∧
        ∀ version, ∀ segment ∈ routeSegments,
          (labels e.1).route = endpointLabel version segment ↔
            (version = '1' ∨ version = '2') ∧ ∃ word rest : List Char,
              e.1.path.toList = '/' :: 'v' :: version :: '/' :: (word ++ rest) ∧
              word.map Char.toLower = segment.toList ∧
              rest.head?.all (fun c => !isSegmentChar c) = true := by
  refine ⟨length_series_le es, fun e he => ⟨?_, fun version segment hsegment => ?_⟩⟩
  · rw [requestDuration_observeAll]
    exact List.mem_reverse.mpr (List.mem_map_of_mem he)
  · exact routeLabel_eq_endpointLabel_iff hsegment

example : routeLabel "/V1/scrape" = "other" ∧ routeLabel "/v1/Scrape/abc?x=1" = "/v1/scrape" ∧
    routeLabel "/v2/scrape-all" = "other" := by decide +kernel

/-! ## A burst of fallbacks -/

/-- One request that fell back, at a time. -/
def fellBack (now : ℤ) : RequestObservation × ℤ :=
  (⟨"cloud", 200, true, true, "/v1/scrape"⟩, now)

/-- One old request, then twenty within ten minutes. -/
def burst : List (RequestObservation × ℤ) :=
  fellBack 1764996000000 :: List.replicate 20 (fellBack 1764999900000)

/-- `Math.round` of a share in percent, for numbers of this size. -/
def exactPlatform : Alerts.Platform where
  aes := { encrypt := fun _ _ _ => ([], []), decrypt := fun _ _ _ _ => .error "" }
  firecrawlKeysEncryptionKey := ""
  toNumber _ := none
  numberToString _ := ""
  percent fallbacks total := (200 * fallbacks + total) / (2 * total)

def noConditions : Alerts.Conditions where
  keys := 0
  credits := 0
  total := 0
  fallbacks := 0
  circuit := .closed

theorem fallbackRate_active_iff_burst :
    (Alerts.fallbackRateCheck exactPlatform 100
        { noConditions with
          total :=
            (recentFallbackStats (observeAll burst) Alerts.fallbackWindowMinutes 1765000000000).total
          fallbacks := (recentFallbackStats (observeAll burst) Alerts.fallbackWindowMinutes
            1765000000000).fallbacks }).active = true :=
  (fallbackRate_active_iff (by decide) exactPlatform 100 noConditions).mpr ⟨by decide, by decide⟩

end Metrics
end FirecrawlGateway
