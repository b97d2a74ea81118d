import FirecrawlGateway.Audit.Dashboard

/-!
# The dashboard shows the newest entries

However deletions, failures and refreshes interleave: while no row is written that is older than one
the dashboard was sent, its entries are the newest 500 of all rows that its requests found since the
last full refresh. Where none of these was deleted, they are the newest 500 of the log.
-/

namespace FirecrawlGateway
namespace Dashboard

open AuditService IsoText TopRows

variable {α : Type}

/-! ## Merging -/

/-- The rows that `mergeEntries` adds, for entries of rows with distinct ids. -/
lemma newEntries_map {rows : List (Row α)} (hids : (rows.map Row.id).Nodup) (seenIds : List String) :
    newEntries seenIds (rows.map toEntry) =
      (rows.filter fun row => row.id ∉ seenIds).map toEntry := by
  induction rows generalizing seenIds with
  | nil => rfl
  | cons row rows ih =>
    rw [List.map_cons, List.nodup_cons] at hids
    rw [List.map_cons]
    unfold newEntries
    by_cases hseen : row.id ∈ seenIds
    · have hskip : (toEntry row).id ∈ seenIds := hseen
      rw [if_pos hskip, ih hids.2, List.filter_cons_of_neg (by simpa using hseen)]
    · have hadd : (toEntry row).id ∉ seenIds := hseen
      rw [if_neg hadd, ih hids.2, List.filter_cons_of_pos (by simpa using hseen), List.map_cons]
      congr 2
      -- the id that was added is of no later row
      refine List.filter_congr fun later hlater => ?_
      have hne : later.id ≠ row.id := fun heq => hids.1 (heq ▸ List.mem_map_of_mem hlater)
      have hid : (toEntry row).id = row.id := rfl
      simp [hid, hne]

/-- The order of rows that the order of their texts is. -/
def newestRowFirst (a b : Row α) : Bool := b.createdAt ≤ a.createdAt

lemma newestFirst_toEntry {a b : Row α} (ha : InFourDigits a.createdAt)
    (hb : InFourDigits b.createdAt) : newestRowFirst a b = newestFirst (toEntry a) (toEntry b) := by
  have hlt : (toEntry a).createdAt < (toEntry b).createdAt ↔ a.createdAt < b.createdAt :=
    toISOString_lt_iff ha hb
  unfold newestRowFirst newestFirst
  simp only [hlt, not_lt]

lemma mergeSort_newestRowFirst (rows : List (Row α)) :
    (rows.mergeSort newestRowFirst).Pairwise fun a b => b.createdAt ≤ a.createdAt := by
  have htrans : ∀ a b c : Row α, newestRowFirst a b = true → newestRowFirst b c = true →
      newestRowFirst a c = true := by
    intro a b c hab hbc
    exact decide_eq_true ((of_decide_eq_true hbc).trans (of_decide_eq_true hab))
  have htotal : ∀ a b : Row α, (newestRowFirst a b || newestRowFirst b a) = true := by
    intro a b
    rw [Bool.or_eq_true]
    exact (le_total b.createdAt a.createdAt).imp decide_eq_true decide_eq_true
  refine (List.pairwise_mergeSort htrans htotal rows).imp fun h => of_decide_eq_true h

variable {top rows : List (Row α)}

/-- `mergeEntries` sorts the rows of both sides together. -/
lemma mergeEntries_map (hids : (rows.map Row.id).Nodup) (htop : top.Nodup)
    (hsame : ∀ a ∈ top, ∀ b ∈ rows, a.id = b.id → a = b)
    (hyears : ∀ row, row ∈ top ∨ row ∈ rows → InFourDigits row.createdAt)
    (hsorted : top.Pairwise fun a b => b.createdAt ≤ a.createdAt)
    (hlength : top.length ≤ maxEntries) :
    ∃ sorted : List (Row α), (sorted.Pairwise fun a b => b.createdAt ≤ a.createdAt) ∧ sorted.Nodup ∧
      (∀ a, a ∈ sorted ↔ a ∈ top ∨ a ∈ rows) ∧
      mergeEntries (top.map toEntry) (rows.map toEntry) = (sorted.take maxEntries).map toEntry := by
  have hmapids : (top.map toEntry).map AuditEntry.id = top.map Row.id := by
    rw [List.map_map]
    rfl
  have hold : ∀ row ∈ rows, row.id ∈ top.map Row.id ↔ row ∈ top := by
    intro row hrow
    constructor
    · intro hid
      obtain ⟨a, ha, heq⟩ := List.mem_map.mp hid
      rwa [← hsame a ha row hrow heq]
    · exact fun hrow => List.mem_map_of_mem hrow
  unfold mergeEntries
  rw [hmapids, newEntries_map hids]
  generalize hfresh : rows.filter (fun row => row.id ∉ top.map Row.id) = fresh
  have hmem : ∀ a, a ∈ fresh ↔ a ∈ rows ∧ a ∉ top := by
    intro a
    rw [← hfresh, List.mem_filter, decide_eq_true_eq]
    exact and_congr_right fun ha => not_congr (hold a ha)
  dsimp only
  split_ifs with hempty
  · -- nothing new
    have hnil : fresh = [] := by simpa using hempty
    refine ⟨top, hsorted, htop, fun a => ?_, ?_⟩
    · constructor
      · exact Or.inl
      · rintro (ha | ha)
        · exact ha
        · by_contra hnot
          have hin := (hmem a).mpr ⟨ha, hnot⟩
          rw [hnil] at hin
          exact absurd hin List.not_mem_nil
    · rw [List.take_of_length_le hlength]
  · have hnodup : (fresh ++ top).Nodup := by
      refine List.Nodup.append ?_ htop fun a ha hatop => ((hmem a).mp ha).2 hatop
      rw [← hfresh]
      exact hids.of_map.filter _
    have hsort := List.map_mergeSort (r := newestRowFirst) (s := newestFirst)
      (f := toEntry) (l := fresh ++ top) fun a ha b hb => by
        refine newestFirst_toEntry (hyears a ?_) (hyears b ?_)
        · rcases List.mem_append.mp ha with ha | ha
          · exact Or.inr ((hmem a).mp ha).1
          · exact Or.inl ha
        · rcases List.mem_append.mp hb with hb | hb
          · exact Or.inr ((hmem b).mp hb).1
          · exact Or.inl hb
    refine ⟨(fresh ++ top).mergeSort newestRowFirst, mergeSort_newestRowFirst _,
      ((List.mergeSort_perm _ _).nodup_iff).mpr hnodup, fun a => ?_, ?_⟩
    · rw [List.mem_mergeSort, List.mem_append, hmem]
      tauto
    · rw [List.map_take, hsort, List.map_append]

/-! ## The invariant -/

/-- A row is written with a time that its text can be read back to, and is no older than a row that
the dashboard was sent. -/
def InOrder (s : Feed α) : Event α → Prop
  | .append row => InFourDigits row.createdAt ∧ ∀ r ∈ s.shown, r.createdAt ≤ row.createdAt
  | _ => True

instance (s : Feed α) : (e : Event α) → Decidable (InOrder s e)
  | .append _ => inferInstanceAs (Decidable (_ ∧ _))
  | .delete _ => isTrue trivial
  | .fetchData _ => isTrue trivial
  | .refreshWhenVisible _ => isTrue trivial
  | .answer _ => isTrue trivial
  | .receive _ => isTrue trivial
  | .fail => isTrue trivial

/-- A request asks from the newest entry on. Its answer has the newest rows of those that it asked
for, which are all rows that the dashboard does not know of. -/
def Pending (s : Feed α) : Fetch α → Prop
  | .sent full since =>
    since = if full then none else s.entries.head?.map AuditEntry.createdAt
  | .answered full rows found =>
    (∀ row ∈ found, row ∈ s.written) ∧ (∀ row ∈ rows, row ∈ s.shown) ∧
    (∀ row ∈ s.log, row ∉ found → ∀ r ∈ rows, r.createdAt ≤ row.createdAt) ∧
    ∃ later : Set (Row α), IsTop Row.createdAt maxEntries {row | row ∈ found ∧ row ∈ later} rows ∧
      ∀ row ∈ found, full = true ∨ row ∉ s.found → row ∈ later

/-- The entries are the newest of the rows that were found, and rows that were not found yet are no
older than they. -/
def View (s : Feed α) : Prop :=
  ∃ top : List (Row α), s.entries = top.map toEntry ∧
    IsTop Row.createdAt maxEntries {row | row ∈ s.found} top ∧ (∀ row ∈ top, row ∈ s.shown) ∧
    ∀ row ∈ s.log, row ∉ s.found → ∀ r ∈ top, r.createdAt ≤ row.createdAt

structure Sound (s : Feed α) : Prop where
  ids : (s.written.map Row.id).Nodup
  years : ∀ row ∈ s.written, InFourDigits row.createdAt
  log : s.log.Sublist s.written
  found : ∀ row ∈ s.found, row ∈ s.written
  seen : ∀ row ∈ s.seen, row ∈ s.found
  shown : ∀ row ∈ s.shown, row ∈ s.written
  view : View s
  fetch : ∀ fetch ∈ s.fetch, Pending s fetch

variable {s : Feed α}

/-- A row is known by its id. -/
lemma Sound.eq_of_id (h : Sound s) {a b : Row α} (ha : a ∈ s.written) (hb : b ∈ s.written)
    (hid : a.id = b.id) : a = b :=
  List.inj_on_of_nodup_map h.ids ha hb hid

lemma sound_start {log : List (Row α)} (hids : (log.map Row.id).Nodup)
    (hyears : ∀ row ∈ log, InFourDigits row.createdAt) : Sound ({ log := log } : Feed α) where
  ids := hids
  years := hyears
  log := List.Sublist.refl log
  found _ h := absurd h List.not_mem_nil
  seen _ h := absurd h List.not_mem_nil
  shown _ h := absurd h List.not_mem_nil
  view := by
    refine ⟨[], rfl, ?_, fun _ h => absurd h List.not_mem_nil, fun _ _ _ _ h =>
      absurd h List.not_mem_nil⟩
    constructor
    · exact List.nodup_nil
    · exact List.Pairwise.nil
    · exact fun _ h => absurd h List.not_mem_nil
    · exact Nat.zero_le _
    · exact fun _ h => absurd h List.not_mem_nil
  fetch _ h := absurd h.symm (Option.some_ne_none _)

/-! ## Writes and deletions -/

lemma Sound.append (h : Sound s) {row : Row α} (hfresh : row.id ∉ s.written.map Row.id)
    (hyear : InFourDigits row.createdAt) (hshown : ∀ r ∈ s.shown, r.createdAt ≤ row.createdAt) :
    Sound { s with log := row :: s.log, written := row :: s.written } where
  ids := List.nodup_cons.mpr ⟨hfresh, h.ids⟩
  years := List.forall_mem_cons.mpr ⟨hyear, h.years⟩
  log := h.log.cons_cons row
  found r hr := List.mem_cons_of_mem _ (h.found r hr)
  seen := h.seen
  shown r hr := List.mem_cons_of_mem _ (h.shown r hr)
  view := by
    obtain ⟨top, hentries, htop, hsent, hlog⟩ := h.view
    refine ⟨top, hentries, htop, hsent, fun r hr hnot b hb => ?_⟩
    rcases List.mem_cons.mp hr with rfl | hr
    · exact hshown b (hsent b hb)
    · exact hlog r hr hnot b hb
  fetch fetch hfetch := by
    have hpending := h.fetch fetch hfetch
    cases fetch with
    | sent full since => exact hpending
    | answered full rows found =>
      obtain ⟨hfound, hsent, hlog, hlater⟩ := hpending
      refine ⟨fun r hr => List.mem_cons_of_mem _ (hfound r hr), hsent, fun r hr hnot b hb => ?_,
        hlater⟩
      rcases List.mem_cons.mp hr with rfl | hr
      · exact hshown b (hsent b hb)
      · exact hlog r hr hnot b hb

lemma Sound.delete (h : Sound s) {rest : List (Row α)} (hrest : rest.Sublist s.log) :
    Sound { s with log := rest } where
  ids := h.ids
  years := h.years
  log := hrest.trans h.log
  found := h.found
  seen := h.seen
  shown := h.shown
  view := by
    obtain ⟨top, hentries, htop, hsent, hlog⟩ := h.view
    exact ⟨top, hentries, htop, hsent, fun r hr => hlog r (hrest.subset hr)⟩
  fetch fetch hfetch := by
    have hpending := h.fetch fetch hfetch
    cases fetch with
    | sent full since => exact hpending
    | answered full rows found =>
      obtain ⟨hfound, hsent, hlog, hlater⟩ := hpending
      exact ⟨hfound, hsent, fun r hr => hlog r (hrest.subset hr), hlater⟩

lemma Deletion.rest_sublist {log rest : List (Row α)} {deletion : Deletion}
    (h : deletion.rest log = some rest) : rest.Sublist log := by
  cases deletion with
  | one id =>
    cases h
    exact List.filter_sublist
  | byIds ids =>
    cases h
    exact List.filter_sublist
  | period filter now =>
    obtain ⟨⟨deleted, rest'⟩, hdelete, rfl⟩ := Option.map_eq_some_iff.mp h
    unfold deleteAuditEntries at hdelete
    dsimp only at hdelete
    split_ifs at hdelete
    cases hdelete
    exact List.filter_sublist
  | batch cutoff =>
    cases h
    exact List.filter_sublist

/-! ## Requests -/

lemma Sound.fetchData (h : Sound s) (full : Bool) : Sound (Dashboard.fetchData s full) := by
  unfold Dashboard.fetchData
  by_cases hfetch : s.fetch.isSome = true
  · rwa [if_pos hfetch]
  · rw [if_neg hfetch]
    refine ⟨h.ids, h.years, h.log, h.found, h.seen, h.shown, h.view, fun fetch hsent => ?_⟩
    cases hsent
    rfl

lemma sinceDate_toISOString {t : ℤ} (h : InFourDigits t) :
    sinceDate (some (toISOString t)) = .ok (some t) := by
  have hread := readIso_toISOString h
  have hne : toISOString t ≠ [] := by
    intro hnil
    rw [hnil] at hread
    cases hread
  have hkeep : (some (toISOString t)).filter (· ≠ []) = some (toISOString t) := by
    rw [Option.filter_some, if_pos (decide_eq_true hne)]
  unfold sinceDate
  rw [hkeep]
  dsimp only
  rw [hread]

/-- The first of the entries is the one that an incremental request asks from. -/
lemma View.since (h : View s) (hyears : ∀ row ∈ s.shown, InFourDigits row.createdAt)
    {date : Option ℤ} (hdate : sinceDate (s.entries.head?.map AuditEntry.createdAt) = .ok date) :
    ∀ row ∈ s.log, row ∉ s.found → ∀ t ∈ date, t ≤ row.createdAt := by
  obtain ⟨top, hentries, -, hsent, hlog⟩ := h
  intro row hrow hnot t ht
  cases top with
  | nil =>
    rw [hentries] at hdate
    cases hdate
    exact absurd ht.symm (Option.some_ne_none t)
  | cons newest top =>
    have hcursor : s.entries.head?.map AuditEntry.createdAt = some (toISOString newest.createdAt) := by
      rw [hentries]
      rfl
    rw [hcursor, sinceDate_toISOString (hyears newest (hsent newest List.mem_cons_self))] at hdate
    cases hdate
    cases ht
    exact hlog row hrow hnot newest List.mem_cons_self

lemma Sound.answer (h : Sound s) {full : Bool} {since : Option (List Char)} {date : Option ℤ}
    {order : List (Row α)} (hfetch : s.fetch = some (.sent full since))
    (hdate : sinceDate since = .ok date)
    (horder : Ordered s.log date order) :
    Sound { s with
      fetch := some (.answered full (order.take maxEntries) s.log)
      shown := order.take maxEntries ++ s.shown } where
  ids := h.ids
  years := h.years
  log := h.log
  found := h.found
  seen := h.seen
  shown r hr := by
    rcases List.mem_append.mp hr with hr | hr
    · have hlog := horder.1.subset (List.mem_of_mem_take hr)
      exact h.log.subset (List.mem_of_mem_filter hlog)
    · exact h.shown r hr
  view := by
    obtain ⟨top, hentries, htop, hsent, hlog⟩ := h.view
    exact ⟨top, hentries, htop, fun r hr => List.mem_append_right _ (hsent r hr), hlog⟩
  fetch fetch hanswered := by
    cases hanswered
    have hsince : since = if full then none else s.entries.head?.map AuditEntry.createdAt :=
      h.fetch _ hfetch
    have hnodup : order.Nodup :=
      horder.1.nodup_iff.mpr (((h.ids.of_map).sublist h.log).filter _)
    have hmem : ∀ row, row ∈ order ↔ row ∈ s.log ∧ ∀ t ∈ date, t ≤ row.createdAt := by
      intro row
      rw [horder.1.mem_iff, List.mem_filter, decide_eq_true_eq]
    refine ⟨fun r hr => h.log.subset hr, fun r hr => List.mem_append_left _ hr,
      fun r hr hnot => absurd hr hnot, {row | ∀ t ∈ date, t ≤ row.createdAt}, ?_, ?_⟩
    · exact (isTop_take horder.2 hnodup).congr hmem
    · intro row hrow hwanted
      cases full with
      | true =>
        -- a full request asks for everything
        rw [if_pos rfl] at hsince
        rw [hsince] at hdate
        cases hdate
        exact fun t ht => absurd ht.symm (Option.some_ne_none t)
      | false =>
        rw [if_neg Bool.false_ne_true] at hsince
        rw [hsince] at hdate
        have hnot := hwanted.resolve_left Bool.false_ne_true
        exact h.view.since (fun r hr => h.years r (h.shown r hr)) hdate row hrow hnot

/-! ## Answers -/

lemma Sound.receive (h : Sound s) {full : Bool} {rows found : List (Row α)} (now : ℤ)
    (hfetch : s.fetch = some (.answered full rows found)) :
    Sound (Dashboard.receive s full rows found now) := by
  obtain ⟨hwritten, hsent, hlog, later, hrows, hlater⟩ := h.fetch _ hfetch
  unfold Dashboard.receive
  cases full with
  | true =>
    -- the answer is everything
    have hall : IsTop Row.createdAt maxEntries {row | row ∈ found} rows :=
      hrows.congr fun row => ⟨fun hrow => hrow.1, fun hrow => ⟨hrow, hlater row hrow (Or.inl rfl)⟩⟩
    exact ⟨h.ids, h.years, h.log, hwritten, fun _ hr => hr, h.shown, ⟨rows, rfl, hall, hsent, hlog⟩,
      fun _ hnone => absurd hnone.symm (Option.some_ne_none _)⟩
  | false =>
    obtain ⟨top, hentries, htop, htopsent, htoplog⟩ := h.view
    have hrowsub : ∀ row ∈ rows, row ∈ found := fun row hrow => (hrows.subset row hrow).1
    have htopsub : ∀ row ∈ top, row ∈ s.found := htop.subset
    have hyears : ∀ row, row ∈ top ∨ row ∈ rows → InFourDigits row.createdAt := by
      rintro row (hrow | hrow)
      · exact h.years row (h.found row (htopsub row hrow))
      · exact h.years row (hwritten row (hrowsub row hrow))
    have hids : (rows.map Row.id).Nodup := by
      refine List.Nodup.map_on (fun a ha b hb hid => ?_) hrows.nodup
      exact h.eq_of_id (hwritten a (hrowsub a ha)) (hwritten b (hrowsub b hb)) hid
    obtain ⟨sorted, hsorted, hnodup, hmem, hmerge⟩ := mergeEntries_map hids htop.nodup
      (fun a ha b hb hid => h.eq_of_id (h.found a (htopsub a ha)) (hwritten b (hrowsub b hb)) hid)
      hyears htop.sorted htop.length_le
    have hunion := htop.merge hrows (fun row hrow hnot => hlater row hrow (Or.inr hnot)) hsorted
      hnodup hmem
    have hfound : ∀ row, row ∈ found ++ s.found ↔ row ∈ {row | row ∈ s.found} ∪ {row | row ∈ found} := by
      intro row
      rw [List.mem_append, or_comm]
      rfl
    refine ⟨h.ids, h.years, h.log, ?_, fun r hr => List.mem_append_left _ hr,
      h.shown, ⟨sorted.take maxEntries, ?_, hunion.congr fun row => (hfound row).symm, ?_, ?_⟩,
      fun _ hnone => absurd hnone.symm (Option.some_ne_none _)⟩
    · intro row hrow
      rcases List.mem_append.mp hrow with hrow | hrow
      · exact hwritten row hrow
      · exact h.found row hrow
    · show mergeEntries s.entries _ = _
      rw [hentries, hmerge]
    · intro row hrow
      rcases (hmem row).mp (List.mem_of_mem_take hrow) with hrow | hrow
      · exact htopsent row hrow
      · exact hsent row hrow
    · intro row hrow hnot r hr
      have hnot' := not_or.mp fun hor => hnot (List.mem_append.mpr hor)
      rcases (hmem r).mp (List.mem_of_mem_take hr) with hr | hr
      · exact htoplog row hrow hnot'.2 r hr
      · exact hlog row hrow hnot'.1 r hr

/-! ## Runs -/

variable [DecidableEq α]

lemma step_sound {s' : Feed α} {e : Event α} (h : Sound s) (horder : InOrder s e)
    (hstep : step s e = some s') : Sound s' := by
  cases e with
  | append row =>
    simp only [step] at hstep
    split_ifs at hstep with hfresh
    cases hstep
    exact h.append hfresh horder.1 horder.2
  | delete deletion =>
    obtain ⟨rest, hrest, rfl⟩ := Option.map_eq_some_iff.mp hstep
    exact h.delete (Deletion.rest_sublist hrest)
  | fetchData full =>
    cases hstep
    exact h.fetchData full
  | refreshWhenVisible now =>
    cases hstep
    exact h.fetchData _
  | answer order =>
    simp only [step] at hstep
    split at hstep
    · split at hstep
      · cases hstep
      · split_ifs at hstep with hordered
        cases hstep
        exact h.answer ‹_› ‹_› hordered
    · cases hstep
  | receive now =>
    simp only [step] at hstep
    split at hstep
    · cases hstep
      exact h.receive now ‹_›
    · cases hstep
  | fail =>
    simp only [step] at hstep
    split_ifs at hstep
    cases hstep
    exact ⟨h.ids, h.years, h.log, h.found, h.seen, h.shown, h.view,
      fun _ hnone => absurd hnone.symm (Option.some_ne_none _)⟩

/-- Whatever is deleted, fails or overlaps: as long as no row is written that is older than one the
dashboard was sent, its entries are the newest 500 of all rows that requests found since the last
full refresh, which are all rows of the log when it was last read. If none of these is deleted and
no row was written since, they are the newest 500 of the log. -/
theorem entries_newest {log : List (Row α)} (hids : (log.map Row.id).Nodup)
    (hyears : ∀ row ∈ log, InFourDigits row.createdAt) {es : List (Event α)}
    (horder : EventMachine.Along step InOrder ({ log := log } : Feed α) es)
    (hrun : EventMachine.run step ({ log := log } : Feed α) es = some s) :
    ∃ top : List (Row α), s.entries = top.map toEntry ∧
      IsTop Row.createdAt maxEntries {row | row ∈ s.found} top ∧
      (∀ row ∈ s.seen, row ∈ s.found) ∧
      ((∀ row ∈ s.found, row ∈ s.log) → (∀ row ∈ s.log, row ∈ s.seen) →
        IsTop Row.createdAt maxEntries {row | row ∈ s.log} top) := by
  have h : Sound s := EventMachine.run_invariant_along
    (fun _ _ _ h horder hstep => step_sound h horder hstep) (sound_start hids hyears) horder hrun
  obtain ⟨top, hentries, htop, -, -⟩ := h.view
  refine ⟨top, hentries, htop, h.seen, fun hfound hlog => htop.congr fun row => ?_⟩
  exact ⟨hfound row, fun hrow => h.seen row (hlog row hrow)⟩

/-- A full refresh, a request that comes in meanwhile, and a deletion that the next refresh does not
show. -/
def morning : List (Event Unit) :=
  [.refreshWhenVisible 1765000000000, .answer [⟨"a", 1764999999000, ()⟩],
    .append ⟨"b", 1765000000100, ()⟩, .fetchData true, .receive 1765000000200,
    .refreshWhenVisible 1765000005000, .append ⟨"c", 1764999999900, ()⟩,
    .delete (.one "a"), .answer [⟨"b", 1765000000100, ()⟩, ⟨"c", 1764999999900, ()⟩],
    .receive 1765000005100]

theorem entries_newest_morning : ∃ s : Feed Unit,
    EventMachine.run step { log := [⟨"a", 1764999999000, ()⟩] } morning = some s ∧
      ∃ top : List (Row Unit), s.entries = top.map toEntry ∧
        IsTop Row.createdAt maxEntries {row | row ∈ s.found} top ∧
        (∀ row ∈ s.seen, row ∈ s.found) ∧
        ((∀ row ∈ s.found, row ∈ s.log) → (∀ row ∈ s.log, row ∈ s.seen) →
          IsTop Row.createdAt maxEntries {row | row ∈ s.log} top) := by
  obtain ⟨s, hs⟩ := Option.isSome_iff_exists.mp (show (EventMachine.run step
    ({ log := [⟨"a", 1764999999000, ()⟩] } : Feed Unit) morning).isSome = true by decide +kernel)
  have horder : EventMachine.Along step InOrder ({ log := [⟨"a", 1764999999000, ()⟩] } : Feed Unit)
    morning := by decide +kernel
  exact ⟨s, hs, entries_newest (by decide) (by decide +kernel) horder hs⟩

end Dashboard
end FirecrawlGateway
