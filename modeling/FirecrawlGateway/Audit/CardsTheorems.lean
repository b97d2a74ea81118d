import FirecrawlGateway.Audit.Cards
import FirecrawlGateway.Audit.StatsRequestTheorems

/-!
# The cards are never of other filters

However requests for totals overlap: what the cards show as totals was answered by the service for
the filters that are set, and once the effect and the timeout have run and the latest request is
back, it is what that request came to. Requests that come back later are older and change nothing.
-/

namespace FirecrawlGateway
namespace Cards

open AuditStats

variable {p : Platform}

/-- The query that a request was sent with. -/
def Request.query : Request → List Char
  | .sent query => query
  | .answered query .. => query
  | .received query .. => query
  | .failed query => query

/-! ## The invariant -/

/-- What a request has was answered by the service for its query, from the log of that moment. -/
def Truthful (p : Platform) (s : Dashboard) : Request → Prop
  | .sent _ => True
  | .answered query answer seen =>
    answer = stats p.isKnown p.database query seen.time seen.log ∧ seen.version ≤ s.version
  | .received query answer seen =>
    answer = stats p.isKnown p.database query seen.time seen.log ∧ seen.version ≤ s.version
  | .failed _ => True

/-- The latest request was made after the dashboard last noticed a change, and once it is back, the
cards have what it came to. -/
def Latest (s : Dashboard) : Request → Prop
  | .sent _ => True
  | .answered _ _ seen => s.noticed ≤ seen.version
  | .received query answer seen =>
    s.noticed ≤ seen.version ∧ s.statsState = answer.map fun totals => (query, totals)
  | .failed _ => s.statsState = none

structure Sound (p : Platform) (s : Dashboard) : Prop where
  unused : ∀ n, s.statsSeqRef < n → s.requests n = none
  truthful : ∀ n, ∀ request ∈ s.requests n, Truthful p s request
  latest : ∀ request ∈ s.requests s.statsSeqRef, Latest s request
  noticed : s.noticed ≤ s.version
  statsQueryRef : s.effect = false → s.statsQueryRef = statsQueryOf p s
  due : s.effect = false → s.timer = false →
    ∃ request ∈ s.requests s.statsSeqRef, request.query = s.statsQueryRef
  statsState : ∀ state ∈ s.statsState, ∃ n seen,
    s.requests n = some (.received state.1 (some state.2) seen)

lemma sound_start (p : Platform) (log : List AuditLog) : Sound p { log := log } where
  unused _ _ := rfl
  truthful _ _ h := absurd h.symm (Option.some_ne_none _)
  latest _ h := absurd h.symm (Option.some_ne_none _)
  noticed := le_rfl
  statsQueryRef h := absurd h.symm Bool.false_ne_true
  due h := absurd h.symm Bool.false_ne_true
  statsState _ h := absurd h.symm (Option.some_ne_none _)

variable {s : Dashboard}

/-! ## New requests -/

/-- A new request is the latest one, and was made after every change that was noticed. -/
lemma Sound.loadStats (h : Sound p s) (timer : Bool) (entries : List AuditEntry) {noticed : ℕ}
    (hnoticed : noticed ≤ s.version) :
    Sound p { Cards.loadStats s with timer := timer, entries := entries, noticed := noticed } where
  unused n hn := by
    have hlt : s.statsSeqRef + 1 < n := hn
    show Function.update s.requests (s.statsSeqRef + 1) _ n = none
    rw [Function.update_of_ne (by omega)]
    exact h.unused n (by omega)
  truthful n request hrequest := by
    have hupdate : Function.update s.requests (s.statsSeqRef + 1) (some (.sent s.statsQueryRef)) n =
      some request := hrequest
    by_cases hn : n = s.statsSeqRef + 1
    · rw [hn, Function.update_self] at hupdate
      cases hupdate
      trivial
    · rw [Function.update_of_ne hn] at hupdate
      exact h.truthful n request hupdate
  latest request hrequest := by
    have hupdate : Function.update s.requests (s.statsSeqRef + 1) (some (.sent s.statsQueryRef))
      (s.statsSeqRef + 1) = some request := hrequest
    rw [Function.update_self] at hupdate
    cases hupdate
    trivial
  noticed := hnoticed
  statsQueryRef := h.statsQueryRef
  due _ _ := by
    refine ⟨.sent s.statsQueryRef, ?_, rfl⟩
    exact Function.update_self ..
  statsState state hstate := by
    obtain ⟨n, seen, hreceived⟩ := h.statsState state hstate
    refine ⟨n, seen, ?_⟩
    have hne : n ≠ s.statsSeqRef + 1 := by
      intro hn
      have hnone := h.unused n (by omega)
      rw [hnone] at hreceived
      cases hreceived
    show Function.update s.requests (s.statsSeqRef + 1) _ n = _
    rw [Function.update_of_ne hne]
    exact hreceived

/-! ## Requests on their way -/

/-- Whether a request is back with an answer. -/
def Request.isReceived : Request → Bool
  | .received .. => true
  | _ => false

/-- One request gets on, and the cards follow it if it is the latest. -/
lemma Sound.setRequest (h : Sound p s) {n : ℕ} {old : Request} (request : Request)
    (hold : s.requests n = some old) (hpending : old.isReceived = false)
    (hquery : request.query = old.query) (htruthful : Truthful p s request)
    {state : Option (List Char × Totals)}
    (hlatest : n = s.statsSeqRef → Latest { s with statsState := state } request)
    (hother : n ≠ s.statsSeqRef → state = s.statsState)
    (hstate : ∀ value ∈ state, value ∈ s.statsState ∨
      ∃ seen, request = .received value.1 (some value.2) seen) :
    Sound p { Cards.setRequest s n request with statsState := state } where
  unused m hm := by
    have hlt : s.statsSeqRef < m := hm
    have hne : m ≠ n := by
      intro hmn
      rw [← hmn, h.unused m hlt] at hold
      cases hold
    show Function.update s.requests n _ m = none
    rw [Function.update_of_ne hne]
    exact h.unused m hlt
  truthful m other hrequest := by
    have hupdate : Function.update s.requests n (some request) m = some other := hrequest
    by_cases hm : m = n
    · rw [hm, Function.update_self] at hupdate
      cases hupdate
      exact htruthful
    · rw [Function.update_of_ne hm] at hupdate
      exact h.truthful m other hupdate
  latest other hrequest := by
    have hupdate : Function.update s.requests n (some request) s.statsSeqRef = some other := hrequest
    by_cases hn : n = s.statsSeqRef
    · rw [← hn, Function.update_self] at hupdate
      cases hupdate
      exact hlatest hn
    · rw [Function.update_of_ne (Ne.symm hn)] at hupdate
      have hold := h.latest other hupdate
      rw [hother hn]
      exact hold
  noticed := h.noticed
  statsQueryRef := h.statsQueryRef
  due heffect htimer := by
    obtain ⟨latest, hlatest', hsent⟩ := h.due heffect htimer
    by_cases hn : n = s.statsSeqRef
    · have heq : old = latest := Option.some.inj (hold.symm.trans (hn ▸ hlatest'))
      refine ⟨request, ?_, ?_⟩
      · show Function.update s.requests n _ s.statsSeqRef = _
        rw [← hn, Function.update_self]
      · rw [hquery, heq]
        exact hsent
    · refine ⟨latest, ?_, hsent⟩
      show Function.update s.requests n _ s.statsSeqRef = _
      rw [Function.update_of_ne (Ne.symm hn)]
      exact hlatest'
  statsState value hvalue := by
    rcases hstate value hvalue with hshown | ⟨seen, rfl⟩
    · obtain ⟨m, seen, hreceived⟩ := h.statsState value hshown
      refine ⟨m, seen, ?_⟩
      have hne : m ≠ n := by
        intro hmn
        rw [hmn, hold] at hreceived
        rw [Option.some.inj hreceived] at hpending
        cases hpending
      show Function.update s.requests n _ m = _
      rw [Function.update_of_ne hne]
      exact hreceived
    · exact ⟨n, seen, Function.update_self ..⟩

/-- What an outcome of a request makes of the cards. -/
lemma setStatsState_eq (n : ℕ) (request : Request) (value : Option (List Char × Totals)) :
    setStatsState (Cards.setRequest s n request) n value =
      { Cards.setRequest s n request with
        statsState := if n = s.statsSeqRef then value else s.statsState } := by
  unfold setStatsState
  by_cases hn : n = s.statsSeqRef
  · have hlatest : n = (Cards.setRequest s n request).statsSeqRef := hn
    simp only [if_pos hn, if_pos hlatest]
  · have hlatest : ¬ n = (Cards.setRequest s n request).statsSeqRef := hn
    simp only [if_neg hn, if_neg hlatest]
    rfl

/-- A request that rejects. -/
lemma Sound.fail (h : Sound p s) {n : ℕ} {old : Request} (hold : s.requests n = some old)
    (hpending : old.isReceived = false) :
    Sound p (setStatsState (Cards.setRequest s n (.failed old.query)) n none) := by
  rw [setStatsState_eq]
  apply h.setRequest (.failed old.query) hold hpending rfl trivial
  · intro hn
    exact if_pos hn
  · intro hn
    exact if_neg hn
  · intro value hvalue
    by_cases hn : n = s.statsSeqRef
    · rw [if_pos hn] at hvalue
      cases hvalue
    · rw [if_neg hn] at hvalue
      exact Or.inl hvalue

/-- A request that comes back. -/
lemma Sound.receive (h : Sound p s) {n : ℕ} {query : List Char} {answer : Option Totals}
    {seen : Seen}
    (hold : s.requests n = some (.answered query answer seen)) :
    Sound p (setStatsState (Cards.setRequest s n (.received query answer seen)) n
      (answer.map fun totals => (query, totals))) := by
  rw [setStatsState_eq]
  apply h.setRequest (.received query answer seen) hold rfl rfl
  · have htruthful : Truthful p s (.answered query answer seen) := h.truthful n _ hold
    exact htruthful
  · intro hn
    have hlatest : Latest s (.answered query answer seen) := h.latest _ (hn ▸ hold)
    exact ⟨hlatest, if_pos hn⟩
  · intro hn
    exact if_neg hn
  · intro value hvalue
    by_cases hn : n = s.statsSeqRef
    · rw [if_pos hn] at hvalue
      obtain ⟨totals, rfl, rfl⟩ := Option.map_eq_some_iff.mp hvalue
      exact Or.inr ⟨seen, rfl⟩
    · rw [if_neg hn] at hvalue
      exact Or.inl hvalue

/-! ## Runs -/

/-- The truth of a request does not depend on what is shown or set. -/
lemma Truthful.mono {s' : Dashboard} (hle : s.version ≤ s'.version) {request : Request}
    (h : Truthful p s request) : Truthful p s' request := by
  cases request with
  | sent _ => trivial
  | answered query answer seen => exact ⟨h.1, h.2.trans hle⟩
  | received query answer seen => exact ⟨h.1, h.2.trans hle⟩
  | failed _ => trivial

lemma step_sound {s' : Dashboard} {e : Event} (h : Sound p s) (hstep : step p s e = some s') :
    Sound p s' := by
  cases e with
  | change log =>
    cases hstep
    exact
      { h with
        truthful := fun n request hrequest => (h.truthful n request hrequest).mono (Nat.le_succ _)
        noticed := h.noticed.trans (Nat.le_succ _) }
  | render filters =>
    cases hstep
    refine { h with statsQueryRef := fun heffect => ?_, due := fun heffect htimer => ?_ }
    · -- the effect need not run again, so the query is the same
      obtain ⟨hrun, hchanged⟩ := not_or.mp (of_decide_eq_false heffect)
      have hsame := not_not.mp (not_or.mp hchanged).1
      exact (h.statsQueryRef (Bool.eq_false_iff.mpr hrun)).trans hsame.symm
    · obtain ⟨hrun, -⟩ := not_or.mp (of_decide_eq_false heffect)
      exact h.due (Bool.eq_false_iff.mpr hrun) htimer
  | effect =>
    simp only [step] at hstep
    split_ifs at hstep
    cases hstep
    refine { h with statsQueryRef := fun _ => rfl, due := fun _ htimer => ?_ }
    exact absurd htimer.symm Bool.false_ne_true
  | timeout =>
    simp only [step] at hstep
    split_ifs at hstep
    cases hstep
    exact h.loadStats false s.entries h.noticed
  | fetchData entries =>
    cases hstep
    exact h.loadStats s.timer entries le_rfl
  | answer n now =>
    simp only [step] at hstep
    split at hstep
    · rename_i query hold
      cases hstep
      exact h.setRequest (.answered query _ ⟨s.log, now, s.version⟩) hold rfl rfl ⟨rfl, le_rfl⟩
        (fun _ => h.noticed) (fun _ => rfl) fun _ hvalue => Or.inl hvalue
    · cases hstep
  | receive n =>
    simp only [step] at hstep
    split at hstep
    · cases hstep
      exact h.receive ‹_›
    · cases hstep
  | fail n =>
    simp only [step] at hstep
    split at hstep
    · cases hstep
      exact h.fail ‹_› rfl
    · cases hstep
      exact h.fail ‹_› rfl
    · cases hstep

lemma sound_of_run {log : List AuditLog} {es : List Event}
    (hrun : EventMachine.run (step p) { log := log } es = some s) : Sound p s :=
  EventMachine.run_invariant (fun _ _ _ h hstep => step_sound h hstep) (sound_start p log) hrun

/-- What is shown as totals was answered for the filters that are set. -/
lemma Sound.answered (h : Sound p s) {totals : Totals} (hshown : currentStats p s = some totals) :
    ∃ n seen, s.requests n = some (.received (statsQueryOf p s) (some totals) seen) ∧
      stats p.isKnown p.database (statsQueryOf p s) seen.time seen.log = some totals := by
  obtain ⟨state, hstate, rfl⟩ := Option.map_eq_some_iff.mp hshown
  obtain ⟨hsome, hquery⟩ := Option.filter_eq_some_iff.mp hstate
  obtain ⟨n, seen, hreceived⟩ := h.statsState state hsome
  have hquery' : state.1 = statsQueryOf p s := of_decide_eq_true hquery
  rw [hquery'] at hreceived
  obtain ⟨hanswer, -⟩ := h.truthful n _ hreceived
  exact ⟨n, seen, hreceived, hanswer.symm⟩

/-- What the latest request came to is shown. -/
lemma Sound.current (h : Sound p s) (heffect : s.effect = false) (htimer : s.timer = false)
    {query : List Char} {answer : Option Totals} {seen : Seen}
    (hlatest : s.requests s.statsSeqRef = some (.received query answer seen)) :
    query = statsQueryOf p s ∧ currentStats p s = answer := by
  obtain ⟨request, hrequest, hsent⟩ := h.due heffect htimer
  have heq : Request.received query answer seen = request :=
    Option.some.inj (hlatest.symm.trans hrequest)
  have hquery : query = statsQueryOf p s := by
    rw [← h.statsQueryRef heffect, ← hsent, ← heq]
    rfl
  obtain ⟨-, hstate⟩ := h.latest _ hlatest
  refine ⟨hquery, ?_⟩
  unfold currentStats
  rw [hstate, hquery]
  cases answer with
  | none => rfl
  | some totals =>
    rw [Option.map_some, Option.filter_some, if_pos (decide_eq_true rfl)]
    rfl

/-- **The cards are never of other filters, and the latest request decides.** In every run the
totals that are shown were answered for the query of the filters that are set. Once the effect and
the timeout have run and the latest request is back, the cards show what it came to, made from a log
that is no older than the last change that the dashboard noticed; if it failed, they show the
table. -/
theorem currentStats_latest {log : List AuditLog} {es : List Event}
    (hrun : EventMachine.run (step p) { log := log } es = some s) :
    (∀ totals, currentStats p s = some totals → ∃ n seen,
      s.requests n = some (.received (statsQueryOf p s) (some totals) seen) ∧
      stats p.isKnown p.database (statsQueryOf p s) seen.time seen.log = some totals) ∧
    (s.effect = false → s.timer = false →
      (∀ query answer seen, s.requests s.statsSeqRef = some (.received query answer seen) →
        query = statsQueryOf p s ∧ currentStats p s = answer ∧
          answer = stats p.isKnown p.database query seen.time seen.log ∧
          s.noticed ≤ seen.version) ∧
      ∀ query, s.requests s.statsSeqRef = some (.failed query) → ∀ now, metrics p now s =
        useAuditMetrics (shownEntries p.database.texts p.zone now s.filters s.entries)) := by
  have h := sound_of_run hrun
  refine ⟨fun totals hshown => h.answered hshown, fun heffect htimer => ⟨?_, ?_⟩⟩
  · intro query answer seen hlatest
    obtain ⟨hquery, hshown⟩ := h.current heffect htimer hlatest
    have htruthful : Truthful p s (.received query answer seen) :=
      h.truthful _ _ hlatest
    have hnoticed : Latest s (.received query answer seen) := h.latest _ hlatest
    exact ⟨hquery, hshown, htruthful.1, hnoticed.1⟩
  · intro query hlatest now
    have hnone : Latest s (.failed query) := h.latest _ hlatest
    have hcurrent : currentStats p s = none := by
      unfold currentStats
      rw [hnone]
      rfl
    unfold metrics
    rw [hcurrent]

/-! ## Two requests that overtake each other -/

def examplePlatform : Platform where
  timeZone := JsString.lit "UTC"
  zone := ⟨id, id⟩
  isKnown _ := true
  database := utcDatabase

/-- The filters are set while the first request is on its way, and its answer comes last. -/
def overtaken : List Event :=
  [.effect, .timeout, .answer 1 5, .render { dateRange := .today }, .effect, .timeout, .answer 2 7,
    .receive 2, .receive 1]

/-- The totals of today are shown. -/
theorem currentStats_latest_overtaken : ∃ s : Dashboard,
    EventMachine.run (step examplePlatform) { log := [exampleRow] } overtaken = some s ∧
      currentStats examplePlatform s = stats (fun _ => true) utcDatabase
        (statsQuery (JsString.lit "UTC") { dateRange := .today }) 7 [exampleRow] := by
  obtain ⟨s, answer, hs, heffect, htimer, hquery, hlatest⟩ : ∃ s answer,
      EventMachine.run (step examplePlatform) ({ log := [exampleRow] } : Dashboard) overtaken =
          some s ∧
        s.effect = false ∧ s.timer = false ∧
        statsQueryOf examplePlatform s =
          statsQuery (JsString.lit "UTC") { dateRange := .today } ∧
        s.requests s.statsSeqRef = some (.received (statsQuery (JsString.lit "UTC")
          { dateRange := .today }) answer ⟨[exampleRow], 7, 0⟩) :=
    ⟨_, _, rfl, rfl, rfl, rfl, rfl⟩
  obtain ⟨-, hshown, hanswer, -⟩ := ((currentStats_latest hs).2 heffect htimer).1 _ _ _ hlatest
  exact ⟨s, hs, hshown.trans hanswer⟩

end Cards
end FirecrawlGateway
