import FirecrawlGateway.Proxy.CloudKeyRunsTheorems

/-!
# How often Cloud is asked for a balance

`refreshCreditUsage` of `CreditRoutingService` (`apps/api/src/credits/credit-routing.service.ts`)
shares a request in flight and keeps an answer for thirty seconds. An onlooker writes down when
each request for a balance started and ended. In every interleaving a call asks Cloud exactly where
nobody is asking and nobody was answered in the last thirty seconds, so that the requests for an API
key never overlap and keep their distance.
-/

namespace FirecrawlGateway
namespace CloudKeys

open EventMachine
open CreditRouting

variable {c : Config}

/-! ## What an onlooker sees -/

/-- A request for a balance that came to details without an error, with its times. -/
structure Answered where
  details : CreditUsageDetails
  started : ℕ
  ended : ℕ

/-- When each call of `refreshCreditUsage` started its request, and what Cloud answered for each API
key, the last answer first. -/
structure Requests where
  started : ℕ → ℕ := fun _ => 0
  answered : String → List Answered := fun _ => []

/-- A request for a balance of this key is over. -/
def Requests.onEnd (n : Requests) (clock call : ℕ) (apiKey : String)
    (details : CreditUsageDetails) : Requests :=
  -- an error is not cached, so the next call asks again
  if details.error.any (· ≠ "") then n
  else
    let answer := ⟨details, n.started call, clock⟩
    { n with answered := Function.update n.answered apiKey (answer :: n.answered apiKey) }

/-- The onlooker sees a step. -/
def Requests.note (n : Requests) (s : System) (e : Event) (s' : System) : Requests :=
  match e with
  | .refresh call _ =>
    -- a call that is served from the cache or joins another starts nothing
    if (s'.refreshes call).isSome then
      { n with started := Function.update n.started call s.clock }
    else n
  | .refreshed call =>
    match s.refreshes call with
    | some ⟨apiKey, .finished details⟩ => n.onEnd s.clock call apiKey details
    | _ => n
  | _ => n

/-- A call that started no request. -/
lemma Requests.note_refresh_none (n : Requests) (s : System) {s' : System} {call : ℕ}
    (apiKey : String) (h : s'.refreshes call = none) : n.note s (.refresh call apiKey) s' = n := by
  show (if (s'.refreshes call).isSome then _ else n) = n
  rw [h]
  rfl

lemma Requests.note_refresh_some (n : Requests) (s : System) {s' : System} {call : ℕ}
    (apiKey : String) {f : Refresh} (h : s'.refreshes call = some f) :
    n.note s (.refresh call apiKey) s' =
      { n with started := Function.update n.started call s.clock } := by
  show (if (s'.refreshes call).isSome then _ else n) = _
  rw [h]
  rfl

lemma Requests.note_refreshed (n : Requests) {s : System} (s' : System) {call : ℕ}
    {apiKey : String} {details : CreditUsageDetails}
    (h : s.refreshes call = some ⟨apiKey, .finished details⟩) :
    n.note s (.refreshed call) s' = n.onEnd s.clock call apiKey details := by
  show (match s.refreshes call with
    | some ⟨apiKey, .finished details⟩ => n.onEnd s.clock call apiKey details
    | _ => n) = _
  rw [h]

/-! ## Steps that start and end no request -/

/-- The API key that a call asks Cloud about. -/
def System.asks (s : System) (call : ℕ) : Option String := (s.refreshes call).map Refresh.apiKey

/-- What the calls ask after a change to one of them. -/
lemma asks_update {s s' : System} {call : ℕ} (refresh : Option Refresh)
    (h : s'.refreshes = Function.update s.refreshes call refresh) :
    s'.asks = Function.update s.asks call (refresh.map Refresh.apiKey) := by
  funext other
  unfold System.asks
  rw [h]
  by_cases hother : other = call
  · rw [hother, Function.update_self, Function.update_self]
  · rw [Function.update_of_ne hother, Function.update_of_ne hother]

/-- What a call asks is the API key of its refresh. -/
lemma asks_of_refreshes {s : System} {call : ℕ} {refresh : Option Refresh}
    (h : s.refreshes call = refresh) : s.asks call = refresh.map Refresh.apiKey :=
  congrArg (Option.map Refresh.apiKey) h

/-- Time may pass; requests, answers and what is in flight stay. -/
structure Quiet (s s' : System) : Prop where
  clock : s.clock ≤ s'.clock
  cache : s'.creditUsageCache = s.creditUsageCache
  inFlight : s'.creditUsageInFlight = s.creditUsageInFlight
  asks : s'.asks = s.asks

lemma Quiet.refl (s : System) : Quiet s s := ⟨le_rfl, rfl, rfl, rfl⟩

/-- A change to other fields. -/
lemma Quiet.of_same {s s' : System} (hclock : s'.clock = s.clock)
    (hcache : s'.creditUsageCache = s.creditUsageCache)
    (hinFlight : s'.creditUsageInFlight = s.creditUsageInFlight)
    (hrefreshes : s'.refreshes = s.refreshes) : Quiet s s' where
  clock := hclock.ge
  cache := hcache
  inFlight := hinFlight
  asks := by
    funext call
    unfold System.asks
    rw [hrefreshes]

/-- A refresh that goes on. -/
lemma Quiet.setRefresh {s s' : System} (hclock : s'.clock = s.clock)
    (hcache : s'.creditUsageCache = s.creditUsageCache)
    (hinFlight : s'.creditUsageInFlight = s.creditUsageInFlight) {call : ℕ} {apiKey : String}
    {before after : RefreshStage} (hcall : s.refreshes call = some ⟨apiKey, before⟩)
    (hrefreshes : s'.refreshes = Function.update s.refreshes call (some ⟨apiKey, after⟩)) :
    Quiet s s' where
  clock := hclock.ge
  cache := hcache
  inFlight := hinFlight
  asks := by
    rw [asks_update _ hrefreshes, Function.update_eq_self_iff, asks_of_refreshes hcall]
    rfl

lemma quiet_record (s : System) (reservation : CreditReservation) (status : ℕ)
    (actual : Option ℕ) : Quiet s (record s reservation status actual) := by
  unfold record sendAll
  obtain ⟨routing, script⟩ := recordResponse s.routing s.clock reservation status actual
  cases script with
  | none => exact .of_same rfl rfl rfl rfl
  | some script => exact .of_same rfl rfl rfl rfl

lemma quiet_receiveBalance {s : System} {call : ℕ} {apiKey : String} {snapshot : LedgerSnapshot}
    (hcall : s.refreshes call = some ⟨apiKey, .fetching snapshot⟩)
    (details : CreditUsageDetails) :
    Quiet s (receiveBalance c s call apiKey snapshot details) := by
  unfold receiveBalance
  cases details.remainingCredits with
  | none => exact .setRefresh rfl rfl rfl hcall rfl
  | some r =>
    dsimp only
    split_ifs
    · exact .setRefresh rfl rfl rfl hcall rfl
    · exact .setRefresh rfl rfl rfl hcall rfl

/-- Only `refreshCreditUsage` itself, where it starts and where it ends, is not quiet. -/
lemma quiet_of_step {s s' : System} {e : Event} (hstep : step c s e = some s')
    (hrefresh : ∀ call apiKey, e ≠ .refresh call apiKey) (hrefreshed : ∀ call, e ≠ .refreshed call) :
    Quiet s s' := by
  cases e with
  | tick ms =>
    cases hstep
    exact ⟨Nat.le_add_right _ _, rfl, rfl, rfl⟩
  | reserve call apiKeys amount excludedKeyIds random =>
    simp only [step] at hstep
    split_ifs at hstep
    split at hstep <;> (cases hstep; exact .of_same rfl rfl rfl rfl)
  | reserveAnswered call available random =>
    simp only [step] at hstep
    split at hstep
    · obtain ⟨result, -, rfl⟩ := Option.map_eq_some_iff.mp hstep
      exact .of_same rfl rfl rfl rfl
    · cases hstep
  | proxied call response =>
    simp only [step] at hstep
    split at hstep
    · split at hstep
      · cases hstep
        exact quiet_record s _ _ _
      · cases hstep
        exact .refl s
    · cases hstep
  | recordResponse reservation status actual =>
    cases hstep
    exact quiet_record s _ _ _
  | refresh call apiKey => exact absurd rfl (hrefresh call apiKey)
  | captured call available =>
    simp only [step] at hstep
    split at hstep
    · rename_i hcall
      obtain ⟨snapshot, -, rfl⟩ := Option.map_eq_some_iff.mp hstep
      exact .setRefresh rfl rfl rfl hcall rfl
    · cases hstep
  | balance call details =>
    simp only [step] at hstep
    split at hstep
    · rename_i hcall
      cases hstep
      exact quiet_receiveBalance hcall details
    · cases hstep
  | failed call message =>
    simp only [step] at hstep
    split at hstep
    · rename_i hcall
      cases hstep
      exact .setRefresh rfl rfl rfl hcall rfl
    · cases hstep
  | reconciled call =>
    simp only [step] at hstep
    split at hstep
    · rename_i hcall
      cases hstep
      exact .setRefresh rfl rfl rfl hcall rfl
    · cases hstep
  | refreshed call => exact absurd rfl (hrefreshed call)
  | redis script reservationKeys random =>
    simp only [step] at hstep
    split at hstep
    · cases hstep
      exact .of_same rfl rfl rfl rfl
    · cases hstep
  | elsewhere redis =>
    cases hstep
    exact .of_same rfl rfl rfl rfl

/-! ## Requests keep their distance -/

/-- What the onlooker knows about one API key. -/
structure Spaced (s : System) (n : Requests) (apiKey : String) : Prop where
  /-- The map of requests in flight names the one call that is asking. -/
  single : ∀ call, s.creditUsageInFlight apiKey = some call ↔ s.asks call = some apiKey
  /-- A request started after the answers before it had become old. -/
  started : ∀ call, s.asks call = some apiKey → n.started call ≤ s.clock ∧
    ∀ a ∈ n.answered apiKey, a.ended + 30000 ≤ n.started call
  ended : ∀ a ∈ n.answered apiKey, a.started ≤ a.ended ∧ a.ended ≤ s.clock
  distance : (n.answered apiKey).Pairwise fun newer older => older.ended + 30000 ≤ newer.started
  /-- The cache has the last answer, or has dropped an old one. -/
  cached : s.creditUsageCache apiKey =
      (n.answered apiKey).head?.map (fun a => (a.details, (a.ended : ℤ) + creditUsageCacheTtlMs)) ∨
    s.creditUsageCache apiKey = none ∧ ∀ a ∈ n.answered apiKey, a.ended + 30000 ≤ s.clock

/-- Nobody was answered in the last thirty seconds. -/
def Requests.Old (n : Requests) (s : System) (apiKey : String) : Prop :=
  ∀ a ∈ n.answered apiKey, a.ended + 30000 ≤ s.clock

/-- The last answer is the newest. -/
lemma Spaced.old_cons_iff {s : System} {n : Requests} {apiKey : String} (h : Spaced s n apiKey)
    {newest : Answered} {older : List Answered} (hanswered : n.answered apiKey = newest :: older) :
    n.Old s apiKey ↔ newest.ended + 30000 ≤ s.clock := by
  have hdistance := h.distance
  have hended := h.ended
  unfold Requests.Old
  rw [hanswered] at hdistance hended ⊢
  constructor
  · intro hold
    exact hold newest (List.mem_cons_self ..)
  · intro hnewest a ha
    have htimes := hended newest (List.mem_cons_self ..)
    rcases List.mem_cons.mp ha with rfl | ha
    · exact hnewest
    · -- it ended before the newest request started
      have hbefore := (List.pairwise_cons.mp hdistance).1 a ha
      omega

/-- The cache serves a call exactly where there is an answer of the last thirty seconds. -/
lemma Spaced.fresh_iff {s : System} {n : Requests} {apiKey : String} (h : Spaced s n apiKey) :
    (s.creditUsageCache apiKey).any ((s.clock : ℤ) < ·.2) = true ↔ ¬ n.Old s apiKey := by
  rcases h.cached with hcache | ⟨hcache, hold⟩
  · rw [hcache]
    cases hanswered : n.answered apiKey with
    | nil =>
      have hold : n.Old s apiKey := by
        intro a ha
        rw [hanswered] at ha
        cases ha
      exact iff_of_false (by simp) fun hnot => hnot hold
    | cons newest older =>
      rw [h.old_cons_iff hanswered]
      rw [List.head?_cons, Option.map_some, Option.any_some, decide_eq_true_eq]
      unfold creditUsageCacheTtlMs
      omega
  · rw [hcache]
    exact iff_of_false (by simp) fun hnot => hnot hold

lemma spaced_init (redis : CreditLedger.Store String String) (apiKey : String) :
    Spaced { redis := redis } {} apiKey where
  single _ := iff_of_false (by simp) (by simp [System.asks])
  started call hcall := by simp [System.asks] at hcall
  ended a ha := by cases ha
  distance := .nil
  cached := Or.inl rfl

/-- A step that starts and ends no request. -/
lemma Spaced.quiet {s s' : System} {n : Requests} {apiKey : String} (h : Spaced s n apiKey)
    (hquiet : Quiet s s') : Spaced s' n apiKey where
  single call := by
    rw [hquiet.inFlight, hquiet.asks]
    exact h.single call
  started call hcall := by
    rw [hquiet.asks] at hcall
    obtain ⟨hle, hbefore⟩ := h.started call hcall
    exact ⟨hle.trans hquiet.clock, hbefore⟩
  ended a ha := ⟨(h.ended a ha).1, (h.ended a ha).2.trans hquiet.clock⟩
  distance := h.distance
  cached := by
    rw [hquiet.cache]
    rcases h.cached with hcache | ⟨hcache, hold⟩
    · exact Or.inl hcache
    · exact Or.inr ⟨hcache, fun a ha => (hold a ha).trans hquiet.clock⟩

/-! ## A request starts and ends -/

/-- An entry that is over is dropped. -/
lemma Spaced.drop {s : System} {n : Requests} {key apiKey : String} (h : Spaced s n key)
    (hold : n.Old s apiKey) :
    Spaced { s with creditUsageCache := Function.update s.creditUsageCache apiKey none } n key where
  single := h.single
  started := h.started
  ended := h.ended
  distance := h.distance
  cached := by
    by_cases hkey : key = apiKey
    · subst hkey
      exact Or.inr ⟨Function.update_self .., hold⟩
    · have hcached := h.cached
      rwa [← Function.update_of_ne hkey none s.creditUsageCache] at hcached

/-- A request starts where none of its API key is in flight and the answers are old. -/
lemma Spaced.start {s s' : System} {n : Requests} {call : ℕ} {apiKey : String}
    (h : ∀ key, Spaced s n key) (hcall : s.asks call = none)
    (hnone : s.creditUsageInFlight apiKey = none) (hold : n.Old s apiKey)
    (hclock : s'.clock = s.clock) (hcache : s'.creditUsageCache = s.creditUsageCache)
    (hinFlight : s'.creditUsageInFlight = Function.update s.creditUsageInFlight apiKey (some call))
    (hasks : s'.asks = Function.update s.asks call (some apiKey)) (key : String) :
    Spaced s' { n with started := Function.update n.started call s.clock } key where
  single other := by
    rw [hinFlight, hasks]
    have hsingle := (h key).single other
    by_cases hkey : key = apiKey <;> by_cases hother : other = call
    · simp [hkey, hother]
    · -- nobody else was asking about this key
      rw [hkey, hnone] at hsingle
      rw [hkey, Function.update_self, Function.update_of_ne hother, ← hsingle]
      exact iff_of_false (fun heq => hother (Option.some.inj heq).symm) nofun
    · -- the call asks about no other key
      rw [hother, hcall] at hsingle
      rw [hother, Function.update_of_ne hkey, Function.update_self, hsingle]
      exact iff_of_false nofun fun heq => hkey (Option.some.inj heq).symm
    · rw [Function.update_of_ne hkey, Function.update_of_ne hother]
      exact hsingle
  started other hother := by
    rw [hasks] at hother
    rw [hclock]
    by_cases heq : other = call
    · subst heq
      rw [Function.update_self] at hother
      cases hother
      dsimp only
      rw [Function.update_self]
      exact ⟨le_rfl, hold⟩
    · rw [Function.update_of_ne heq] at hother
      dsimp only
      rw [Function.update_of_ne heq]
      exact (h key).started other hother
  ended a ha := by
    rw [hclock]
    exact (h key).ended a ha
  distance := (h key).distance
  cached := by
    rw [hcache, hclock]
    exact (h key).cached

lemma Spaced.startRefresh {s : System} {n : Requests} (h : ∀ key, Spaced s n key) {call : ℕ}
    (hcall : s.refreshes call = none) (apiKey keyId : String) (key : String) :
    let s' := CloudKeys.startRefresh s call apiKey keyId
    Spaced s' (n.note s (.refresh call apiKey) s') key := by
  intro s'
  by_cases hfresh : (s.creditUsageCache apiKey).any ((s.clock : ℤ) < ·.2) = true
  · -- served from the cache
    have hs' : s' = s := if_pos hfresh
    rw [n.note_refresh_none s apiKey (hs' ▸ hcall), hs']
    exact h key
  · have hold : n.Old s apiKey := by
      by_contra hnot
      exact hfresh ((h apiKey).fresh_iff.mpr hnot)
    have hdrop := fun key => (h key).drop hold
    by_cases hinFlight : (s.creditUsageInFlight apiKey).isSome = true
    · -- joins the request in flight
      have hs' : s' = { s with
          creditUsageCache := Function.update s.creditUsageCache apiKey none } :=
        (if_neg hfresh).trans (if_pos hinFlight)
      rw [n.note_refresh_none s apiKey (by rw [hs']; exact hcall), hs']
      exact hdrop key
    · -- asks Cloud
      have hs' : s' = { s with
          creditUsageCache := Function.update s.creditUsageCache apiKey none
          creditUsageInFlight := Function.update s.creditUsageInFlight apiKey (some call)
          refreshes := Function.update s.refreshes call (some ⟨apiKey, .capturing s.sent.length⟩)
          sent := s.sent ++ [{ script := .capture keyId }] } :=
        (if_neg hfresh).trans (if_neg hinFlight)
      have hrefreshes : s'.refreshes = Function.update s.refreshes call
          (some ⟨apiKey, .capturing s.sent.length⟩) := congrArg System.refreshes hs'
      rw [n.note_refresh_some s apiKey (by rw [hrefreshes]; exact Function.update_self ..)]
      refine Spaced.start hdrop ?_ ?_ hold ?_ ?_ ?_ ?_ key
      · exact asks_of_refreshes hcall
      · exact Option.not_isSome_iff_eq_none.mp hinFlight
      · rw [hs']
      · rw [hs']
      · rw [hs']
      · exact asks_update _ hrefreshes

/-- A request that is over leaves the maps. -/
lemma Spaced.leave {s s' : System} {n : Requests} {call : ℕ} {apiKey : String}
    (h : ∀ key, Spaced s n key) (hasked : s.asks call = some apiKey)
    (hclock : s'.clock = s.clock) (hcache : s'.creditUsageCache = s.creditUsageCache)
    (hinFlight : s'.creditUsageInFlight = Function.update s.creditUsageInFlight apiKey none)
    (hasks : s'.asks = Function.update s.asks call none) (key : String) : Spaced s' n key where
  single other := by
    rw [hinFlight, hasks]
    have hsingle := (h key).single other
    by_cases hkey : key = apiKey <;> by_cases hother : other = call
    · simp [hkey, hother]
    · -- the request in flight was this one
      have hcall : s.creditUsageInFlight key = some call :=
        ((h key).single call).mpr (hkey ▸ hasked)
      rw [hkey, Function.update_self, Function.update_of_ne hother, ← hkey, ← hsingle, hcall]
      exact iff_of_false nofun fun heq => hother (Option.some.inj heq).symm
    · -- this one asked about no other key
      rw [hother, hasked] at hsingle
      rw [hother, Function.update_of_ne hkey, Function.update_self, hsingle]
      exact iff_of_false (fun heq => hkey (Option.some.inj heq).symm) nofun
    · rw [Function.update_of_ne hkey, Function.update_of_ne hother]
      exact hsingle
  started other hother := by
    rw [hasks] at hother
    by_cases heq : other = call
    · rw [heq, Function.update_self] at hother
      cases hother
    · rw [Function.update_of_ne heq] at hother
      rw [hclock]
      exact (h key).started other hother
  ended a ha := by
    rw [hclock]
    exact (h key).ended a ha
  distance := (h key).distance
  cached := by
    rw [hcache, hclock]
    exact (h key).cached

/-- The answer to a request that is over is cached. -/
lemma Spaced.remember {s : System} {n : Requests} {apiKey : String} (h : ∀ key, Spaced s n key)
    (hnone : s.creditUsageInFlight apiKey = none) {started : ℕ} (hstarted : started ≤ s.clock)
    (hbefore : ∀ a ∈ n.answered apiKey, a.ended + 30000 ≤ started) (details : CreditUsageDetails)
    (key : String) :
    Spaced
      { s with
        creditUsageCache := Function.update s.creditUsageCache apiKey
          (some (details, s.clock + creditUsageCacheTtlMs)) }
      { n with
        answered := Function.update n.answered apiKey
          (⟨details, started, s.clock⟩ :: n.answered apiKey) } key := by
  by_cases hkey : key = apiKey
  · subst hkey
    have hanswered : Function.update n.answered key (⟨details, started, s.clock⟩ :: n.answered key)
        key = ⟨details, started, s.clock⟩ :: n.answered key := Function.update_self ..
    have hnobody : ∀ call, s.asks call ≠ some key := by
      intro call hcall
      have hinFlight := ((h key).single call).mpr hcall
      rw [hnone] at hinFlight
      cases hinFlight
    constructor
    · exact (h key).single
    · intro call hcall
      exact absurd hcall (hnobody call)
    · intro a ha
      dsimp only at ha
      rw [hanswered] at ha
      rcases List.mem_cons.mp ha with rfl | ha
      · exact ⟨hstarted, le_rfl⟩
      · exact (h key).ended a ha
    · dsimp only
      rw [hanswered]
      exact List.pairwise_cons.mpr ⟨hbefore, (h key).distance⟩
    · left
      dsimp only
      rw [hanswered, Function.update_self]
      rfl
  · have hsame : Function.update n.answered apiKey (⟨details, started, s.clock⟩ ::
        n.answered apiKey) key = n.answered key := Function.update_of_ne hkey ..
    constructor
    · exact (h key).single
    all_goals
      dsimp only
      rw [hsame]
    · exact (h key).started
    · exact (h key).ended
    · exact (h key).distance
    · rw [Function.update_of_ne hkey]
      exact (h key).cached

/-- A call makes a request exactly where it is not served otherwise. -/
lemma asks_startRefresh_iff {s : System} {n : Requests} {apiKey : String} (h : Spaced s n apiKey)
    {call : ℕ} (hcall : s.asks call = none) (keyId : String) :
    (startRefresh s call apiKey keyId).asks call = some apiKey ↔
      (∀ other, s.asks other ≠ some apiKey) ∧ n.Old s apiKey := by
  unfold startRefresh
  dsimp only
  split_ifs with hfresh hinFlight
  · rw [hcall]
    exact iff_of_false nofun fun hserved => h.fresh_iff.mp hfresh hserved.2
  · show s.asks call = some apiKey ↔ _
    obtain ⟨other, hother⟩ := Option.isSome_iff_exists.mp hinFlight
    rw [hcall]
    exact iff_of_false nofun fun hserved => hserved.1 other ((h.single other).mp hother)
  · apply iff_of_true
    · unfold System.asks send CloudKeys.setRefresh
      dsimp only
      rw [Function.update_self]
      rfl
    · constructor
      · intro other hother
        have hbusy := (h.single other).mpr hother
        rw [hbusy] at hinFlight
        exact hinFlight rfl
      · by_contra hnot
        exact hfresh (h.fresh_iff.mpr hnot)

/-- A request is over: it was the one in flight, and began after the answers before it were old. -/
lemma Spaced.endRefresh {s : System} {n : Requests} (h : ∀ key, Spaced s n key) {call : ℕ}
    {apiKey : String} {details : CreditUsageDetails}
    (hcall : s.refreshes call = some ⟨apiKey, .finished details⟩) (key : String) :
    Spaced (CloudKeys.endRefresh s call apiKey details) (n.onEnd s.clock call apiKey details)
      key := by
  have hasked : s.asks call = some apiKey := asks_of_refreshes hcall
  have hinFlight : s.creditUsageInFlight apiKey = some call := ((h apiKey).single call).mpr hasked
  obtain ⟨hle, hbefore⟩ := (h apiKey).started call hasked
  have hleave : ∀ key, Spaced
      { s with
        refreshes := Function.update s.refreshes call none
        creditUsageInFlight := Function.update s.creditUsageInFlight apiKey none } n key := by
    exact Spaced.leave h hasked rfl rfl rfl (asks_update none rfl)
  unfold CloudKeys.endRefresh Requests.onEnd
  dsimp only
  split_ifs
  · exact hleave key
  · exact Spaced.remember hleave (Function.update_self ..) hle hbefore details key

/-! ## Runs -/

/-- What an onlooker of an instance, over a Redis with some pools, has written down. -/
def Noted (c : Config) (redis : CreditLedger.Store String String) (es : List Event) (s : System)
    (n : Requests) : Prop :=
  run (watched (step c) Requests.note) ({ redis := redis }, {}) es = some (s, n)

lemma spaced_step {s s' : System} {n : Requests} {e : Event} (h : ∀ key, Spaced s n key)
    (hstep : step c s e = some s') (key : String) : Spaced s' (n.note s e s') key := by
  cases e with
  | refresh call apiKey =>
    simp only [step] at hstep
    split_ifs at hstep with hcall
    cases hstep
    exact Spaced.startRefresh h (not_not.mp hcall) apiKey _ key
  | refreshed call =>
    simp only [step] at hstep
    split at hstep
    · rename_i apiKey details hcall
      cases hstep
      rw [n.note_refreshed _ hcall]
      exact Spaced.endRefresh h hcall key
    · cases hstep
  | _ =>
    refine (h key).quiet (quiet_of_step hstep ?_ ?_)
    · intro call apiKey heq
      cases heq
    · intro call heq
      cases heq

lemma Noted.spaced {redis : CreditLedger.Store String String} {es : List Event} {s : System}
    {n : Requests} (h : Noted c redis es s n) : ∀ key, Spaced s n key := by
  refine run_invariant (I := fun w => ∀ key, Spaced w.1 w.2 key) (fun w e w' hw hstep => ?_)
    (spaced_init redis) h
  obtain ⟨hstep, hnote⟩ := watched_eq_some.mp hstep
  rw [hnote]
  exact spaced_step hw hstep

/-- Answers that keep their distance are few. -/
lemma length_le_of_distance {answers : List Answered} {clock : ℕ}
    (hended : ∀ a ∈ answers, a.started ≤ a.ended ∧ a.ended ≤ clock)
    (hdistance : answers.Pairwise fun newer older => older.ended + 30000 ≤ newer.started) :
    answers.length ≤ clock / 30000 + 1 := by
  induction answers generalizing clock with
  | nil => exact Nat.zero_le _
  | cons newest older ih =>
    obtain ⟨hnewest, holder⟩ := List.forall_mem_cons.mp hended
    obtain ⟨hbefore, hdistance⟩ := List.pairwise_cons.mp hdistance
    rw [List.length_cons]
    cases hempty : older with
    | nil => exact Nat.le_add_left _ _
    | cons second rest =>
      have hsecond := hbefore second (hempty ▸ List.mem_cons_self ..)
      -- all others ended thirty seconds ago
      have hlength : older.length ≤ (clock - 30000) / 30000 + 1 := by
        apply ih _ hdistance
        intro a ha
        have hlater := hbefore a ha
        exact ⟨(holder a ha).1, by omega⟩
      rw [← hempty]
      omega

/-- **Cloud is asked once**: requests for the balance of an API key never overlap, a call makes one
exactly where none is under way and the answers are thirty seconds old, and so the requests that
Cloud answered lie thirty seconds apart. -/
theorem balance_asked_once {redis : CreditLedger.Store String String} {es : List Event}
    {s : System} {n : Requests} (h : Noted c redis es s n) (apiKey : String) :
    (∀ call call', s.asks call = some apiKey → s.asks call' = some apiKey → call = call') ∧
    (∀ call s', step c s (.refresh call apiKey) = some s' →
      (s'.asks call = some apiKey ↔
        (∀ other, s.asks other ≠ some apiKey) ∧
          ∀ a ∈ n.answered apiKey, a.ended + 30000 ≤ s.clock)) ∧
    (n.answered apiKey).Pairwise (fun newer older => older.ended + 30000 ≤ newer.started) ∧
    (n.answered apiKey).length ≤ s.clock / 30000 + 1 := by
  have hspaced := h.spaced apiKey
  refine ⟨?_, ?_, hspaced.distance, length_le_of_distance hspaced.ended hspaced.distance⟩
  · intro call call' hcall hcall'
    have hinFlight := (hspaced.single call).mpr hcall
    have hinFlight' := (hspaced.single call').mpr hcall'
    exact Option.some.inj (hinFlight.symm.trans hinFlight')
  · intro call s' hstep
    simp only [step] at hstep
    split_ifs at hstep with hcall
    have hnone : s.asks call = none := asks_of_refreshes (not_not.mp hcall)
    obtain rfl := (Option.some.inj hstep).symm
    exact asks_startRefresh_iff hspaced hnone _

/-- A balance is asked for and answered; the next call is served, and the one after thirty seconds
asks again and is answered, too. -/
def askedTwice : List Event :=
  [.refresh 0 "k", .captured 0 false, .balance 0 { remainingCredits := some 5 }, .refreshed 0,
    .tick 29999, .refresh 1 "k", .tick 1, .refresh 2 "k", .captured 2 false, .tick 40,
    .balance 2 { remainingCredits := some 4 }, .refreshed 2]

theorem balance_asked_once_twice : ∃ (s : System) (n : Requests),
    Noted sampleConfig emptyRedis askedTwice s n ∧
    (n.answered "k").map (fun a => (a.started, a.ended)) = [(30000, 30040), (0, 0)] ∧
    (n.answered "k").Pairwise (fun newer older => older.ended + 30000 ≤ newer.started) := by
  have hrun : ∃ s n, Noted sampleConfig emptyRedis askedTwice s n ∧
      (n.answered "k").map (fun a => (a.started, a.ended)) = [(30000, 30040), (0, 0)] :=
    ⟨_, _, rfl, rfl⟩
  obtain ⟨s, n, hnoted, hanswered⟩ := hrun
  exact ⟨s, n, hnoted, hanswered, (balance_asked_once hnoted "k").2.2.1⟩

end CloudKeys
end FirecrawlGateway
