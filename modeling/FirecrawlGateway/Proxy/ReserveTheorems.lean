import FirecrawlGateway.Proxy.RoutingTheorems
import FirecrawlGateway.Proxy.RunInvariants

/-!
# The reserve of a Cloud-required request

A hybrid request that requires Cloud cannot go to self-hosted, so the fallback keys are its only
way on. Whether they take over is read off the last answer of the cloud-role keys, and with it
depends on the order in which the keys were tried. No privacy rule is asked.
-/

namespace FirecrawlGateway
namespace Proxy

open GuardedLog
open CreditRouting (CreditReservation Surroundings reserve reserve_mem)

variable {env : Environment} {req : Request}

/-! ## Runs that use the reserve -/

/-- The request is answered after an upstream call with a fallback key that took over. -/
def TriesReserve (env : Environment) (req : Request) : Prop :=
  ∃ fuel log answer, handle env fuel req = some (log, answer) ∧ ∃ a ∈ log, a.fromReserve = true

/-- Fuel that suffices does not change the answer. -/
lemma handle_unique {fuel fuel' : ℕ} {r r' : List Attempt × Except EarlyRejection Outcome}
    (h : handle env fuel req = some r) (h' : handle env fuel' req = some r') : r = r' := by
  have hmax := handle_mono (Nat.le_max_left fuel fuel') h
  have hmax' := handle_mono (Nat.le_max_right fuel fuel') h'
  rw [hmax] at hmax'
  exact Option.some.inj hmax'

lemma triesReserve_iff {fuel : ℕ} {log : List Attempt} {answer : Except EarlyRejection Outcome}
    (h : handle env fuel req = some (log, answer)) :
    TriesReserve env req ↔ ∃ a ∈ log, a.fromReserve = true := by
  constructor
  · intro ⟨fuel', log', answer', h', htries⟩
    cases handle_unique h h'
    exact htries
  · intro htries
    exact ⟨fuel, log, answer, h, htries⟩

/-! ## The plan -/

lemma keyPools_of_roles (hmode : req.routeMode = .hybrid)
    (hroles : keysWithRole req.entries .cloud ≠ []) :
    keyPools req =
      ⟨.cloud, keysWithRole req.entries .cloud, keysWithRole req.entries .fallback⟩ := by
  rcases keyPools_hybrid hmode with ⟨-, hpools⟩ | ⟨hnone, -⟩
  · exact hpools
  · exact absurd hnone hroles

/-- With a cloud-role key, hybrid starts on Cloud. -/
lemma buildPlan_of_roles (hmode : req.routeMode = .hybrid)
    (hroles : keysWithRole req.entries .cloud ≠ []) :
    buildPlan req = .ok (startPlan req .cloud) := by
  rw [buildPlan, keyPools_of_roles hmode hroles]
  dsimp only
  rw [if_neg hroles]

/-! ## What `proxyCloud` does -/

lemma proxyCloud_of_reserved (env : Environment) (run : Run) {reservation : CreditReservation}
    (h : (reserve env.keyId (env.credits run.calls) run.plan.cloudApiKeys run.plan.estimatedCredits
      run.plan.attemptedCloudKeyIds).2 = some reservation) :
    proxyCloud env run =
      (run.calledCloud reservation (proxyToBackend .cloud (env.cloud run.calls)),
        some ⟨proxyToBackend .cloud (env.cloud run.calls), reservation⟩) := by
  unfold proxyCloud
  dsimp only
  rw [h]
  rfl

lemma proxyCloud_of_not_reserved (env : Environment) (run : Run)
    (h : (reserve env.keyId (env.credits run.calls) run.plan.cloudApiKeys run.plan.estimatedCredits
      run.plan.attemptedCloudKeyIds).2 = none) :
    proxyCloud env run = (run.noReservation, none) := by
  unfold proxyCloud
  dsimp only
  rw [h]
  rfl

/-! ## Keys handed out in an order -/

/-- The HTTP status Cloud answers each cloud-role key with, and the fallback key that `reserve`
hands out after them, if any. -/
structure KeyAnswers (req : Request) where
  status : String → ℕ
  retryable : ∀ key ∈ keysWithRole req.entries .cloud, status key ∈ retryableCloudStatus
  reserveKey : Option String
  reserveKey_mem : ∀ key ∈ reserveKey,
    key ∈ keysWithRole req.entries .fallback ∧ key ∉ keysWithRole req.entries .cloud

/-- `reserve` hands out the cloud-role keys in this order, and Cloud answers each as said. -/
structure HandsOut (env : Environment) (req : Request) (answers : KeyAnswers req)
    (order : List String) : Prop where
  keys : ∀ key, key ∈ order ↔ key ∈ keysWithRole req.entries .cloud
  uncached : env.cached = none
  reserved : ∀ pre key post, order = pre ++ key :: post →
    (reserve env.keyId (env.credits pre.length) (keysWithRole req.entries .cloud)
      req.estimatedCredits (pre.map env.keyId).toFinset).2.map (·.key) = some key
  answered : ∀ pre key post, order = pre ++ key :: post →
    ∃ body, env.cloud pre.length = .response (answers.status key) body
  afterwards :
    (reserve env.keyId (env.credits (order.length + 1)) (keysWithRole req.entries .fallback)
      req.estimatedCredits (order.map env.keyId).toFinset).2.map (·.key) = answers.reserveKey

/-- The run after the keys `tried` were handed out. -/
structure Tried (env : Environment) (req : Request) (tried : List String) (run : Run) : Prop where
  needsCloud : run.plan.needsCloud = req.needsCloud
  cloudApiKeys : run.plan.cloudApiKeys = keysWithRole req.entries .cloud
  fallbackApiKeys : run.plan.fallbackApiKeys = keysWithRole req.entries .fallback
  estimatedCredits : run.plan.estimatedCredits = req.estimatedCredits
  attempted : run.plan.attemptedCloudKeyIds = (tried.map env.keyId).toFinset
  calls : run.calls = tried.length
  first : run.reserveTaken = false ∧ ∀ a ∈ run.log, a.fromReserve = false

variable {answers : KeyAnswers req} {order : List String}

/-- The result is Cloud's answer to the last key that was tried. -/
structure LastAnswer (answers : KeyAnswers req) (tried : List String) (result : ProxyResult) :
    Prop where
  backend : result.backend = .cloud
  status : responseStatus result = tried.getLast?.map answers.status

/-- The next key of the order. -/
lemma HandsOut.next (h : HandsOut env req answers order) {pre post : List String} {key : String}
    (horder : order = pre ++ key :: post) {run : Run} (hrun : Tried env req pre run) :
    ∃ run' reservation result, proxyCloud env run = (run', some ⟨result, reservation⟩) ∧
      Tried env req (pre ++ [key]) run' ∧ LastAnswer answers (pre ++ [key]) result := by
  obtain ⟨reservation, hreserve, hkey⟩ := Option.map_eq_some_iff.mp (h.reserved pre key post horder)
  obtain ⟨body, hbody⟩ := h.answered pre key post horder
  obtain ⟨-, hid, -⟩ := reserve_mem hreserve
  rw [← hrun.calls, ← hrun.cloudApiKeys, ← hrun.estimatedCredits, ← hrun.attempted] at hreserve
  have hcall := proxyCloud_of_reserved env run hreserve
  refine ⟨_, _, _, hcall, ?_, ?_⟩
  · exact
      { needsCloud := hrun.needsCloud
        cloudApiKeys := hrun.cloudApiKeys
        fallbackApiKeys := hrun.fallbackApiKeys
        estimatedCredits := hrun.estimatedCredits
        attempted := by
          show insert reservation.keyId run.plan.attemptedCloudKeyIds = _
          rw [hrun.attempted, hid, hkey]
          ext id
          simp [eq_comm]
        calls := by
          show run.calls + 1 = _
          rw [hrun.calls, List.length_append, List.length_singleton]
        first := by
          refine ⟨hrun.first.1, fun a ha => ?_⟩
          rcases List.mem_append.mp ha with ha | ha
          · exact hrun.first.2 a ha
          · rw [List.mem_singleton.mp ha]
            exact hrun.first.1 }
  · rw [hrun.calls, hbody]
    exact ⟨rfl, by rw [List.getLast?_concat]; rfl⟩

/-- After the last key of the order there is none. -/
lemma HandsOut.exhausted (h : HandsOut env req answers order) {run : Run}
    (hrun : Tried env req order run) : proxyCloud env run = (run.noReservation, none) := by
  apply proxyCloud_of_not_reserved env
  rw [Option.eq_none_iff_forall_not_mem]
  intro reservation hreserve
  obtain ⟨hkey, hid, hfresh⟩ := reserve_mem hreserve
  rw [hrun.cloudApiKeys] at hkey
  rw [hrun.attempted, hid] at hfresh
  apply hfresh
  rw [List.mem_toFinset]
  exact List.mem_map_of_mem ((h.keys _).mpr hkey)

/-- An answer that `rotateCloudKeys` does not stop at. -/
lemma HandsOut.retryable (h : HandsOut env req answers order) {pre post : List String}
    {key : String} (horder : order = pre ++ key :: post) :
    answers.status key ∈ retryableCloudStatus := by
  apply answers.retryable
  rw [← h.keys, horder]
  exact List.mem_append_right _ List.mem_cons_self

/-- The loop goes through the rest of the order, and ends with the answer to its last key. -/
lemma HandsOut.rotateLoop (h : HandsOut env req answers order) {pre post : List String}
    (horder : order = pre ++ post) {run : Run} (hrun : Tried env req pre run) {outcome : Outcome}
    (hlast : LastAnswer answers pre outcome.result) {firstStatus fuel attempts quotaAttempts : ℕ}
    (hfuel : post.length < fuel) :
    ∃ run' outcome' outOfQuota,
      rotateLoop env firstStatus fuel run outcome attempts quotaAttempts =
        some (run'.noReservation, outcome', outOfQuota) ∧
      Tried env req order run' ∧ LastAnswer answers order outcome'.result := by
  induction post generalizing pre run outcome fuel attempts quotaAttempts with
  | nil =>
    obtain ⟨fuel, rfl⟩ := Nat.exists_eq_succ_of_ne_zero (Nat.ne_zero_of_lt hfuel)
    rw [List.append_nil] at horder
    rw [← horder] at hrun hlast
    refine ⟨run, outcome, decide (quotaAttempts = attempts), ?_, hrun, hlast⟩
    rw [Proxy.rotateLoop, h.exhausted hrun]
  | cons key post ih =>
    obtain ⟨fuel, rfl⟩ := Nat.exists_eq_succ_of_ne_zero (Nat.ne_zero_of_lt hfuel)
    obtain ⟨run', reservation, result, hcall, hrun', hlast'⟩ := h.next horder hrun
    have hstatus : responseStatus result = some (answers.status key) := by
      rw [hlast'.status, List.getLast?_concat]
      rfl
    have hretry : ¬answers.status key ∉ retryableCloudStatus := not_not.mpr (h.retryable horder)
    rw [Proxy.rotateLoop, hcall]
    dsimp only
    rw [hstatus]
    dsimp only
    rw [if_neg hretry]
    have horder' : order = (pre ++ [key]) ++ post := by
      rw [horder, List.append_assoc]
      rfl
    have hfuel' : post.length < fuel := by
      rw [List.length_cons] at hfuel
      omega
    exact ih horder' hrun' hlast' hfuel'

/-- A Cloud-required request never falls back to self-hosted. -/
lemma fallBackToSelfHosted_of_required {run : Run} {outcome : Outcome} {routeMode : RouteMode}
    (h : run.plan.needsCloud.required = true) :
    fallBackToSelfHosted env routeMode run outcome = (run, outcome) := by
  unfold fallBackToSelfHosted
  rw [if_pos]
  simp [isCloudQuotaFallbackAllowed, h]

/-- How the request is answered once the order has been gone through. -/
lemma HandsOut.handle_eq (h : HandsOut env req answers order) (hmode : req.routeMode = .hybrid)
    (hrequired : req.needsCloud.required = true)
    (hroles : keysWithRole req.entries .cloud ≠ []) {fuel : ℕ} (hfuel : order.length < fuel) :
    ∃ run outcome, Tried env req order run ∧ LastAnswer answers order outcome.result ∧
      handle env fuel req =
        let after := fallBackToFallbackKeys env .hybrid run.noReservation outcome
        if after.2.2 then
          (rotateCloudKeys env fuel after.1 after.2.1).map fun r => (r.1.log, .ok r.2.1)
        else some (after.1.log, .ok after.2.1) := by
  have hplan := buildPlan_of_roles hmode hroles
  have hpools := keyPools_of_roles hmode hroles
  have hstart : Tried env req [] { plan := startPlan req .cloud } :=
    { needsCloud := rfl
      cloudApiKeys := by rw [startPlan, hpools]
      fallbackApiKeys := by rw [startPlan, hpools]
      estimatedCredits := rfl
      attempted := rfl
      calls := rfl
      first := ⟨rfl, fun a ha => absurd ha List.not_mem_nil⟩ }
  -- the first key of the order is the first attempt
  obtain ⟨first, rest, horder⟩ : ∃ first rest, order = first :: rest := by
    apply List.exists_cons_of_ne_nil
    intro hnil
    obtain ⟨key, hkey⟩ := List.exists_mem_of_ne_nil _ hroles
    rw [← h.keys, hnil] at hkey
    exact absurd hkey List.not_mem_nil
  have horder₀ : order = [] ++ first :: rest := horder
  obtain ⟨run, reservation, result, hcall, hrun, hlast⟩ := h.next horder₀ hstart
  have hdispatch : dispatch env req.routeMode { plan := startPlan req .cloud } =
      (run, .ok { result := result }) := by
    show dispatchCloud env req.routeMode { plan := startPlan req .cloud } = _
    rw [dispatchCloud, hcall]
  have hfuel' : rest.length < fuel := by
    rw [horder, List.length_cons] at hfuel
    omega
  have hstatus : cloudStatus result = some (answers.status first) := by
    rw [cloudStatus_of_cloud hlast.backend, hlast.status]
    rfl
  have hretry : ¬answers.status first ∉ retryableCloudStatus :=
    not_not.mpr (h.retryable horder₀)
  have horder₁ : order = [first] ++ rest := horder
  have hanswer : LastAnswer answers [first] ({ result := result } : Outcome).result := hlast
  obtain ⟨rotated, outcome, outOfQuota, hloop, hrotated, hlast⟩ :
      ∃ rotated outcome outOfQuota,
        Proxy.rotateLoop env (answers.status first) fuel run { result := result } 1
          (if answers.status first ∈ cloudCapacityStatus then 1 else 0) =
          some (rotated.noReservation, outcome, outOfQuota) ∧
        Tried env req order rotated ∧ LastAnswer answers order outcome.result :=
    h.rotateLoop horder₁ hrun hanswer hfuel'
  have hrotate : rotateCloudKeys env fuel run { result := result } =
      some (rotated.noReservation, outcome, outOfQuota) := by
    rw [rotateCloudKeys, hstatus]
    dsimp only
    rw [if_neg hretry, hloop]
  -- a request that needs Cloud does not turn to self-hosted
  have hstay : fallBackToSelfHosted env .hybrid rotated.noReservation outcome =
      (rotated.noReservation, outcome) := by
    apply fallBackToSelfHosted_of_required
    rw [← hrequired, ← hrotated.needsCloud]
    rfl
  refine ⟨rotated, outcome, hrotated, hlast, ?_⟩
  -- the stages of `handle` up to the fallback keys
  rw [handle, hplan]
  dsimp only
  rw [handlePlan, h.uncached]
  dsimp only
  rw [hdispatch]
  dsimp only
  rw [fallBack, hmode, hrotate]
  dsimp only [Option.bind_eq_bind, Option.bind_some]
  rw [hstay, ite_self]
  split_ifs
  · rw [Option.map_map, Option.map_bind]
    cases rotateCloudKeys env fuel _ _ <;> rfl
  · rfl

/-! ## The last answer decides -/

/-- The last key of the order is answered with a quota error. -/
def LastOutOfQuota (answers : KeyAnswers req) (order : List String) : Prop :=
  ∃ last ∈ order.getLast?, answers.status last ∈ cloudCapacityStatus

lemma LastAnswer.outOfCapacity_iff {result : ProxyResult} (h : LastAnswer answers order result) :
    outOfCapacity result = true ↔ LastOutOfQuota answers order := by
  unfold outOfCapacity LastOutOfQuota
  rw [cloudStatus_of_cloud h.backend, h.status]
  cases order.getLast? <;> simp

/-- Once the fallback keys took over, a key is there where the answers have one. -/
lemma HandsOut.proxyCloud_reserve (h : HandsOut env req answers order) {run : Run}
    (hrun : Tried env req order run) (hleft : run.plan.fallbackApiKeys ≠ []) :
    let taken := (takeFallbackKeys run.noReservation).1
    (answers.reserveKey = none ∧ proxyCloud env taken = (taken.noReservation, none)) ∨
    (answers.reserveKey ≠ none ∧ taken.reserveTaken = true ∧ ∃ reservation result,
      proxyCloud env taken = (taken.calledCloud reservation result, some ⟨result, reservation⟩)) := by
  have htake : (takeFallbackKeys run.noReservation).1 =
      { run.noReservation with
        plan := { run.plan with
          cloudApiKeys := run.plan.fallbackApiKeys
          fallbackApiKeys := [] }
        reserveTaken := true } := by
    have hleft' : run.noReservation.plan.fallbackApiKeys ≠ [] := hleft
    rw [takeFallbackKeys, if_neg hleft']
    rfl
  have hafter := h.afterwards
  rw [← hrun.fallbackApiKeys, ← hrun.estimatedCredits, ← hrun.attempted, ← hrun.calls] at hafter
  dsimp only
  rw [htake]
  cases hreserve : answers.reserveKey with
  | none =>
    rw [hreserve, Option.map_eq_none_iff] at hafter
    exact Or.inl ⟨rfl, proxyCloud_of_not_reserved env _ hafter⟩
  | some key =>
    rw [hreserve] at hafter
    obtain ⟨reservation, hmem, -⟩ := Option.map_eq_some_iff.mp hafter
    exact Or.inr ⟨Option.some_ne_none key, rfl, reservation, _, proxyCloud_of_reserved env _ hmem⟩

/-- Whether the fallback keys replace the outcome, and what the log then says. -/
lemma HandsOut.fallBackToFallbackKeys (h : HandsOut env req answers order)
    (hrequired : req.needsCloud.required = true) {run : Run} (hrun : Tried env req order run)
    {outcome : Outcome} (hlast : LastAnswer answers order outcome.result) :
    let after := fallBackToFallbackKeys env .hybrid run.noReservation outcome
    (answers.reserveKey ≠ none ∧ LastOutOfQuota answers order →
      ∃ a ∈ after.1.log, a.fromReserve = true) ∧
    (¬(answers.reserveKey ≠ none ∧ LastOutOfQuota answers order) →
      after.2.2 = false ∧ ∀ a ∈ after.1.log, a.fromReserve = false) := by
  have hplan : run.noReservation.plan = run.plan := rfl
  have hself : selfHostedFailed .hybrid run.plan outcome.result = false := by
    rw [selfHostedFailed, hlast.backend]
    rfl
  have hquota : cloudOutOfQuota run.plan outcome.result = true ↔ LastOutOfQuota answers order := by
    rw [cloudOutOfQuota, hrun.needsCloud, hrequired, Bool.true_and]
    exact hlast.outOfCapacity_iff
  have hquiet : ∀ a ∈ run.noReservation.log, a.fromReserve = false := by
    intro a ha
    rcases List.mem_append.mp ha with ha | ha
    · exact hrun.first.2 a ha
    · rw [List.mem_singleton.mp ha]
      rfl
  unfold Proxy.fallBackToFallbackKeys
  dsimp only
  rw [hplan, hself, Bool.not_false, Bool.and_true]
  by_cases hnone : run.plan.fallbackApiKeys = []
  · -- there is no fallback key to hand out
    have hreserve : answers.reserveKey = none := by
      rw [Option.eq_none_iff_forall_not_mem]
      intro key hkey
      have hmem := (answers.reserveKey_mem key hkey).1
      rw [← hrun.fallbackApiKeys, hnone] at hmem
      exact absurd hmem List.not_mem_nil
    rw [if_pos (Or.inl hnone)]
    exact ⟨fun hboth => absurd hreserve hboth.1, fun _ => ⟨rfl, hquiet⟩⟩
  by_cases hout : LastOutOfQuota answers order
  · have hlog := takeFallbackKeys_log run.noReservation
    rw [if_neg (by simp [hnone, hquota.mpr hout])]
    -- the last answer opens the reserve, which has a key or not
    rcases h.proxyCloud_reserve hrun hnone with
      ⟨hreserve, hcall⟩ | ⟨hreserve, htaken, reservation, result, hcall⟩
    · rw [hcall]
      refine ⟨fun hboth => absurd hreserve hboth.1, fun _ => ⟨rfl, fun a ha => ?_⟩⟩
      rcases List.mem_append.mp ha with ha | ha
      · rw [hlog] at ha
        exact hquiet a ha
      · rw [List.mem_singleton.mp ha]
        rfl
    · rw [hcall]
      refine ⟨fun _ => ⟨_, List.mem_append_right _ (List.mem_singleton_self _), htaken⟩, ?_⟩
      exact fun hneither => absurd ⟨hreserve, hout⟩ hneither
  · rw [if_pos (Or.inr (by simp [mt hquota.mp hout]))]
    exact ⟨fun hboth => absurd hboth.2 hout, fun _ => ⟨rfl, hquiet⟩⟩

/-- The reserve is tried exactly where the last key of the order is out of quota. -/
lemma HandsOut.triesReserve_iff (h : HandsOut env req answers order)
    (hmode : req.routeMode = .hybrid) (hrequired : req.needsCloud.required = true)
    (hroles : keysWithRole req.entries .cloud ≠ []) :
    TriesReserve env req ↔ answers.reserveKey ≠ none ∧ LastOutOfQuota answers order := by
  have hlength : order.length < req.entries.length + order.length + 1 := by omega
  have hentries : req.entries.length < req.entries.length + order.length + 1 := by omega
  obtain ⟨⟨log, answer⟩, hhandle⟩ := handle_terminates env hentries
  rw [Proxy.triesReserve_iff hhandle]
  obtain ⟨run, outcome, hrun, hlast, heq⟩ := h.handle_eq hmode hrequired hroles hlength
  obtain ⟨htries, hquiet⟩ := h.fallBackToFallbackKeys hrequired hrun hlast
  rw [hhandle] at heq
  dsimp only at heq
  generalize Proxy.fallBackToFallbackKeys env .hybrid run.noReservation outcome = after
    at htries hquiet heq
  by_cases hboth : answers.reserveKey ≠ none ∧ LastOutOfQuota answers order
  · obtain ⟨a, ha, hreserve⟩ := htries hboth
    refine iff_of_true ⟨a, ?_, hreserve⟩ hboth
    split_ifs at heq
    · obtain ⟨⟨last, final, quota⟩, hrotate, hlog⟩ := Option.map_eq_some_iff.mp heq.symm
      cases hlog
      exact (kept_log env after.1.log).rotateCloudKeys (List.Subset.refl _) hrotate ha
    · cases heq
      exact ha
  · obtain ⟨hstay, hquiet⟩ := hquiet hboth
    refine iff_of_false ?_ hboth
    rw [hstay] at heq
    cases heq
    simpa using hquiet

/-! ## An outside for every order -/

/-- A ledger that hands out one key. -/
def handingOut (key : Option String) : Surroundings where
  ledger keyIds _ :=
    match key with
    | some key => .reserved (keyIds.idxOf key) 0 ""
    | none => .noCapacity

/-- The keys of the order are handed out one by one, then a fallback key. -/
def environmentOf (answers : KeyAnswers req) (order : List String) : Environment where
  keyId := id
  credits call := handingOut ((order.map some ++ [none, answers.reserveKey])[call]?.getD none)
  cloud call := .response (answers.status (order.getD call "")) none
  selfHosted _ := none

/-- With fresh fields every key that was not excluded is a candidate. -/
lemma keyIds_candidates (pool : List String) (excluded : Finset String) :
    (CreditRouting.candidates id {} 0 pool excluded).map (·.keyId) = pool.filter (· ∉ excluded) := by
  unfold CreditRouting.candidates CreditRouting.Routing.usable
  induction pool with
  | nil => rfl
  | cons key pool ih => by_cases h : key ∈ excluded <;> simpa [h] using ih

lemma handingOut_reserve {key : String} {pool : List String} {excluded : Finset String}
    (hpool : key ∈ pool) (hfresh : key ∉ excluded) (amount : ℚ) :
    (reserve id (handingOut (some key)) pool amount excluded).2.map (·.key) = some key := by
  have hmem : key ∈ (CreditRouting.candidates id {} 0 pool excluded).map (·.keyId) := by
    rw [keyIds_candidates]
    exact List.mem_filter.mpr ⟨hpool, by simpa using hfresh⟩
  have hlt := List.idxOf_lt_length_of_mem hmem
  have hid := List.getElem_idxOf hlt
  rw [List.length_map] at hlt
  rw [List.getElem_map] at hid
  have hsame := (CreditRouting.mem_candidates (List.getElem_mem hlt)).2.1
  unfold reserve handingOut
  dsimp only
  rw [if_neg (fun hnil => by simp [hnil] at hmem), if_pos (le_refl 0), List.getElem?_eq_getElem hlt]
  exact congrArg some (hsame.symm.trans hid)

lemma handingOut_none (pool : List String) (excluded : Finset String) (amount : ℚ) :
    (reserve id (handingOut none) pool amount excluded).2 = none := by
  unfold reserve handingOut
  dsimp only
  rw [if_pos (le_refl 0)]
  split_ifs <;> rfl

lemma environmentOf_handsOut (answers : KeyAnswers req) (order : List String)
    (hkeys : ∀ key, key ∈ order ↔ key ∈ keysWithRole req.entries .cloud) (hnodup : order.Nodup) :
    HandsOut (environmentOf answers order) req answers order where
  keys := hkeys
  uncached := rfl
  reserved pre key post horder := by
    have hcredits : (environmentOf answers order).credits pre.length = handingOut (some key) := by
      simp [environmentOf, horder]
    have hpool : key ∈ keysWithRole req.entries .cloud := by
      rw [← hkeys, horder]
      exact List.mem_append_right _ List.mem_cons_self
    have hfresh : key ∉ (pre.map id).toFinset := by
      rw [horder] at hnodup
      rw [List.map_id, List.mem_toFinset]
      intro hpre
      exact (List.nodup_append.mp hnodup).2.2 key hpre key List.mem_cons_self rfl
    rw [hcredits]
    exact handingOut_reserve hpool hfresh _
  answered pre key post horder := ⟨none, by simp [environmentOf, horder]⟩
  afterwards := by
    have hcredits : (environmentOf answers order).credits (order.length + 1) =
        handingOut answers.reserveKey := by
      simp [environmentOf]
    rw [hcredits]
    cases hreserve : answers.reserveKey with
    | none => exact congrArg _ (handingOut_none _ _ _)
    | some key =>
      obtain ⟨hpool, hother⟩ := answers.reserveKey_mem key hreserve
      apply handingOut_reserve hpool
      show key ∉ (order.map id).toFinset
      rwa [List.map_id, List.mem_toFinset, hkeys]

/-! ## The order of the keys -/

/-- Whether the reserve is tried does not depend on the order of the cloud-role keys. -/
def OrderIndependent (req : Request) (answers : KeyAnswers req) : Prop :=
  ∀ env₁ env₂ order₁ order₂, HandsOut env₁ req answers order₁ → HandsOut env₂ req answers order₂ →
    (TriesReserve env₁ req ↔ TriesReserve env₂ req)

/-- Every cloud-role key can be the last one. -/
lemma exists_handsOut_ending (answers : KeyAnswers req) {last : String}
    (hlast : last ∈ keysWithRole req.entries .cloud) :
    ∃ env order, HandsOut env req answers order ∧ order.getLast? = some last := by
  let order := (keysWithRole req.entries .cloud).dedup.erase last ++ [last]
  have hdedup := List.nodup_dedup (keysWithRole req.entries .cloud)
  refine ⟨_, order, environmentOf_handsOut answers order (fun key => ?_) ?_, List.getLast?_concat⟩
  · show key ∈ List.erase _ last ++ [last] ↔ _
    rw [List.mem_append, hdedup.mem_erase_iff, List.mem_dedup, List.mem_singleton]
    by_cases hkey : key = last
    · simp [hkey, hlast]
    · simp [hkey]
  · rw [List.nodup_append]
    refine ⟨hdedup.erase last, List.nodup_singleton last, fun key hkey other hother heq => ?_⟩
    rw [heq, List.mem_singleton.mp hother] at hkey
    exact hdedup.not_mem_erase hkey

/-- The order of the keys does not matter exactly where there is no reserve, or all keys answer
alike: each out of quota, or none. -/
theorem orderIndependent_iff (req : Request) (answers : KeyAnswers req)
    (hmode : req.routeMode = .hybrid) (hrequired : req.needsCloud.required = true)
    (hroles : keysWithRole req.entries .cloud ≠ []) :
    OrderIndependent req answers ↔
      answers.reserveKey = none ∨
      (∀ key ∈ keysWithRole req.entries .cloud, answers.status key ∈ cloudCapacityStatus) ∨
      (∀ key ∈ keysWithRole req.entries .cloud, answers.status key ∉ cloudCapacityStatus) := by
  constructor
  · intro hindependent
    by_contra hmixed
    push Not at hmixed
    obtain ⟨hreserve, ⟨stays, hstays, hauth⟩, ⟨goes, hgoes, hquota⟩⟩ := hmixed
    obtain ⟨env₁, order₁, h₁, hlast₁⟩ := exists_handsOut_ending answers hgoes
    obtain ⟨env₂, order₂, h₂, hlast₂⟩ := exists_handsOut_ending answers hstays
    have htries : TriesReserve env₁ req :=
      (h₁.triesReserve_iff hmode hrequired hroles).mpr ⟨hreserve, goes, hlast₁, hquota⟩
    rw [hindependent env₁ env₂ order₁ order₂ h₁ h₂,
      h₂.triesReserve_iff hmode hrequired hroles] at htries
    obtain ⟨-, last, hlast, hout⟩ := htries
    rw [hlast₂] at hlast
    cases hlast
    exact hauth hout
  · intro hsame env₁ env₂ order₁ order₂ h₁ h₂
    rw [h₁.triesReserve_iff hmode hrequired hroles, h₂.triesReserve_iff hmode hrequired hroles]
    apply and_congr_right
    intro hreserve
    have hlast : ∀ {env : Environment} {order : List String}, HandsOut env req answers order →
        ∃ last ∈ order.getLast?, last ∈ keysWithRole req.entries .cloud := by
      intro env order h
      obtain ⟨key, hkey⟩ := List.exists_mem_of_ne_nil _ hroles
      have hne := List.ne_nil_of_mem ((h.keys key).mpr hkey)
      exact ⟨order.getLast hne, List.getLast?_eq_some_getLast hne,
        (h.keys _).mp (List.getLast_mem hne)⟩
    rcases hsame with hnone | hall | hall
    · exact absurd hnone hreserve
    · have hout : ∀ {env : Environment} {order : List String}, HandsOut env req answers order →
          LastOutOfQuota answers order := by
        intro env order h
        obtain ⟨last, hmem, hkey⟩ := hlast h
        exact ⟨last, hmem, hall last hkey⟩
      exact iff_of_true (hout h₁) (hout h₂)
    · have hout : ∀ {env : Environment} {order : List String}, HandsOut env req answers order →
          ¬LastOutOfQuota answers order := by
        intro env order h ⟨last, hmem, hquota⟩
        exact hall last ((h.keys last).mp (List.mem_of_getLast? hmem)) hquota
      exact iff_of_false (hout h₁) (hout h₂)

/-- A request that needs Cloud, with two cloud-role keys and one fallback key. -/
def agentRequest : Request where
  routeMode := .hybrid
  needsCloud := ⟨true, "path requires a Firecrawl Cloud managed feature"⟩
  privacy := ⟨false, false⟩
  entries := [⟨"revoked", .cloud⟩, ⟨"spent", .cloud⟩, ⟨"reserve", .fallback⟩]
  estimatedCredits := 1

/-- Cloud refuses one key and finds the other out of credit. -/
def mixedAnswers : KeyAnswers agentRequest where
  status key := if key = "spent" then 402 else 401
  retryable := by decide
  reserveKey := some "reserve"
  reserveKey_mem := by decide

/-- With the refused key last, the reserve is not tried. -/
theorem mixedAnswers_not_orderIndependent : ¬OrderIndependent agentRequest mixedAnswers := by
  intro hindependent
  have h₁ := environmentOf_handsOut mixedAnswers ["revoked", "spent"]
    (by simp [agentRequest, keysWithRole]) (by decide)
  have h₂ := environmentOf_handsOut mixedAnswers ["spent", "revoked"]
    (by simp [agentRequest, keysWithRole, or_comm]) (by decide)
  have hsame := hindependent _ _ _ _ h₁ h₂
  rw [h₁.triesReserve_iff rfl rfl (by decide), h₂.triesReserve_iff rfl rfl (by decide)] at hsame
  obtain ⟨-, last, hlast, hquota⟩ := hsame.mp ⟨by decide, "spent", rfl, by decide⟩
  cases hlast
  exact absurd hquota (by decide)

theorem orderIndependent_iff_mixedAnswers :
    OrderIndependent agentRequest mixedAnswers ↔
      mixedAnswers.reserveKey = none ∨
      (∀ key ∈ keysWithRole agentRequest.entries .cloud,
        mixedAnswers.status key ∈ cloudCapacityStatus) ∨
      (∀ key ∈ keysWithRole agentRequest.entries .cloud,
        mixedAnswers.status key ∉ cloudCapacityStatus) :=
  orderIndependent_iff agentRequest mixedAnswers rfl rfl (by decide)

/-! ## Sensitive requests -/

/-- The first pool has no key to reserve, and this fallback key answers. -/
def onlyReserve (key : String) : Environment where
  keyId := id
  credits call := handingOut (if call = 0 then none else some key)
  cloud _ := .response 200 none
  selfHosted _ := none

/-- What Cloud answered well is the answer. -/
lemma fallBack_of_ok {run : Run} {outcome : Outcome} {routeMode : RouteMode} {fuel status : ℕ}
    (hstatus : cloudStatus outcome.result = some status) (hok : status ∉ retryableCloudStatus)
    (hleft : run.plan.fallbackApiKeys = []) :
    fallBack env fuel routeMode run outcome = some (run, outcome) := by
  have hrotate : rotateCloudKeys env fuel run outcome = some (run, outcome, false) := by
    rw [rotateCloudKeys, hstatus]
    dsimp only
    rw [if_pos hok]
  have hstay : fallBackToFallbackKeys env routeMode run outcome = (run, outcome, false) := by
    rw [fallBackToFallbackKeys, if_pos (Or.inl hleft)]
  rw [fallBack, hrotate]
  dsimp only [Option.bind_eq_bind, Option.bind_some]
  rw [if_neg Bool.false_ne_true, hstay]
  rfl

/-- A Cloud-required request whose first pool has no key left uses the reserve, if there is one. -/
lemma triesReserve_onlyReserve (hmode : req.routeMode = .hybrid)
    (hrequired : req.needsCloud.required = true)
    (hroles : keysWithRole req.entries .cloud ≠ []) {key : String}
    (hkey : key ∈ keysWithRole req.entries .fallback) : TriesReserve (onlyReserve key) req := by
  have hpools := keyPools_of_roles hmode hroles
  obtain ⟨reservation, hreserve, -⟩ := Option.map_eq_some_iff.mp
    (handingOut_reserve hkey (Finset.notMem_empty key) req.estimatedCredits)
  let start : Run := { plan := startPlan req .cloud }
  let taken : Run :=
    { start.noReservation with
      plan := { startPlan req .cloud with
        cloudApiKeys := keysWithRole req.entries .fallback
        fallbackApiKeys := [] }
      reserveTaken := true }
  let result := proxyToBackend .cloud (.response 200 none)
  let outcome : Outcome :=
    { result := result
      fallbackUsed := true
      fallbackReason := "No available Firecrawl Cloud credit pool; using fallback API key" }
  have hfirst : proxyCloud (onlyReserve key) start = (start.noReservation, none) :=
    proxyCloud_of_not_reserved (onlyReserve key) start (handingOut_none _ _ _)
  have htake : takeFallbackKeys start.noReservation = (taken, true) := by
    have hleft : (startPlan req .cloud).fallbackApiKeys = keysWithRole req.entries .fallback := by
      rw [startPlan, hpools]
    show (if (startPlan req .cloud).fallbackApiKeys = [] then _ else _) = _
    rw [hleft, if_neg (List.ne_nil_of_mem hkey)]
    show (({ start.noReservation with
      plan := { startPlan req .cloud with
        cloudApiKeys := (startPlan req .cloud).fallbackApiKeys
        fallbackApiKeys := [] }
      reserveTaken := true } : Run), true) = _
    rw [hleft]
  have hsecond := proxyCloud_of_reserved (onlyReserve key) taken hreserve
  have hdispatch : dispatch (onlyReserve key) .hybrid start =
      (taken.calledCloud reservation result, .ok outcome) := by
    show dispatchCloud (onlyReserve key) .hybrid start = _
    have hquota : isCloudQuotaFallbackAllowed .hybrid start.noReservation.plan.needsCloud = false := by
      show (_ && !req.needsCloud.required) = false
      rw [hrequired, Bool.not_true, Bool.and_false]
    rw [dispatchCloud, hfirst]
    dsimp only
    rw [hquota, Bool.not_false, if_pos rfl, dispatchReserve, htake]
    dsimp only
    rw [hsecond]
    rfl
  refine ⟨1, (taken.calledCloud reservation result).log, .ok outcome, ?_, _,
    List.mem_append_right _ (List.mem_singleton_self _), rfl⟩
  rw [handle, buildPlan_of_roles hmode hroles]
  dsimp only
  rw [handlePlan, hmode]
  dsimp only [onlyReserve] at hdispatch ⊢
  rw [hdispatch]
  dsimp only
  have hstatus : cloudStatus outcome.result = some 200 := rfl
  rw [fallBack_of_ok hstatus (by decide) rfl]
  rfl

/-- A sensitive request keeps away from the reserve exactly where it does not require Cloud, or
where there is no reserve. -/
theorem not_triesReserve_iff (req : Request) (hmode : req.routeMode = .hybrid)
    (hroles : keysWithRole req.entries .cloud ≠ [])
    (hprivate : req.privacy.hasSensitiveHeaders = true ∨ req.privacy.hasPrivateTargetUrl = true) :
    (∀ env, ¬TriesReserve env req) ↔
      req.needsCloud.required = false ∨ keysWithRole req.entries .fallback = [] := by
  constructor
  · intro hnever
    by_contra hboth
    obtain ⟨hrequired, hleft⟩ := not_or.mp hboth
    rw [Bool.not_eq_false] at hrequired
    obtain ⟨key, hkey⟩ := List.exists_mem_of_ne_nil _ hleft
    exact hnever _ (triesReserve_onlyReserve hmode hrequired hroles hkey)
  · intro hsafe env ⟨fuel, log, answer, hhandle, a, ha, hreserve⟩
    obtain ⟨pre, post, rfl⟩ := List.append_of_mem ha
    have hallowed := handle_guarded hhandle pre a post rfl
    cases a with
    | cloud reserve pool reservation result =>
      have hcall : CloudAllowed env req pre reserve pool reservation := hallowed
      obtain ⟨htakeover, hpool⟩ := hcall.rule.2 hreserve
      rcases hsafe with hrequired | hnone
      · -- only self-hosted can have failed, and a sensitive request does not fall back from it
        rcases htakeover.reason with ⟨hcontra, -⟩ | ⟨failed, -, -, hfallback⟩
        · rw [hrequired] at hcontra
          cases hcontra
        · rcases hprivate with hheaders | hurl
          · simp [isFallbackAllowed, hheaders] at hfallback
          · simp [isFallbackAllowed, hurl] at hfallback
      · have hmem := hcall.key
        rw [hpool, hnone] at hmem
        exact absurd hmem List.not_mem_nil
    | _ => cases hreserve

/-- The same request with a cookie. -/
def cookieRequest : Request := { agentRequest with privacy := ⟨true, false⟩ }

/-- The reserve takes a Cloud-required request over whatever its headers are. -/
theorem cookieRequest_triesReserve :
    ¬∀ env req, req.routeMode = .hybrid → keysWithRole req.entries .cloud ≠ [] →
      req.privacy.hasSensitiveHeaders = true ∨ req.privacy.hasPrivateTargetUrl = true →
      ¬TriesReserve env req := by
  intro hnever
  have hmem : "reserve" ∈ keysWithRole cookieRequest.entries .fallback := by decide
  have htries := triesReserve_onlyReserve rfl rfl (by decide) hmem
  exact hnever _ cookieRequest rfl (by decide) (Or.inl rfl) htries

theorem not_triesReserve_iff_cookieRequest :
    (∀ env, ¬TriesReserve env cookieRequest) ↔
      cookieRequest.needsCloud.required = false ∨ keysWithRole cookieRequest.entries .fallback = [] :=
  not_triesReserve_iff cookieRequest rfl (by decide) (Or.inl rfl)

end Proxy
end FirecrawlGateway
