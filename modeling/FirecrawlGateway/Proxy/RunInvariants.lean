import FirecrawlGateway.Proxy.ProxyServiceRules

/-!
# Invariants of a run

A run changes in three ways only: it tries a Cloud key, it turns to self-hosted, or the fallback
keys take over. What these keep is kept by every stage of `handlePlan`.
-/

namespace FirecrawlGateway
namespace Proxy

variable {env : Environment} {I : Run → Prop}

/-- The three changes of a run keep the property. -/
structure Kept (env : Environment) (I : Run → Prop) : Prop where
  cloud : ∀ run, I run → I (proxyCloud env run).1
  selfHosted : ∀ run, I run → I (proxySelfHosted env run).1
  reserve : ∀ run, I run → I (takeFallbackKeys run).1

namespace Kept

lemma dispatchReserve (h : Kept env I) {run : Run} (hrun : I run) :
    I (dispatchReserve env run).1 := by
  have htaken := h.reserve run hrun
  unfold Proxy.dispatchReserve
  split
  · rename_i taken heq
    rwa [heq] at htaken
  · rename_i taken heq
    rw [heq] at htaken
    have hcloud := h.cloud taken htaken
    split
    all_goals
      rename_i heq'
      rwa [heq'] at hcloud

lemma dispatchCloud (h : Kept env I) {routeMode : RouteMode} {run : Run} (hrun : I run) :
    I (dispatchCloud env routeMode run).1 := by
  have hcloud := h.cloud run hrun
  unfold Proxy.dispatchCloud
  split
  · rename_i next attempt heq
    rwa [heq] at hcloud
  · rename_i next heq
    rw [heq] at hcloud
    split_ifs
    · exact h.dispatchReserve hcloud
    · exact h.selfHosted next hcloud

lemma dispatchSelfHosted (h : Kept env I) {routeMode : RouteMode} {run : Run} (hrun : I run) :
    I (dispatchSelfHosted env routeMode run).1 := by
  have hself := h.selfHosted run hrun
  unfold Proxy.dispatchSelfHosted
  dsimp only
  split_ifs
  · have hcloud := h.cloud _ hself
    split
    all_goals
      rename_i heq
      rwa [heq] at hcloud
  · exact hself

lemma dispatch (h : Kept env I) {routeMode : RouteMode} {run : Run} (hrun : I run) :
    I (dispatch env routeMode run).1 := by
  unfold Proxy.dispatch
  split
  · exact h.dispatchCloud hrun
  · exact h.dispatchSelfHosted hrun

lemma rotateLoop (h : Kept env I) {firstStatus fuel attempts quotaAttempts : ℕ} {run run' : Run}
    {outcome outcome' : Outcome} {outOfQuota : Bool} (hrun : I run)
    (hloop : rotateLoop env firstStatus fuel run outcome attempts quotaAttempts =
      some (run', outcome', outOfQuota)) : I run' := by
  induction fuel generalizing run outcome attempts quotaAttempts with
  | zero => cases hloop
  | succ fuel ih =>
    have hcloud := h.cloud run hrun
    unfold Proxy.rotateLoop at hloop
    split at hloop
    · rename_i next heq
      rw [heq] at hcloud
      cases hloop
      exact hcloud
    · rename_i next attempt heq
      rw [heq] at hcloud
      dsimp only at hloop
      -- after a network error, or another answer to retry, the next key is tried
      split at hloop
      · exact ih hcloud hloop
      · by_cases hretry : ‹ℕ› ∉ retryableCloudStatus
        · rw [if_pos hretry] at hloop
          cases hloop
          exact hcloud
        · rw [if_neg hretry] at hloop
          exact ih hcloud hloop

lemma rotateCloudKeys (h : Kept env I) {fuel : ℕ} {run run' : Run} {outcome outcome' : Outcome}
    {outOfQuota : Bool} (hrun : I run)
    (hrotate : rotateCloudKeys env fuel run outcome = some (run', outcome', outOfQuota)) :
    I run' := by
  unfold Proxy.rotateCloudKeys at hrotate
  split at hrotate
  · cases hrotate
    exact hrun
  · rename_i status _
    by_cases hretry : status ∉ retryableCloudStatus
    · rw [if_pos hretry] at hrotate
      cases hrotate
      exact hrun
    · rw [if_neg hretry] at hrotate
      exact h.rotateLoop hrun hrotate

lemma fallBackToSelfHosted (h : Kept env I) {routeMode : RouteMode} {run : Run}
    {outcome : Outcome} (hrun : I run) : I (fallBackToSelfHosted env routeMode run outcome).1 := by
  unfold Proxy.fallBackToSelfHosted
  split_ifs
  · exact hrun
  · exact h.selfHosted run hrun

lemma fallBackToFallbackKeys (h : Kept env I) {routeMode : RouteMode} {run : Run}
    {outcome : Outcome} (hrun : I run) :
    I (fallBackToFallbackKeys env routeMode run outcome).1 := by
  have hcloud := h.cloud _ (h.reserve run hrun)
  unfold Proxy.fallBackToFallbackKeys
  dsimp only
  split_ifs
  · exact hrun
  all_goals
    split
    all_goals
      rename_i heq
      rwa [heq] at hcloud

lemma fallBack (h : Kept env I) {fuel : ℕ} {routeMode : RouteMode} {run run' : Run}
    {outcome outcome' : Outcome} (hrun : I run)
    (hback : fallBack env fuel routeMode run outcome = some (run', outcome')) : I run' := by
  unfold Proxy.fallBack at hback
  obtain ⟨⟨rotated, result, outOfQuota⟩, hrotate, hback⟩ := Option.bind_eq_some_iff.mp hback
  dsimp only at hback
  have hrotated := h.rotateCloudKeys hrun hrotate
  have hbefore : I (if outOfQuota = true then
      Proxy.fallBackToSelfHosted env routeMode rotated result else (rotated, result)).1 := by
    split_ifs
    · exact h.fallBackToSelfHosted hrotated
    · exact hrotated
  generalize (if outOfQuota = true then Proxy.fallBackToSelfHosted env routeMode rotated result
    else (rotated, result)) = before at hbefore hback
  have hafter : I (Proxy.fallBackToFallbackKeys env routeMode before.1 before.2).1 :=
    h.fallBackToFallbackKeys hbefore
  generalize Proxy.fallBackToFallbackKeys env routeMode before.1 before.2 = after at hafter hback
  split_ifs at hback
  · obtain ⟨⟨last, final, _⟩, hrotate', hback⟩ := Option.bind_eq_some_iff.mp hback
    cases hback
    exact h.rotateCloudKeys hafter hrotate'
  · cases hback
    exact hafter

/-- What the three changes keep holds of the run that answers. -/
theorem handlePlan (h : Kept env I) {fuel : ℕ} {routeMode : RouteMode} {plan : RoutePlan}
    {run : Run} {answer : Except EarlyRejection Outcome} (hstart : I { plan := plan })
    (hhandle : handlePlan env fuel routeMode plan = some (run, answer)) : I run := by
  unfold Proxy.handlePlan at hhandle
  split at hhandle
  · cases hhandle
    exact hstart
  · have hdispatch : I (Proxy.dispatch env routeMode { plan := plan }).1 := h.dispatch hstart
    split at hhandle
    · rename_i dispatched rejection heq
      cases hhandle
      rwa [heq] at hdispatch
    · rename_i dispatched outcome heq
      rw [heq] at hdispatch
      obtain ⟨⟨run', outcome'⟩, hback, hsome⟩ := Option.map_eq_some_iff.mp hhandle
      cases hsome
      exact h.fallBack hdispatch hback

end Kept

/-- Attempts stay in the log. -/
lemma kept_log (env : Environment) (log : List Attempt) : Kept env fun run => log ⊆ run.log where
  cloud run hrun := by
    rcases proxyCloud_cases env run with heq | ⟨reservation, result, heq, -⟩
    all_goals
      rw [heq]
      exact List.Subset.trans hrun (List.subset_append_left _ _)
  selfHosted run hrun := by
    obtain ⟨reached, result, heq, -⟩ := proxySelfHosted_cases env run
    rw [heq]
    exact List.Subset.trans hrun (List.subset_append_left _ _)
  reserve run hrun := by rwa [takeFallbackKeys_log]

end Proxy
end FirecrawlGateway
