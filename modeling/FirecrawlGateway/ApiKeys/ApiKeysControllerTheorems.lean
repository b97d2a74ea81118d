import FirecrawlGateway.ApiKeys.ApiKeysController
import FirecrawlGateway.ApiKeys.ApiKeysServiceTheorems

/-!
# A new key works at once

The service remembers for a while that a key was not found. A key that nobody has presented before
it was created is not among those, so every validation finds it from the insert on, unless it was
revoked by then. Whatever the admin sends, the limits of every key are those the controller accepts.
-/

namespace FirecrawlGateway

namespace ApiKeysService

open EventMachine ReadThrough WriteHistory

variable {hashApiKey : String → String} {s s' : System}

/-! ## Keys that were never presented -/

/-- Nobody has presented a key with this hash. -/
structure Unheard (hashApiKey : String → String) (s : System) (keyHash : String) : Prop where
  cached : s.validationCache.get keyHash = none
  inFlight : s.validationInFlight.get keyHash = none
  requests : ∀ r ∈ s.requests, r.keyHash ≠ keyHash
  validations : ∀ call v, s.validations call = some v → hashApiKey v.key ≠ keyHash

/-- A step that presents no key, and asks about those hashes only that were asked about. -/
lemma Unheard.frame {keyHash : String} (h : Unheard hashApiKey s keyHash)
    (hcached : ∀ e, s'.validationCache.get keyHash = some e →
      s.validationCache.get keyHash = some e)
    (hinFlight : ∀ n, s'.validationInFlight.get keyHash = some n →
      s.validationInFlight.get keyHash = some n)
    (hrequests : s'.requests.map Request.keyHash = s.requests.map Request.keyHash)
    (hvalidations : s'.validations = s.validations) : Unheard hashApiKey s' keyHash where
  cached := by
    rw [Option.eq_none_iff_forall_ne_some]
    intro e he
    have hold := hcached e he
    rw [h.cached] at hold
    cases hold
  inFlight := by
    rw [Option.eq_none_iff_forall_ne_some]
    intro n hn
    have hold := hinFlight n hn
    rw [h.inFlight] at hold
    cases hold
  requests r hr := by
    have hmem : r.keyHash ∈ s'.requests.map Request.keyHash := List.mem_map_of_mem hr
    rw [hrequests] at hmem
    obtain ⟨r', hr', heq⟩ := List.mem_map.mp hmem
    rw [← heq]
    exact h.requests r' hr'
  validations call v hv := by
    rw [hvalidations] at hv
    exact h.validations call v hv

/-- A step that leaves what validations use alone. -/
lemma Unheard.of_same {keyHash : String} (h : Unheard hashApiKey s keyHash)
    (hcached : s'.validationCache = s.validationCache)
    (hinFlight : s'.validationInFlight = s.validationInFlight)
    (hrequests : s'.requests = s.requests) (hvalidations : s'.validations = s.validations) :
    Unheard hashApiKey s' keyHash :=
  h.frame (fun _ he => hcached ▸ he) (fun _ hn => hinFlight ▸ hn) (by rw [hrequests]) hvalidations

lemma map_keyHash_modify (requests : List Request) (n : ℕ) (f : Request → Request)
    (hf : ∀ r, (f r).keyHash = r.keyHash) :
    (requests.modify n f).map Request.keyHash = requests.map Request.keyHash := by
  induction requests generalizing n with
  | nil => cases n <;> rfl
  | cons r requests ih =>
    cases n with
    | zero => exact congrArg (· :: requests.map Request.keyHash) (hf r)
    | succ n => exact congrArg (r.keyHash :: ·) (ih n)

/-- A validation of a key with another hash. -/
lemma Unheard.validate {keyHash : String} (h : Unheard hashApiKey s keyHash) {other : String}
    (hne : other ≠ keyHash) (now : ℤ) :
    Unheard hashApiKey (validateApiKey s other now).1 keyHash := by
  unfold validateApiKey
  cases freshEntry s other now with
  | some cached => exact h
  | none =>
    have hdelete : ∀ e, (s.validationCache.delete other).get keyHash = some e →
        s.validationCache.get keyHash = some e := fun _ he => JsMap.get_delete_some he
    cases hexisting : s.validationInFlight.get other with
    | some existing =>
      simp only [hexisting]
      exact h.frame hdelete (fun _ hn => hn) rfl rfl
    | none =>
      simp only [hexisting]
      have hforget : Unheard hashApiKey
          { s with validationCache := s.validationCache.delete other } keyHash :=
        h.frame hdelete (fun _ hn => hn) rfl rfl
      refine ⟨hforget.cached, ?_, ?_, h.validations⟩
      · rw [JsMap.get_set_of_ne hne.symm]
        exact h.inFlight
      · -- the new request asks about the other hash
        intro r hr
        rcases List.mem_append.mp hr with hr | hr
        · exact h.requests r hr
        · rw [List.mem_singleton.mp hr]
          exact hne

/-- The end of a request for another hash records nothing under this one. -/
lemma Unheard.goOn {keyHash : String} (h : Unheard hashApiKey s keyHash) {other : String}
    (hne : other ≠ keyHash) (n : ℕ) (value : Option ApiKeyRecord) (now : ℤ) :
    Unheard hashApiKey (stopAwaiting (goOn s other n value now) n) keyHash := by
  have hleave : ∀ u : System, Unheard hashApiKey u keyHash →
      Unheard hashApiKey (leave u other n) keyHash := by
    intro u hu
    rw [leave_eq]
    exact hu.frame (fun _ he => he) (fun _ hm => get_leave_some hm) rfl rfl
  have hgoOn : Unheard hashApiKey (ApiKeysService.goOn s other n value now) keyHash := by
    unfold ApiKeysService.goOn
    split_ifs
    · -- the answer is recorded under the other hash
      apply hleave
      refine h.frame (fun e he => ?_) (fun _ hm => hm) rfl rfl
      rcases get_recordValidation_some he with hold | ⟨heq, -⟩
      · exact hold
      · exact absurd heq.symm hne
    · exact hleave s h
  exact hgoOn.frame (fun _ he => he) (fun _ hm => hm)
    (map_keyHash_modify _ _ _ fun _ => rfl) rfl

/-- A validation of a key with another hash is somewhere else. -/
lemma Unheard.setValidation {keyHash : String} (h : Unheard hashApiKey s keyHash) (call : ℕ)
    (v : Validation) (hv : hashApiKey v.key ≠ keyHash) :
    Unheard hashApiKey (setValidation s call v) keyHash where
  cached := h.cached
  inFlight := h.inFlight
  requests := h.requests
  validations c w hw := by
    unfold ApiKeysService.setValidation at hw
    dsimp only at hw
    by_cases hc : c = call
    · rw [hc, Function.update_self] at hw
      rw [← Option.some.inj hw]
      exact hv
    · rw [Function.update_of_ne hc] at hw
      exact h.validations c w hw

lemma Unheard.step {keyHash : String} (h : Unheard hashApiKey s keyHash) {e : Event}
    (hother : ∀ call key now, e = .validateApiKey call key now → hashApiKey key ≠ keyHash)
    (hstep : step hashApiKey s e = some s') : Unheard hashApiKey s' keyHash := by
  have hanswer : ∀ n answer, Unheard hashApiKey (setAnswer s n answer) keyHash := fun n answer =>
    h.frame (fun _ he => he) (fun _ hm => hm) (map_keyHash_modify _ _ _ fun _ => rfl) rfl
  have hasked : ∀ {n : ℕ} {r : Request}, s.requests[n]? = some r → r.keyHash ≠ keyHash :=
    fun hr => h.requests _ (List.mem_of_getElem? hr)
  cases e with
  | validateApiKey call key now =>
    simp only [ApiKeysService.step] at hstep
    split_ifs at hstep
    cases hstep
    have hne := hother call key now rfl
    exact (h.validate hne now).setValidation call ⟨key, _⟩ hne
  | query n =>
    simp only [ApiKeysService.step] at hstep
    split at hstep <;> cases hstep
    exact hanswer _ _
  | fulfil n =>
    simp only [ApiKeysService.step] at hstep
    split at hstep <;> cases hstep
    exact hanswer _ _
  | reject n =>
    simp only [ApiKeysService.step] at hstep
    split at hstep <;> cases hstep <;> exact hanswer _ _
  | goOn n now =>
    simp only [ApiKeysService.step] at hstep
    split at hstep
    · rename_i hr
      cases hstep
      exact h.goOn (hasked hr) n _ now
    · rename_i hr
      cases hstep
      rw [leave_eq]
      exact h.frame (fun _ he => he) (fun _ hm => get_leave_some hm)
        (map_keyHash_modify _ _ _ fun _ => rfl) rfl
    · cases hstep
  | returns call =>
    simp only [ApiKeysService.step] at hstep
    split at hstep
    · rename_i key lookup hcall
      obtain ⟨progress, -, rfl⟩ := Option.map_eq_some_iff.mp hstep
      have hne : hashApiKey key ≠ keyHash := h.validations call _ hcall
      exact h.setValidation call ⟨key, progress⟩ hne
    · cases hstep
  | revokeApiKey call id =>
    simp only [ApiKeysService.step] at hstep
    split_ifs at hstep
    cases hstep
    exact h.of_same rfl rfl rfl rfl
  | updateApiKeyLimits call id data =>
    simp only [ApiKeysService.step] at hstep
    split_ifs at hstep
    cases hstep
    exact h.of_same rfl rfl rfl rfl
  | execute call now =>
    simp only [ApiKeysService.step] at hstep
    split at hstep
    · cases hstep
      rw [execute_eq]
      exact h.of_same rfl rfl rfl rfl
    · cases hstep
  | resolves call =>
    simp only [ApiKeysService.step] at hstep
    split at hstep
    · cases hstep
      exact h.frame (fun _ he => JsMap.get_delete_some he) (fun _ hm => JsMap.get_delete_some hm)
        rfl rfl
    · cases hstep
      exact h.of_same rfl rfl rfl rfl
    · cases hstep
  | rejects call =>
    simp only [ApiKeysService.step] at hstep
    split at hstep
    · cases hstep
      exact h.of_same rfl rfl rfl rfl
    · cases hstep
  | clearValidationCache =>
    cases hstep
    exact ⟨rfl, rfl, h.requests, h.validations⟩
  | creates row =>
    obtain ⟨table, -, rfl⟩ := Option.map_eq_some_iff.mp hstep
    exact h.of_same rfl rfl rfl rfl
  | changes id change now =>
    cases hstep
    rw [execute_eq]
    exact h.of_same rfl rfl rfl rfl

/-! ## Limits in bounds -/

/-- What an update sets is in bounds. -/
def Change.InBounds : Change → Prop
  | .limits data => ApiKeysController.InBounds (data.rateLimitPerMinute.getD none)
      (data.monthlyQuota.getD none)
  | _ => True

/-- A row with limits in bounds. -/
def ApiKey.InBounds (row : ApiKey) : Prop :=
  ApiKeysController.InBounds row.rateLimitPerMinute row.monthlyQuota

/-- What is created and updated is in bounds. -/
def Event.InBounds : Event → Prop
  | .creates row => row.InBounds
  | .changes _ change _ => change.InBounds
  | .updateApiKeyLimits _ _ data => (Change.limits data).InBounds
  | _ => True

/-- All rows there ever were, and all updates that are under way, are in bounds. -/
structure Bounded (s : System) : Prop where
  rows : ∀ table ∈ s.history, ∀ row ∈ table.rows, row.InBounds
  writers : ∀ call w, s.writers call = some w → w.change.InBounds

/-- An update in bounds keeps a row in bounds. -/
lemma Change.inBounds_apply {row : ApiKey} (hrow : row.InBounds) (change : Change)
    (hchange : change.InBounds) (now : ℤ) : (change.apply now row).InBounds := by
  cases change with
  | revoke => exact hrow
  | touch lastUsedAt => exact hrow
  | limits data =>
    obtain ⟨hrate, hquota⟩ := hchange
    constructor
    · show ∀ n ∈ data.rateLimitPerMinute.getD row.rateLimitPerMinute, _
      cases hdata : data.rateLimitPerMinute with
      | none => exact hrow.1
      | some limit =>
        rw [hdata] at hrate
        exact hrate
    · show ∀ n ∈ data.monthlyQuota.getD row.monthlyQuota, _
      cases hdata : data.monthlyQuota with
      | none => exact hrow.2
      | some limit =>
        rw [hdata] at hquota
        exact hquota

lemma Bounded.of_same (h : Bounded s) (hhistory : s'.history = s.history)
    (hwriters : s'.writers = s.writers) : Bounded s' where
  rows := by
    rw [hhistory]
    exact h.rows
  writers := by
    rw [hwriters]
    exact h.writers

/-- A new table. -/
lemma Bounded.of_table (h : Bounded s) (hpast : s'.past = s.history)
    (hrows : ∀ row ∈ s'.table.rows, row.InBounds) (hwriters : s'.writers = s.writers) :
    Bounded s' where
  rows table htable := by
    unfold System.history at htable
    rw [hpast] at htable
    rcases List.mem_append.mp htable with hold | hnew
    · exact h.rows table hold
    · rw [List.mem_singleton.mp hnew]
      exact hrows
  writers := by
    rw [hwriters]
    exact h.writers

lemma Bounded.setWriter (h : Bounded s) (call : ℕ) (writer : Option Writer)
    (hwriter : ∀ w ∈ writer, w.change.InBounds) : Bounded (setWriter s call writer) where
  rows := h.rows
  writers c w hw := (writers_update hw).elim (hwriter w) (h.writers c w)

lemma Bounded.execute (h : Bounded s) (id : String) {change : Change} (hchange : change.InBounds)
    (now : ℤ) : Bounded (execute s id change now).1 := by
  rcases execute_cases s id change now with heq | ⟨row, -, -, heq⟩
  · rw [heq]
    exact h
  · rw [heq]
    refine h.of_table rfl (fun r hr => ?_) rfl
    obtain ⟨old, hold, rfl⟩ := List.mem_map.mp hr
    have hbefore : old.InBounds :=
      h.rows s.table (List.mem_append_right _ (List.mem_singleton_self _)) old hold
    split_ifs
    · exact Change.inBounds_apply hbefore change hchange now
    · exact hbefore

lemma Bounded.step (h : Bounded s) {e : Event} (he : e.InBounds)
    (hstep : step hashApiKey s e = some s') : Bounded s' := by
  cases e with
  | validateApiKey call key now =>
    simp only [ApiKeysService.step] at hstep
    split_ifs at hstep
    cases hstep
    rw [validateApiKey_eq]
    exact h.of_same rfl rfl
  | query n =>
    simp only [ApiKeysService.step] at hstep
    split at hstep <;> cases hstep
    exact h.of_same rfl rfl
  | fulfil n =>
    simp only [ApiKeysService.step] at hstep
    split at hstep <;> cases hstep
    exact h.of_same rfl rfl
  | reject n =>
    simp only [ApiKeysService.step] at hstep
    split at hstep <;> cases hstep <;> exact h.of_same rfl rfl
  | goOn n now =>
    simp only [ApiKeysService.step] at hstep
    split at hstep
    · cases hstep
      rw [goOn_eq]
      exact h.of_same rfl rfl
    · cases hstep
      rw [leave_eq]
      exact h.of_same rfl rfl
    · cases hstep
  | returns call =>
    simp only [ApiKeysService.step] at hstep
    split at hstep
    · obtain ⟨progress, -, rfl⟩ := Option.map_eq_some_iff.mp hstep
      exact h.of_same rfl rfl
    · cases hstep
  | revokeApiKey call id =>
    simp only [ApiKeysService.step] at hstep
    split_ifs at hstep
    cases hstep
    refine h.setWriter call _ fun w hw => ?_
    cases hw
    trivial
  | updateApiKeyLimits call id data =>
    simp only [ApiKeysService.step] at hstep
    split_ifs at hstep
    cases hstep
    refine h.setWriter call _ fun w hw => ?_
    cases hw
    exact he
  | execute call now =>
    simp only [ApiKeysService.step] at hstep
    split at hstep
    · rename_i id change hcall
      cases hstep
      have hchange : change.InBounds := h.writers call _ hcall
      refine (h.execute id hchange now).setWriter call _ fun w hw => ?_
      cases hw
      exact hchange
    · cases hstep
  | resolves call =>
    simp only [ApiKeysService.step] at hstep
    have hnone : ∀ u : System, Bounded u → Bounded (ApiKeysService.setWriter u call none) := by
      intro u hu
      apply hu.setWriter
      intro w hw
      cases hw
    split at hstep
    · cases hstep
      exact hnone _ (h.of_same rfl rfl)
    · cases hstep
      exact hnone _ h
    · cases hstep
  | rejects call =>
    simp only [ApiKeysService.step] at hstep
    split at hstep
    · cases hstep
      apply h.setWriter
      intro w hw
      cases hw
    · cases hstep
  | clearValidationCache =>
    cases hstep
    exact h.of_same rfl rfl
  | creates row =>
    obtain ⟨table, htable, rfl⟩ := Option.map_eq_some_iff.mp hstep
    refine h.of_table rfl (fun r hr => ?_) rfl
    unfold Table.create at htable
    split_ifs at htable
    cases htable
    rcases List.mem_cons.mp hr with rfl | hr
    · exact he
    · exact h.rows s.table (List.mem_append_right _ (List.mem_singleton_self _)) r hr
  | changes id change now =>
    cases hstep
    exact h.execute id he now

end ApiKeysService
namespace ApiKeysController

open EventMachine ReadThrough WriteHistory
open ApiKeysService (Current FoundSince Placed Table Unheard)

variable {c : Config} {s s' : System}

/-! ## What the controller accepts -/

lemma parseWhole_bounds {max : ℕ} {message : String} {value : Option JsonValue}
    {limit : Option (Option ℕ)} (h : parseWhole max message value = .ok limit) :
    ∀ n ∈ limit.getD none, 1 ≤ n ∧ n ≤ max := by
  intro n hn
  unfold parseWhole at h
  split at h
  · cases h
    cases hn
  · cases h
    cases hn
  · rename_i q
    split_ifs at h with hq
    cases h
    obtain ⟨hden, hone, hmax⟩ := hq
    have hnum : n = q.num.toNat := (Option.some.inj hn).symm
    -- the value is its numerator
    have heq : (q.num : ℚ) = q := Rat.coe_int_num_of_den_eq_one hden
    rw [← heq] at hone hmax
    have hone' : 1 ≤ q.num := by exact_mod_cast hone
    have hmax' : q.num ≤ max := by exact_mod_cast hmax
    omega
  · cases h

lemma parseLimits_inBounds {dates : Dates} {now : ℤ} {body : JsonValue}
    {limits : ApiKeysService.ApiKeyLimits} (h : parseLimits dates now body = .ok limits) :
    (ApiKeysService.Change.limits limits).InBounds := by
  unfold parseLimits at h
  cases hexpires : parseExpiresAt dates now (body.member "expires_at") with
  | error failure =>
    rw [hexpires] at h
    cases h
  | ok expiresAt =>
    cases hrate : parseRateLimit (body.member "rate_limit_per_minute") with
    | error failure =>
      rw [hexpires, hrate] at h
      cases h
    | ok rateLimitPerMinute =>
      cases hquota : parseMonthlyQuota (body.member "monthly_quota") with
      | error failure =>
        rw [hexpires, hrate, hquota] at h
        cases h
      | ok monthlyQuota =>
        rw [hexpires, hrate, hquota] at h
        cases h
        exact ⟨parseWhole_bounds hrate, parseWhole_bounds hquota⟩

lemma create_inBounds {drawn : Drawn} {now : ℤ} {body : JsonValue} {creation : Creation}
    (h : create c drawn now body = .ok creation) :
    (ApiKeysService.Change.limits creation.limits).InBounds := by
  unfold create at h
  split at h
  · split_ifs at h
    cases hlimits : parseLimits c.dates now body with
    | error failure =>
      rw [hlimits] at h
      cases h
    | ok limits =>
      rw [hlimits] at h
      have hcreated : createApiKey c drawn (JsString.toText _) limits = .ok creation := h
      unfold createApiKey at hcreated
      dsimp only at hcreated
      split at hcreated
      · cases hcreated
        exact parseLimits_inBounds hlimits
      · cases hcreated
  · cases h

lemma update_inBounds {now : ℤ} {body : JsonValue} {limits : ApiKeysService.ApiKeyLimits}
    (h : update c now body = .ok limits) : (ApiKeysService.Change.limits limits).InBounds := by
  unfold update at h
  cases hlimits : parseLimits c.dates now body with
  | error failure =>
    rw [hlimits] at h
    cases h
  | ok parsed =>
    rw [hlimits] at h
    replace h : (if parsed.expiresAt = none ∧ parsed.rateLimitPerMinute = none ∧
        parsed.monthlyQuota = none then throw _ else pure parsed) = Except.ok limits := h
    split_ifs at h
    cases h
    exact parseLimits_inBounds hlimits

/-! ## Runs -/

/-- A section of the service changes nothing else. -/
lemma serve_spec {event : ApiKeysService.Event} (h : serve c s event = some s') :
    ApiKeysService.step c.hashApiKey s.service event = some s'.service ∧
      s'.creations = s.creations := by
  obtain ⟨service, hservice, rfl⟩ := Option.map_eq_some_iff.mp h
  exact ⟨hservice, rfl⟩

/-- A step of the controller is one of the service, or none; the service is presented what comes
from elsewhere, and limits in bounds. -/
lemma step_service {e : Event}
    (hcreations : ∀ call creation, s.creations call = some creation →
      (ApiKeysService.Change.limits creation.limits).InBounds)
    (hstep : step c s e = some s') :
    s'.service = s.service ∨ ∃ event,
      ApiKeysService.step c.hashApiKey s.service event = some s'.service ∧ event.InBounds ∧
        ∀ call key now, event = .validateApiKey call key now → e = .service event := by
  cases e with
  | create call drawn now body =>
    simp only [step] at hstep
    split_ifs at hstep
    split at hstep <;> cases hstep <;> exact Or.inl rfl
  | inserts call now =>
    simp only [step] at hstep
    split at hstep
    · rename_i creation hcall
      have hinsert := (serve_spec hstep).1
      refine Or.inr ⟨.creates (creation.row c now), hinsert, hcreations call creation hcall,
        fun _ _ _ heq => ?_⟩
      cases heq
    · cases hstep
  | refuses call =>
    simp only [step] at hstep
    split at hstep <;> cases hstep
    exact Or.inl rfl
  | update call id now body =>
    simp only [step] at hstep
    split at hstep
    · rename_i limits hlimits
      refine Or.inr ⟨_, (serve_spec hstep).1, update_inBounds hlimits, fun _ _ _ heq => ?_⟩
      cases heq
    · cases hstep
      exact Or.inl rfl
  | revoke call id =>
    refine Or.inr ⟨_, (serve_spec hstep).1, trivial, fun _ _ _ heq => ?_⟩
    cases heq
  | service event =>
    simp only [step] at hstep
    split_ifs at hstep with helsewhere
    refine Or.inr ⟨event, (serve_spec hstep).1, ?_, fun _ _ _ _ => rfl⟩
    cases event with
    | creates row => exact helsewhere
    | changes id change now =>
      cases change with
      | limits data => exact helsewhere
      | _ => trivial
    | updateApiKeyLimits call id data => exact helsewhere.elim
    | _ => trivial

/-- What holds in every state: rows keep their ids and hashes, and all limits are in bounds. -/
structure Inv (s : System) : Prop where
  placed : Placed s.service
  bounded : ApiKeysService.Bounded s.service
  creations : ∀ call creation, s.creations call = some creation →
    (ApiKeysService.Change.limits creation.limits).InBounds

/-- The calls of `create` after a step. -/
lemma creations_step {e : Event} (h : Inv s) (hstep : step c s e = some s') {call : ℕ}
    {creation : Creation} (hcall : s'.creations call = some creation) :
    (ApiKeysService.Change.limits creation.limits).InBounds := by
  have hset : ∀ {other : ℕ} {value : Option Creation},
      Function.update s.creations other value call = some creation →
      value = some creation ∨ s.creations call = some creation := by
    intro other value hupdate
    by_cases heq : call = other
    · rw [heq, Function.update_self] at hupdate
      exact Or.inl hupdate
    · rw [Function.update_of_ne heq] at hupdate
      exact Or.inr hupdate
  cases e with
  | create other drawn now body =>
    simp only [step] at hstep
    split_ifs at hstep
    split at hstep
    · rename_i created hcreated
      cases hstep
      rcases hset hcall with hnew | hold
      · cases hnew
        exact create_inBounds hcreated
      · exact h.creations call creation hold
    · cases hstep
      exact h.creations call creation hcall
  | inserts other now =>
    simp only [step] at hstep
    split at hstep
    · have hsame := (serve_spec hstep).2
      rw [hsame] at hcall
      rcases hset hcall with hnew | hold
      · cases hnew
      · exact h.creations call creation hold
    · cases hstep
  | refuses other =>
    simp only [step] at hstep
    split at hstep <;> cases hstep
    rcases hset hcall with hnew | hold
    · cases hnew
    · exact h.creations call creation hold
  | update other id now body =>
    simp only [step] at hstep
    split at hstep
    · rw [(serve_spec hstep).2] at hcall
      exact h.creations call creation hcall
    · cases hstep
      exact h.creations call creation hcall
  | revoke other id =>
    have hsame := (serve_spec hstep).2
    rw [hsame] at hcall
    exact h.creations call creation hcall
  | service event =>
    simp only [step] at hstep
    split_ifs at hstep
    rw [(serve_spec hstep).2] at hcall
    exact h.creations call creation hcall

lemma Inv.step {e : Event} (h : Inv s) (hstep : step c s e = some s') : Inv s' where
  placed := by
    rcases step_service h.creations hstep with heq | ⟨event, hservice, -, -⟩
    · rw [heq]
      exact h.placed
    · exact ApiKeysService.placed_step h.placed hservice
  bounded := by
    rcases step_service h.creations hstep with heq | ⟨event, hservice, hevent, -⟩
    · rw [heq]
      exact h.bounded
    · exact h.bounded.step hevent hservice
  creations _ _ hcall := creations_step h hstep hcall

lemma Inv.run {es : List Event} (h : Inv s) (hrun : run (ApiKeysController.step c) s es = some s') :
    Inv s' :=
  run_invariant (fun _ _ _ hu hstep => hu.step hstep) h hrun

lemma inv_start {table : Table} (htable : ∀ row ∈ table.rows, row.InBounds) :
    Inv { service := ApiKeysService.start table } where
  placed := ApiKeysService.placed_start table
  bounded := by
    constructor
    · intro t ht
      rw [List.mem_singleton.mp ht]
      exact htable
    · intro call w hw
      cases hw
  creations call creation hcall := by cases hcall

/-! ## New keys -/

/-- The event presents no key with this hash. -/
def NotPresented (c : Config) (keyHash : String) (e : Event) : Prop :=
  ∀ call key now, e = .service (.validateApiKey call key now) → c.hashApiKey key ≠ keyHash

/-- A step that presents no key with this hash. -/
lemma unheard_step {keyHash : String} {e : Event} (h : Inv s)
    (hunheard : Unheard c.hashApiKey s.service keyHash) (he : NotPresented c keyHash e)
    (hstep : step c s e = some s') : Unheard c.hashApiKey s'.service keyHash := by
  rcases step_service h.creations hstep with heq | ⟨event, hservice, -, hpresented⟩
  · rw [heq]
    exact hunheard
  · refine hunheard.step (fun call key now heq => ?_) hservice
    exact he call key now (heq ▸ hpresented call key now heq)

/-- A validation, if it is of a key with this hash, comes to what a table from the `i`-th on has. -/
structure Finds (c : Config) (s : System) (keyHash : String) (i : ℕ) : Prop where
  placed : i < s.service.history.length
  coherent : Coherent s.service.view keyHash (Current s.service keyHash i)
  validations : ∀ call,
    ApiKeysService.ValidationCurrent c.hashApiKey s.service keyHash call i

lemma Finds.step {keyHash : String} {i : ℕ} {e : Event} (hfinds : Finds c s keyHash i)
    (h : Inv s) (hstep : step c s e = some s') : Finds c s' keyHash i := by
  obtain ⟨hplaced, hcoherent, hvalidations⟩ := hfinds
  rcases step_service h.creations hstep with heq | ⟨event, hservice, -, -⟩
  · constructor
    · rw [heq]
      exact hplaced
    · rw [heq]
      exact hcoherent
    · rw [heq]
      exact hvalidations
  · have hkeeps := ApiKeysService.step_keeps hservice
    exact ⟨hplaced.trans_le hkeeps.advances.history.length_le,
      hkeeps.advances.coherent hplaced hcoherent,
      fun call => hkeeps.validation keyHash call i hplaced (fun _ => hcoherent) (hvalidations call)⟩

/-- Where nobody has presented a key, validations of it are yet to start. -/
lemma Finds.of_unheard {keyHash : String} {i : ℕ} (hplaced : i < s.service.history.length)
    (h : Unheard c.hashApiKey s.service keyHash) : Finds c s keyHash i where
  placed := hplaced
  coherent := by
    apply Coherent.of_forgotten
    · show (s.service.validationCache.get keyHash).map _ = none
      rw [h.cached]
      rfl
    · exact h.inFlight
  validations call v hv hkey := absurd hkey (h.validations call v hv)

lemma Finds.run {keyHash : String} {i : ℕ} {es : List Event} (hfinds : Finds c s keyHash i)
    (h : Inv s) (hrun : run (ApiKeysController.step c) s es = some s') : Finds c s' keyHash i := by
  have hboth : Inv s' ∧ Finds c s' keyHash i :=
    run_invariant (I := fun u => Inv u ∧ Finds c u keyHash i)
      (fun _ _ _ hu hstep => ⟨hu.1.step hstep, hu.2.step hu.1 hstep⟩) ⟨h, hfinds⟩ hrun
  exact hboth.2

lemma unheard_start (table : Table) (keyHash : String) :
    Unheard c.hashApiKey (ApiKeysService.start table) keyHash where
  cached := rfl
  inFlight := rfl
  requests r hr := by cases hr
  validations call v hv := by cases hv

/-- What a validation returned is a row of some table, whatever its key. -/
lemma returned_inBounds {call : ℕ} {key : String} {value : Option ApiKeysService.ApiKeyRecord}
    (h : Inv s) (hfinds : Finds c s (c.hashApiKey key) 0)
    (hreturned : s.service.validations call = some ⟨key, .returned value⟩) :
    ∀ record ∈ value, InBounds record.rateLimitPerMinute record.monthlyQuota := by
  intro record hrecord
  obtain ⟨table, ⟨i, -, hi⟩, rfl⟩ := hfinds.validations call _ hreturned rfl
  obtain ⟨row, hrow, rfl⟩ := Option.map_eq_some_iff.mp hrecord
  exact h.bounded.rows table (List.mem_of_getElem? hi) row (List.mem_of_find?_eq_some hrow)

/-- The tables of a run follow those before it. -/
lemma history_of_run {es : List Event} (h : Inv s)
    (hrun : run (ApiKeysController.step c) s es = some s') :
    s.service.history <+: s'.service.history := by
  have hboth : Inv s' ∧ s.service.history <+: s'.service.history := by
    refine run_invariant (I := fun u => Inv u ∧ s.service.history <+: u.service.history)
      (fun u e u' hu hstep => ⟨hu.1.step hstep, ?_⟩) ⟨h, List.prefix_rfl⟩ hrun
    rcases step_service hu.1.creations hstep with heq | ⟨event, hservice, -, -⟩
    · rw [heq]
      exact hu.2
    · exact hu.2.trans (ApiKeysService.step_keeps hservice).advances.history
  exact hboth.2

/-- The database takes an insert. -/
lemma inserts_spec {call : ℕ} {now : ℤ} {creation : Creation}
    (hcreation : s.creations call = some creation) (hstep : step c s (.inserts call now) = some s') :
    ∃ table : Table, s'.service.history = s.service.history ++ [table] ∧
      creation.row c now ∈ table.rows := by
  simp only [step, hcreation] at hstep
  obtain ⟨service, hservice, rfl⟩ := Option.map_eq_some_iff.mp hstep
  obtain ⟨table, htable, rfl⟩ := Option.map_eq_some_iff.mp hservice
  refine ⟨table, rfl, ?_⟩
  unfold Table.create at htable
  split_ifs at htable
  cases htable
  exact List.mem_cons_self ..

/-- **A new key works at once**: for every interleaving of the requests of the admin with the
sections of the service, a validation of a key that nobody has presented before it was inserted
finds its row, or finds that it was revoked since. Every record that a validation of the run
returned, of this key or of any other, has limits that the controller accepts. -/
theorem created_key_found {table : Table} (htable : ∀ row ∈ table.rows, row.InBounds)
    {pre post : List Event} {t : System} {call : ℕ} {now : ℤ} {creation : Creation}
    (hpre : run (step c) { service := ApiKeysService.start table } pre = some s)
    (hcreation : s.creations call = some creation)
    (hnever : ∀ e ∈ pre, NotPresented c (c.hashApiKey creation.key) e)
    (hinsert : step c s (.inserts call now) = some s') (hpost : run (step c) s' post = some t) :
    (∀ validation key value, c.hashApiKey key = c.hashApiKey creation.key →
      t.service.validations validation = some ⟨key, .returned value⟩ →
      FoundSince t.service s.service.history.length (creation.row c now) value ∧
        ∀ record ∈ value, record.id = creation.id) ∧
      ∀ validation key value, t.service.validations validation = some ⟨key, .returned value⟩ →
        ∀ record ∈ value, InBounds record.rateLimitPerMinute record.monthlyQuota := by
  have hstart : Inv { service := ApiKeysService.start table } := inv_start htable
  have halong : Along (step c) (fun _ e => NotPresented c (c.hashApiKey creation.key) e)
      { service := ApiKeysService.start table } pre := along_of_forall _ _ hnever
  -- nothing is remembered of the key when it is inserted
  obtain ⟨hs, hunheard⟩ : Inv s ∧ Unheard c.hashApiKey s.service (c.hashApiKey creation.key) :=
    run_invariant_along
      (I := fun u => Inv u ∧ Unheard c.hashApiKey u.service (c.hashApiKey creation.key))
      (fun u e u' hu he hstep => ⟨hu.1.step hstep, unheard_step hu.1 hu.2 he hstep⟩)
      ⟨hstart, unheard_start table _⟩ halong hpre
  have hs' : Inv s' := hs.step hinsert
  have ht : Inv t := hs'.run hpost
  obtain ⟨inserted, hhistory, hrow⟩ := inserts_spec hcreation hinsert
  have hlength : s.service.history.length < s'.service.history.length := by
    rw [hhistory, List.length_append]
    exact Nat.lt_succ_self _
  -- from then on validations find the new table, or a later one
  have hfinds : Finds c t (c.hashApiKey creation.key) s.service.history.length := by
    refine Finds.run (.of_unheard hlength ?_) hs' hpost
    refine unheard_step hs hunheard (fun _ _ _ heq => ?_) hinsert
    cases heq
  have htable' : t.service.history[s.service.history.length]? = some inserted := by
    refine getElem?_of_prefix (history_of_run hs' hpost) ?_
    rw [hhistory, List.getElem?_concat_length]
  constructor
  · intro validation key value hkey hreturned
    have hfound : FoundSince t.service s.service.history.length (creation.row c now) value :=
      ApiKeysService.foundSince_of_current ht.placed htable' hrow
        (hfinds.validations validation _ hreturned hkey)
    refine ⟨hfound, fun record hrecord => ?_⟩
    obtain ⟨found, row, -, -, hid, -, rfl⟩ := hfound
    split_ifs at hrecord
    · cases hrecord
    · cases hrecord
      exact hid
  · -- from the start on, all of them find some table
    intro validation key value hreturned
    have hany : Finds c t (c.hashApiKey key) 0 :=
      (((Finds.of_unheard (Nat.zero_lt_succ _) (unheard_start table _)).run hstart hpre).step hs
        hinsert).run hs' hpost
    exact returned_inBounds ht hany hreturned

/-! ## A key that is created, used and revoked -/

/-- One date only, and nothing is encrypted or hashed. -/
def exampleConfig : Config where
  dates :=
    { newDate := fun value => if value = JsString.lit "2030-01-01" then some 1893456000000 else none
      clipped := by
        intro value t ht
        split_ifs at ht
        cases ht
        exact ⟨by decide, by decide⟩ }
  aes :=
    { encrypt := fun _ _ _ => ([], [])
      decrypt := fun _ _ _ _ => .ok "" }
  firecrawlKeysEncryptionKey := "".pushn '0' 64
  hashApiKey := id

def exampleDrawn : Drawn := ⟨(List.range 32).map UInt8.ofNat, "key-2", List.replicate 12 0⟩

/-- The body of a request for a key with all limits. -/
def exampleBody : JsonValue := .object
  [(JsString.lit "name", .string (JsString.lit "ci")),
    (JsString.lit "expires_at", .string (JsString.lit "2030-01-01")),
    (JsString.lit "rate_limit_per_minute", .number (.finite 60))]

/-- A key that was there before. -/
def olderKey : ApiKeysService.ApiKey where
  id := "key-1"
  name := "older"
  keyHash := "fc_older"
  keyValue := none
  keyPrefix := "fc_older"
  revoked := false
  createdAt := 0
  updatedAt := 0
  lastUsedAt := none
  expiresAt := none
  rateLimitPerMinute := some 100000
  monthlyQuota := none

def exampleTable : Table := ⟨[olderKey], List.nodup_singleton _, List.nodup_singleton _⟩

def exampleKey : String := "fc_AAECAwQFBgcICQoLDA0ODxAREhMUFRYXGBkaGxwdHh8"

def exampleCreation : Creation :=
  ⟨"key-2", "ci", exampleKey, "enc:v1:AAAAAAAAAAAAAAAA::",
    ⟨some (some 1893456000000), some (some 60), none⟩⟩

/-- A validation from its request to its end. -/
def validated (validation : ℕ) (key : String) (now : ℤ) : List Event :=
  [.service (.validateApiKey validation key now), .service (.query validation),
    .service (.fulfil validation), .service (.goOn validation now), .service (.returns validation)]

/-- The older key is validated before the insert of the new one, and the new one after it. -/
theorem created_key_found_ci : ∃ t : System,
    t.service.validations 0 = some ⟨"fc_older", .returned (some (ApiKeysService.toKey olderKey))⟩ ∧
    t.service.validations 1 = some ⟨exampleKey,
      .returned (some (ApiKeysService.toKey (exampleCreation.row exampleConfig 6)))⟩ ∧
    (ApiKeysService.toKey (exampleCreation.row exampleConfig 6)).id = "key-2" ∧
    InBounds (some 60) none ∧ InBounds (some 100000) none := by
  have hcreate : create exampleConfig exampleDrawn 5 exampleBody = .ok exampleCreation := by
    decide +kernel
  have hcreated : step exampleConfig { service := ApiKeysService.start exampleTable }
      (.create 0 exampleDrawn 5 exampleBody) = some (setCreation
        { service := ApiKeysService.start exampleTable } 0 exampleCreation) := by
    simp only [step, hcreate]
    rfl
  have hrun : ∃ s s' t, run (step exampleConfig) (setCreation
        { service := ApiKeysService.start exampleTable } 0 exampleCreation)
        (validated 0 "fc_older" 5) = some s ∧
      s.creations 0 = some exampleCreation ∧
      step exampleConfig s (.inserts 0 6) = some s' ∧
      run (step exampleConfig) s' (validated 1 exampleKey 7) = some t ∧
      t.service.validations 0 =
        some ⟨"fc_older", .returned (some (ApiKeysService.toKey olderKey))⟩ ∧
      t.service.validations 1 = some ⟨exampleKey,
        .returned (some (ApiKeysService.toKey (exampleCreation.row exampleConfig 6)))⟩ :=
    ⟨_, _, _, rfl, rfl, rfl, rfl, rfl, rfl⟩
  obtain ⟨s, s', t, hpre, hcreation, hinsert, hpost, holder, hnew⟩ := hrun
  have hnever : ∀ e ∈ Event.create 0 exampleDrawn 5 exampleBody :: validated 0 "fc_older" 5,
      NotPresented exampleConfig (exampleConfig.hashApiKey exampleCreation.key) e := by
    intro e he call key now heq
    rw [heq] at he
    simp only [validated, List.mem_cons, reduceCtorEq, false_or, Event.service.injEq,
      ApiKeysService.Event.validateApiKey.injEq, List.not_mem_nil, or_false] at he
    rw [he.2.1]
    decide
  have hinBounds : ∀ row ∈ exampleTable.rows, row.InBounds := by
    intro row hrow
    rw [List.mem_singleton.mp hrow]
    exact ⟨by decide, by decide⟩
  obtain ⟨hfinds, hbounds⟩ := created_key_found hinBounds
    ((run_cons_eq_some _).mpr ⟨_, hcreated, hpre⟩) hcreation hnever hinsert hpost
  exact ⟨t, holder, hnew, (hfinds 1 _ _ rfl hnew).2 _ rfl, hbounds 1 _ _ hnew _ rfl,
    hbounds 0 _ _ holder _ rfl⟩

end ApiKeysController
end FirecrawlGateway
