import FirecrawlGateway.ApiKeys.ApiKeysServiceTheorems
import FirecrawlGateway.Cron.CronServiceTheorems
import FirecrawlGateway.Cron.InactivitySweep

/-!
# When the inactivity step takes effect

A key that the step revokes is refused from then on exactly when the service held no record of it
at the moment the database took the statement.
-/

namespace FirecrawlGateway
namespace InactivitySweep

open ApiKeysService (Advances ApiKey ApiKeyRecord Change Current Follows Keeps Placed System Table
  ValidationCurrent toKey)
open CronService (Database inactive inactivityThreshold revokeInactiveKeys)
open EventMachine ReadThrough WriteHistory

/-! ## The statement -/

/-- The statement leaves behind the keys that the maintenance run does. -/
theorem revokeInactiveKeys_apiKeys (table : Table) {settings : SettingsController.Table}
    {db : Database} {now threshold : ℤ}
    (h : inactivityThreshold now (settings .apiKeyInactivityRevokeDays) = some (some threshold))
    (hkeys : db.apiKeys = table.rows.map apiKeyRow) (updatedAt : ℤ) :
    (revokeInactiveKeys now settings db).1.apiKeys =
      (revokeInactive table threshold updatedAt).rows.map apiKeyRow := by
  unfold revokeInactiveKeys revokeInactive
  simp only [h, hkeys, List.map_map]
  refine List.map_congr_left fun row _ => ?_
  show _ = apiKeyRow (sweepRow threshold updatedAt row)
  unfold sweepRow
  simp only [Function.comp_apply]
  split_ifs <;> rfl

lemma follows_revokeInactive (table : Table) (threshold now : ℤ) :
    Follows table (revokeInactive table threshold now) := by
  intro row hrow
  refine ⟨_, List.mem_map_of_mem hrow, sweepRow_id _ _ _, sweepRow_keyHash _ _ _, fun h => ?_⟩
  unfold sweepRow
  split_ifs
  · rfl
  · exact h

/-- A revoked row is no longer found. -/
lemma findFirst_revokeInactive {table : Table} {threshold : ℤ} (now : ℤ) {row : ApiKey}
    (hrow : row ∈ table.rows) (hinactive : inactive threshold (apiKeyRow row)) :
    (revokeInactive table threshold now).findFirst row.keyHash = none := by
  have hmem : sweepRow threshold now row ∈ (revokeInactive table threshold now).rows :=
    List.mem_map_of_mem hrow
  have hrevoked : (sweepRow threshold now row).revoked = true := by
    unfold sweepRow
    rw [if_pos hinactive]
    rfl
  have hfind := Table.findFirst_of_mem hmem
  rwa [sweepRow_keyHash, if_pos hrevoked] at hfind

/-! ## Steps -/

variable {hashApiKey : String → String} {s t : Instance}

lemma keeps_take (threshold now : ℤ) : Keeps hashApiKey s.service (take s threshold now).service :=
  .of_same (List.prefix_append _ _) rfl rfl rfl rfl

lemma placed_take (hp : Placed s.service) (threshold now : ℤ) :
    Placed (take s threshold now).service :=
  hp.of_table rfl (follows_revokeInactive _ _ _) fun _ _ _ _ hw _ => Or.inl hw

/-- What every step keeps. -/
lemma step_keeps {e : Event} {s' : Instance} (h : step hashApiKey s e = some s') :
    Keeps hashApiKey s.service s'.service ∧ (Placed s.service → Placed s'.service) := by
  have hrefl : Keeps hashApiKey s.service s.service :=
    .of_same List.prefix_rfl rfl rfl rfl rfl
  cases e with
  | service event =>
    obtain ⟨service, hservice, rfl⟩ := Option.map_eq_some_iff.mp h
    exact ⟨ApiKeysService.step_keeps hservice, fun hp => ApiKeysService.placed_step hp hservice⟩
  | revokeInactiveKeys call now value =>
    simp only [step] at h
    split_ifs at h
    split at h <;> cases h <;> exact ⟨hrefl, fun hp => hp⟩
  | takes call now =>
    simp only [step] at h
    split at h
    · cases h
      exact ⟨keeps_take _ now, fun hp => placed_take hp _ now⟩
    · cases h
  | returns call =>
    simp only [step] at h
    split at h
    · cases h
      exact ⟨hrefl, fun hp => hp⟩
    · cases h
  | rejects call =>
    simp only [step] at h
    split at h <;> cases h <;> exact ⟨hrefl, fun hp => hp⟩

/-! ## Calls that have not been made -/

/-- A section of the service is one of a single validation at most, and is its first one where the
validation is new. -/
lemma service_validations {u u' : System} {e : ApiKeysService.Event}
    (h : ApiKeysService.step hashApiKey u e = some u') : u'.validations = u.validations ∨
      ∃ call v, u'.validations = Function.update u.validations call (some v) ∧
        (u.validations call = none → ∃ key now, e = .validateApiKey call key now) := by
  cases e with
  | validateApiKey call key now =>
    simp only [ApiKeysService.step] at h
    split_ifs at h
    cases h
    rw [ApiKeysService.validateApiKey_eq]
    exact Or.inr ⟨call, _, rfl, fun _ => ⟨key, now, rfl⟩⟩
  | returns call =>
    simp only [ApiKeysService.step] at h
    split at h
    · rename_i hcall
      obtain ⟨progress, -, rfl⟩ := Option.map_eq_some_iff.mp h
      refine Or.inr ⟨call, _, rfl, fun hnew => ?_⟩
      rw [hcall] at hnew
      cases hnew
    · cases h
  | goOn n now =>
    simp only [ApiKeysService.step] at h
    split at h
    · cases h
      rw [ApiKeysService.goOn_eq]
      exact Or.inl rfl
    · cases h
      rw [ApiKeysService.leave_eq]
      exact Or.inl rfl
    · cases h
  | execute call now =>
    simp only [ApiKeysService.step] at h
    split at h
    · cases h
      rw [ApiKeysService.execute_eq]
      exact Or.inl rfl
    · cases h
  | changes id change now =>
    cases h
    rw [ApiKeysService.execute_eq]
    exact Or.inl rfl
  | creates row =>
    obtain ⟨table, -, rfl⟩ := Option.map_eq_some_iff.mp h
    exact Or.inl rfl
  | clearValidationCache =>
    cases h
    exact Or.inl rfl
  | revokeApiKey call id =>
    simp only [ApiKeysService.step] at h
    split_ifs at h
    cases h
    exact Or.inl rfl
  | updateApiKeyLimits call id limits =>
    simp only [ApiKeysService.step] at h
    split_ifs at h
    cases h
    exact Or.inl rfl
  | query n =>
    simp only [ApiKeysService.step] at h
    split at h <;> cases h
    exact Or.inl rfl
  | fulfil n =>
    simp only [ApiKeysService.step] at h
    split at h <;> cases h
    exact Or.inl rfl
  | reject n =>
    simp only [ApiKeysService.step] at h
    split at h <;> cases h <;> exact Or.inl rfl
  | resolves call =>
    simp only [ApiKeysService.step] at h
    split at h <;> cases h <;> exact Or.inl rfl
  | rejects call =>
    simp only [ApiKeysService.step] at h
    split at h <;> cases h
    exact Or.inl rfl

lemma step_validations {e : Event} {s' : Instance} (h : step hashApiKey s e = some s') :
    s'.service.validations = s.service.validations ∨
      ∃ call v, s'.service.validations = Function.update s.service.validations call (some v) ∧
        (s.service.validations call = none →
          ∃ key now, e = .service (.validateApiKey call key now)) := by
  cases e with
  | service event =>
    obtain ⟨service, hservice, rfl⟩ := Option.map_eq_some_iff.mp h
    refine (service_validations hservice).imp_right fun hupdate => ?_
    obtain ⟨call, v, hupdate, hstarts⟩ := hupdate
    refine ⟨call, v, hupdate, fun hnew => ?_⟩
    obtain ⟨key, now, rfl⟩ := hstarts hnew
    exact ⟨key, now, rfl⟩
  | revokeInactiveKeys call now value =>
    simp only [step] at h
    split_ifs at h
    split at h <;> cases h <;> exact Or.inl rfl
  | takes call now =>
    simp only [step] at h
    split at h <;> cases h
    exact Or.inl rfl
  | returns call =>
    simp only [step] at h
    split at h <;> cases h
    exact Or.inl rfl
  | rejects call =>
    simp only [step] at h
    split at h <;> cases h <;> exact Or.inl rfl

/-- What holds in every state that an instance reaches. -/
structure Reached (s : Instance) : Prop where
  placed : Placed s.service
  coherent : ∀ keyHash, Coherent s.service.view keyHash (Current s.service keyHash 0)
  unused : ∃ n, ∀ c, n ≤ c → s.service.validations c = none

lemma reached_start (table : Table) : Reached (start table) where
  placed := ApiKeysService.placed_start table
  coherent _ := .of_forgotten rfl rfl
  unused := ⟨0, fun _ _ => rfl⟩

lemma history_pos (s : System) : 0 < s.history.length := by
  unfold System.history
  rw [List.length_append]
  exact Nat.succ_pos _

lemma reached_step {e : Event} {s' : Instance} (hs : Reached s)
    (h : step hashApiKey s e = some s') : Reached s' where
  placed := (step_keeps h).2 hs.placed
  coherent keyHash := (step_keeps h).1.advances.coherent (history_pos _) (hs.coherent keyHash)
  unused := by
    obtain ⟨n, hn⟩ := hs.unused
    rcases step_validations h with hsame | ⟨call, v, hupdate, -⟩
    · exact ⟨n, fun c hc => hsame ▸ hn c hc⟩
    · refine ⟨max n (call + 1), fun c hc => ?_⟩
      rw [hupdate, Function.update_of_ne (by omega)]
      exact hn c (by omega)

lemma reached_of_run {table : Table} {es : List Event}
    (h : run (step hashApiKey) (start table) es = some s) : Reached s :=
  run_invariant (fun _ _ _ hs h => reached_step hs h) (reached_start table) h

/-! ## Clocks -/

/-- What `Date.now()` says in a section, if it is asked. -/
def Event.clock : Event → Option ℤ
  | .service (.validateApiKey _ _ now) => some now
  | .service (.goOn _ now) => some now
  | .revokeInactiveKeys _ now _ => some now
  | _ => none

/-- The clock does not go back in these sections, nor behind the time before them. -/
def NotBack (clock : ℤ) (es : List Event) : Prop :=
  (clock :: es.filterMap Event.clock).Pairwise (· ≤ ·)

lemma NotBack.le {clock : ℤ} {es : List Event} (h : NotBack clock es) :
    ∀ e ∈ es, ∀ now ∈ e.clock, clock ≤ now :=
  fun e he now hnow =>
    (List.pairwise_cons.mp h).1 now (List.mem_filterMap.mpr ⟨e, he, hnow⟩)

/-- Some time is before all sections. -/
lemma exists_clock_le (es : List Event) : ∃ clock, ∀ e ∈ es, ∀ now ∈ e.clock, clock ≤ now := by
  obtain ⟨clock, hclock⟩ := (es.filterMap Event.clock).toFinset.bddBelow
  refine ⟨clock, fun e he now hnow => hclock ?_⟩
  rw [Finset.mem_coe, List.mem_toFinset]
  exact List.mem_filterMap.mpr ⟨e, he, hnow⟩

/-- What a validation that starts from this time on may be given without a new request. -/
def HoldsFrom (clock : ℤ) (u : System) (keyHash : String) (value : Option ApiKeyRecord) : Prop :=
  (∃ e, u.validationCache.get keyHash = some e ∧ clock < e.expiresAt ∧ e.value = value) ∨
    ∃ n, u.validationInFlight.get keyHash = some n ∧ u.view.answer n = some value

lemma HoldsFrom.holds {clock : ℤ} {u : System} {keyHash : String} {value : Option ApiKeyRecord}
    (h : HoldsFrom clock u keyHash value) : Holds u.view keyHash value := by
  refine h.imp_left fun hcached => ?_
  obtain ⟨e, he, -, hvalue⟩ := hcached
  exact Option.map_eq_some_iff.mpr ⟨e, he, hvalue⟩

/-- Whatever is held is given at some time. -/
lemma exists_holdsFrom {u : System} {keyHash : String} {value : Option ApiKeyRecord}
    (h : Holds u.view keyHash value) : ∃ clock, HoldsFrom clock u keyHash value := by
  rcases h with hcached | hinflight
  · obtain ⟨e, he, hvalue⟩ := Option.map_eq_some_iff.mp hcached
    exact ⟨e.expiresAt - 1, Or.inl ⟨e, he, by omega, hvalue⟩⟩
  · exact ⟨0, Or.inr hinflight⟩

/-- From this time on, validations of the hash are given what the `i`-th table has, or a later
one: an entry that has expired need not be of those. -/
structure FreshFrom (clock : ℤ) (u : System) (keyHash : String) (i : ℕ) : Prop where
  cached : ∀ e, u.validationCache.get keyHash = some e → clock < e.expiresAt →
    Current u keyHash i e.value
  inflight : ∀ n, u.validationInFlight.get keyHash = some n →
    Serves u.view keyHash (Current u keyHash i) n

lemma FreshFrom.step {clock : ℤ} {u u' : System} {keyHash : String} {i : ℕ}
    (h : FreshFrom clock u keyHash i) (hadvances : Advances u u') (hi : i < u.history.length) :
    FreshFrom clock u' keyHash i where
  cached e he hfresh := by
    rcases hadvances.entry keyHash e he with hold | ⟨n, hn, hanswer⟩
    · exact hadvances.current _ (h.cached e hold hfresh)
    · exact hadvances.current _ ((h.inflight n hn).answer _ hanswer)
  inflight := (hadvances.view keyHash i hi).serves h.inflight hadvances.current

/-- A validation that starts, or goes on, at such a time. -/
lemma validationCurrent_step {e : Event} {s' : Instance} {clock : ℤ} {keyHash : String} {i c : ℕ}
    (h : step hashApiKey s e = some s') (hi : i < s.service.history.length)
    (hfresh : FreshFrom clock s.service keyHash i) (hclock : ∀ now ∈ e.clock, clock ≤ now)
    (hcurrent : ValidationCurrent hashApiKey s.service keyHash c i) :
    ValidationCurrent hashApiKey s'.service keyHash c i := by
  by_cases hnew : s.service.validations c = none
  · intro v hv hkey
    rcases step_validations h with hsame | ⟨call, w, hupdate, hstarts⟩
    · rw [hsame, hnew] at hv
      cases hv
    · by_cases hcall : c = call
      · obtain rfl := hcall
        obtain ⟨key, now, rfl⟩ := hstarts hnew
        simp only [step, ApiKeysService.step, hnew, ne_eq, not_true_eq_false, if_false,
          Option.map_some] at h
        obtain rfl := (Option.some.inj h).symm
        obtain rfl : (⟨key, _⟩ : ApiKeysService.Validation) = v := by
          simpa [ApiKeysService.setValidation] using hv
        subst hkey
        -- an entry that it takes has not expired
        obtain ⟨-, -, hlookup⟩ :=
          ApiKeysService.validateApiKey_begins s.service (hashApiKey key) now
        refine hlookup i hi (fun e he => ?_) hfresh.inflight
        obtain ⟨hget, hlater⟩ := Option.filter_eq_some_iff.mp he
        exact hfresh.cached e hget ((hclock now rfl).trans_lt (of_decide_eq_true hlater))
      · rw [hupdate, Function.update_of_ne hcall, hnew] at hv
        cases hv
  · exact (step_keeps h).1.validation keyHash c i hi (fun hnone => absurd hnone hnew) hcurrent

/-! ## After the step -/

/-- From a moment on at which all that is given for a hash comes from the present table, validations
find that table or a later one. -/
lemma fresh_of_run {clock : ℤ} {keyHash : String} {i : ℕ} {es : List Event}
    (hi : i < s.service.history.length) (hfresh : FreshFrom clock s.service keyHash i)
    (hclock : ∀ e ∈ es, ∀ now ∈ e.clock, clock ≤ now) (hrun : run (step hashApiKey) s es = some t) :
    i < t.service.history.length ∧ FreshFrom clock t.service keyHash i ∧
      ∀ c, ValidationCurrent hashApiKey s.service keyHash c i →
        ValidationCurrent hashApiKey t.service keyHash c i := by
  have halong : Along (step hashApiKey) (fun _ e => ∀ now ∈ e.clock, clock ≤ now) s es :=
    along_of_forall _ s hclock
  refine run_invariant_along
    (I := fun u => i < u.service.history.length ∧ FreshFrom clock u.service keyHash i ∧
      ∀ c, ValidationCurrent hashApiKey s.service keyHash c i →
        ValidationCurrent hashApiKey u.service keyHash c i)
    (fun u e u' hu he h => ?_) ⟨hi, hfresh, fun _ hc => hc⟩ halong hrun
  obtain ⟨hlen, hfresh, hvalidations⟩ := hu
  obtain ⟨hkeeps, -⟩ := step_keeps h
  exact ⟨hlen.trans_le hkeeps.advances.history.length_le, hfresh.step hkeeps.advances hlen,
    fun c hc => validationCurrent_step h hlen hfresh he (hvalidations c hc)⟩

lemma history_of_run {es : List Event} (hrun : run (step hashApiKey) s es = some t) :
    s.service.history <+: t.service.history := by
  refine run_invariant (I := fun u => s.service.history <+: u.service.history)
    (fun u e u' hu h => ?_) List.prefix_rfl hrun
  exact hu.trans (step_keeps h).1.advances.history

/-- The table of the step is the last one. -/
lemma getLast_take (threshold now : ℤ) : (take s threshold now).service.history.getLast? =
    some (revokeInactive s.service.table threshold now) := by
  simp [take, System.history]

/-- Where the service gives no record of a revoked key, all it gives comes from the table of the
step. -/
lemma fresh_take (hs : Reached s) {clock threshold : ℤ} (now : ℤ) {row : ApiKey}
    (hrow : row ∈ s.service.table.rows) (hinactive : inactive threshold (apiKeyRow row))
    (hclear : ∀ value, HoldsFrom clock s.service row.keyHash value → value = none) :
    FreshFrom clock (take s threshold now).service row.keyHash s.service.history.length := by
  have hcurrent : Current (take s threshold now).service row.keyHash
      s.service.history.length none := by
    refine ⟨_, Since.of_last (getLast_take threshold now) ?_, ?_⟩
    · show s.service.history.length < (s.service.history ++ [_]).length
      rw [List.length_append]
      exact Nat.lt_succ_self _
    · rw [findFirst_revokeInactive now hrow hinactive]
      rfl
  constructor
  · intro e he hfresh
    rw [hclear e.value (Or.inl ⟨e, he, hfresh, rfl⟩)]
    exact hcurrent
  · intro n hn
    refine ⟨((hs.coherent row.keyHash).inflight n hn).key, fun value hvalue => ?_⟩
    rw [hclear value (Or.inr ⟨n, hn, hvalue⟩)]
    exact hcurrent

/-- A validation that finds the table of the step or a later one comes to nothing. -/
lemma eq_none_of_current (hp : Placed t.service) {i : ℕ} {table : Table} {row : ApiKey}
    (htable : t.service.history[i]? = some table) (hrow : row ∈ table.rows)
    (hrevoked : row.revoked = true) {value : Option ApiKeyRecord}
    (h : Current t.service row.keyHash i value) : value = none := by
  obtain ⟨table', row', -, -, -, hrevoked', rfl⟩ :=
    ApiKeysService.foundSince_of_current hp htable hrow h
  exact if_pos (hrevoked' hrevoked)

/-- Where the service gives no record of a key that the step revokes from some time on, validations
that start after the step, at such times, come to nothing. -/
lemma refused_of_clear (hs : Reached s) {clock threshold now : ℤ} {row : ApiKey}
    (hrow : row ∈ s.service.table.rows) (hinactive : inactive threshold (apiKeyRow row))
    (hclear : ∀ value, HoldsFrom clock s.service row.keyHash value → value = none)
    {call : ℕ} (hsent : s.sweeps call = some (.sent threshold)) {s₁ s₂ : Instance}
    (htakes : step hashApiKey s (.takes call now) = some s₁) {between post : List Event}
    (hbetween : run (step hashApiKey) s₁ between = some s₂)
    (hpost : run (step hashApiKey) s₂ (.returns call :: post) = some t)
    (hclock : ∀ e ∈ between ++ post, ∀ now ∈ e.clock, clock ≤ now) {c : ℕ} {key : String}
    (hkey : hashApiKey key = row.keyHash) (hnew : s₂.service.validations c = none)
    {value : Option ApiKeyRecord}
    (hreturned : t.service.validations c = some ⟨key, .returned value⟩) : value = none := by
  have hs₁ := reached_step hs htakes
  obtain rfl : setSweep (take s threshold now) call .taken = s₁ := by
    simpa [step, hsent] using htakes
  have hhistory : (setSweep (take s threshold now) call .taken).service.history =
    s.service.history ++ [revokeInactive s.service.table threshold now] := rfl
  have hi : s.service.history.length <
      (setSweep (take s threshold now) call .taken).service.history.length := by
    rw [hhistory, List.length_append]
    exact Nat.lt_succ_self _
  have hfresh := fresh_take hs now hrow hinactive hclear
  -- what is found between the statement and the return of the step is current as well
  obtain ⟨hi₂, hfresh₂, -⟩ := fresh_of_run hi hfresh
    (fun e he => hclock e (List.mem_append_left _ he)) hbetween
  have hclock₂ : ∀ e ∈ Event.returns call :: post, ∀ now ∈ e.clock, clock ≤ now := by
    refine List.forall_mem_cons.mpr ⟨fun now hnow => ?_, fun e he => ?_⟩
    · cases hnow
    · exact hclock e (List.mem_append_right _ he)
  obtain ⟨-, -, hvalidations⟩ := fresh_of_run hi₂ hfresh₂ hclock₂ hpost
  have hcurrent : Current t.service row.keyHash s.service.history.length value :=
    hvalidations c (fun v hv => by rw [hnew] at hv; cases hv) _ hreturned hkey
  -- the table of the step is still there, with the row
  have htable : t.service.history[s.service.history.length]? =
      some (revokeInactive s.service.table threshold now) := by
    refine getElem?_of_prefix ((history_of_run hbetween).trans (history_of_run hpost)) ?_
    rw [hhistory, List.getElem?_concat_length]
  have hrevoked : (sweepRow threshold now row).revoked = true := by
    unfold sweepRow
    rw [if_pos hinactive]
    rfl
  rw [← sweepRow_keyHash threshold now row] at hcurrent
  have ht : Placed t.service := by
    have hs₂ := run_invariant (fun _ _ _ hs h => reached_step hs h) hs₁ hbetween
    exact (run_invariant (fun _ _ _ hs h => reached_step hs h) hs₂ hpost).placed
  exact eq_none_of_current ht htable (List.mem_map_of_mem hrow) hrevoked hcurrent

/-! ## What is held is handed out -/

lemma step_validateApiKey {u u₁ : System} {c : ℕ} {key : String} {now : ℤ}
    {lookup : Lookup (Option ApiKeyRecord)} (hnew : u.validations c = none)
    (h : ApiKeysService.validateApiKey u (hashApiKey key) now = (u₁, lookup)) :
    ApiKeysService.step hashApiKey u (.validateApiKey c key now) =
      some (ApiKeysService.setValidation u₁ c ⟨key, .waiting lookup⟩) := by
  simp only [ApiKeysService.step, hnew, h, ne_eq, not_true_eq_false, if_false]

lemma step_returns {u : System} {c : ℕ} {key : String} {lookup : Lookup (Option ApiKeyRecord)}
    {progress : ApiKeysService.Progress} (hc : u.validations c = some ⟨key, .waiting lookup⟩)
    (h : ApiKeysService.settled u lookup = some progress) :
    ApiKeysService.step hashApiKey u (.returns c) =
      some (ApiKeysService.setValidation u c ⟨key, progress⟩) := by
  simp only [ApiKeysService.step, hc, h, Option.map_some]

/-- A validation joins the request in flight, once a cached entry has expired. -/
lemma validate_joins {u : System} {keyHash : String} {n : ℕ} (clock : ℤ)
    (hn : u.validationInFlight.get keyHash = some n) :
    ∃ now, clock ≤ now ∧ ApiKeysService.validateApiKey u keyHash now =
      ({ u with validationCache := u.validationCache.delete keyHash }, .request n) := by
  obtain ⟨now, hle, hnow⟩ :
      ∃ now, clock ≤ now ∧ ApiKeysService.freshEntry u keyHash now = none := by
    unfold ApiKeysService.freshEntry
    cases u.validationCache.get keyHash with
    | none => exact ⟨clock, le_rfl, rfl⟩
    | some e => exact ⟨max clock e.expiresAt, le_max_left _ _, by simp [Option.filter]⟩
  refine ⟨now, hle, ?_⟩
  unfold ApiKeysService.validateApiKey
  rw [hnow]
  simp only [hn]

/-- A validation that waits for a request with an answer may return it. -/
lemma exists_returned_of_request (hashApiKey : String → String) {u : System} {c n : ℕ} {key : String}
    {value : Option ApiKeyRecord} (hc : u.validations c = some ⟨key, .waiting (.request n)⟩)
    (hanswer : u.view.answer n = some value) :
    ∃ es u', run (ApiKeysService.step hashApiKey) u es = some u' ∧
      u'.validations c = some ⟨key, .returned value⟩ ∧
      (es.map Event.service).filterMap Event.clock = [] := by
  obtain ⟨r, hr, hanswer⟩ := Option.bind_eq_some_iff.mp hanswer
  have hreturns : ∀ u : System, u.validations c = some ⟨key, .waiting (.request n)⟩ →
      ((u.requests[n]?).map ApiKeysService.Request.answer = some (.fulfilled value)) →
      ApiKeysService.step hashApiKey u (.returns c) =
        some (ApiKeysService.setValidation u c ⟨key, .returned value⟩) := by
    intro u hc hr
    refine step_returns hc ?_
    simp only [ApiKeysService.settled, hr]
  cases hstate : r.answer with
  | asked =>
    rw [hstate] at hanswer
    cases hanswer
  | rejected =>
    rw [hstate] at hanswer
    cases hanswer
  | fulfilled value' =>
    rw [hstate] at hanswer
    cases hanswer
    have hstep := hreturns u hc (by rw [hr, Option.map_some, hstate])
    exact ⟨[.returns c], _, (run_cons_eq_some _).mpr ⟨_, hstep, rfl⟩, Function.update_self _ _ _,
      rfl⟩
  | read row =>
    rw [hstate] at hanswer
    cases hanswer
    -- the answer is on its way
    have hfulfil : ApiKeysService.step hashApiKey u (.fulfil n) =
        some (ApiKeysService.setAnswer u n (.fulfilled (row.map toKey))) := by
      obtain ⟨keyHash, answer, awaited⟩ := r
      obtain rfl : answer = .read row := hstate
      simp only [ApiKeysService.step, hr]
    have hanswered : ((ApiKeysService.setAnswer u n (.fulfilled (row.map toKey))).requests[n]?).map
        ApiKeysService.Request.answer = some (.fulfilled (row.map toKey)) := by
      show ((u.requests.modify n _)[n]?).map _ = _
      rw [List.getElem?_modify_eq, hr]
      rfl
    have hstep := hreturns (ApiKeysService.setAnswer u n (.fulfilled (row.map toKey))) hc hanswered
    exact ⟨[.fulfil n, .returns c], _, (run_cons_eq_some _).mpr ⟨_, hfulfil,
      (run_cons_eq_some _).mpr ⟨_, hstep, rfl⟩⟩, Function.update_self _ _ _, rfl⟩

/-- Whatever the service gives for a key from some time on, a validation may return. -/
lemma exists_returned {u : System} {clock : ℤ} {c : ℕ} {key : String} {value : Option ApiKeyRecord}
    (hnew : u.validations c = none) (hholds : HoldsFrom clock u (hashApiKey key) value) :
    ∃ es u' now, run (ApiKeysService.step hashApiKey) u es = some u' ∧
      u'.validations c = some ⟨key, .returned value⟩ ∧ clock ≤ now ∧
      (es.map Event.service).filterMap Event.clock = [now] := by
  rcases hholds with ⟨e, he, hlater, rfl⟩ | ⟨n, hn, hanswer⟩
  · have hfresh : ApiKeysService.freshEntry u (hashApiKey key) clock = some e := by
      unfold ApiKeysService.freshEntry
      rw [he]
      simpa [Option.filter] using hlater
    have hvalidate : ApiKeysService.validateApiKey u (hashApiKey key) clock =
        (u, .value e.value) := by
      unfold ApiKeysService.validateApiKey
      rw [hfresh]
    have hbegins := step_validateApiKey hnew hvalidate
    have hreturns : ApiKeysService.step hashApiKey
        (ApiKeysService.setValidation u c ⟨key, .waiting (.value e.value)⟩) (.returns c) =
          some (ApiKeysService.setValidation _ c ⟨key, .returned e.value⟩) :=
      step_returns (Function.update_self _ _ _) rfl
    exact ⟨[.validateApiKey c key clock, .returns c], _, clock, (run_cons_eq_some _).mpr
      ⟨_, hbegins, (run_cons_eq_some _).mpr ⟨_, hreturns, rfl⟩⟩, Function.update_self _ _ _, le_rfl,
      rfl⟩
  · obtain ⟨now, hle, hvalidate⟩ := validate_joins clock hn
    have hbegins := step_validateApiKey hnew hvalidate
    have hwaiting : (ApiKeysService.setValidation
        { u with validationCache := u.validationCache.delete (hashApiKey key) } c
          ⟨key, .waiting (.request n)⟩).validations c = some ⟨key, .waiting (.request n)⟩ :=
      Function.update_self _ _ _
    obtain ⟨es, u', hrun, hreturned, hclock⟩ :=
      exists_returned_of_request hashApiKey hwaiting hanswer
    refine ⟨.validateApiKey c key now :: es, u', now, (run_cons_eq_some _).mpr ⟨_, hbegins, hrun⟩,
      hreturned, hle, ?_⟩
    rw [List.map_cons, List.filterMap_cons, hclock]
    rfl

/-! ## Main result -/

/-- A run of the service alone. -/
lemma run_service {es : List ApiKeysService.Event} {u : System}
    (h : run (ApiKeysService.step hashApiKey) s.service es = some u) :
    run (step hashApiKey) s (es.map .service) = some { s with service := u } := by
  induction es generalizing s with
  | nil =>
    cases h
    rfl
  | cons e es ih =>
    obtain ⟨u', hu', hrun⟩ := (run_cons_eq_some _).mp h
    have hstep : step hashApiKey s (.service e) = some { s with service := u' } := by
      simp only [step, hu', Option.map_some]
    exact (run_cons_eq_some _).mpr ⟨_, hstep, ih hrun⟩

/-- What is given from some time on, a validation that starts after the step may return. -/
lemma exists_returned_after (hs : Reached s) {clock threshold now : ℤ} {call : ℕ} {s₁ : Instance}
    (hsent : s.sweeps call = some (.sent threshold))
    (htakes : step hashApiKey s (.takes call now) = some s₁) {key : String}
    {value : Option ApiKeyRecord} (hholds : HoldsFrom clock s.service (hashApiKey key) value) :
    ∃ (post : List Event) (t : Instance) (c : ℕ),
      run (step hashApiKey) s₁ (.returns call :: post) = some t ∧ NotBack clock post ∧
        s₁.service.validations c = none ∧
          t.service.validations c = some ⟨key, .returned value⟩ := by
  have hs₁ := reached_step hs htakes
  obtain rfl : setSweep (take s threshold now) call .taken = s₁ := by
    simpa [step, hsent] using htakes
  obtain ⟨n, hn⟩ := hs₁.unused
  have hreturns : step hashApiKey (setSweep (take s threshold now) call .taken) (.returns call) =
      some (setSweep (setSweep (take s threshold now) call .taken) call .returned) := by
    simp [step, setSweep]
  obtain ⟨es, u, time, hrun, hreturned, hle, hclock⟩ := exists_returned (hn n le_rfl)
    (show HoldsFrom clock (take s threshold now).service (hashApiKey key) value from hholds)
  refine ⟨es.map .service, _, n, (run_cons_eq_some _).mpr ⟨_, hreturns, run_service hrun⟩, ?_,
    hn n le_rfl, hreturned⟩
  unfold NotBack
  rw [hclock]
  exact List.pairwise_pair.mpr hle

/-- **When revocation by maintenance takes effect**: over every run and every continuation. `row` is
revoked by the statement that the database takes from `s` to `s₁`. Validations of its key that start
after the step has returned come to nothing, whatever happens in between and afterwards, exactly
when the service held no record of the key in `s`. -/
theorem sweep_refuses_iff (hashApiKey : String → String) (table : Table) (pre : List Event)
    (s s₁ : Instance) (call : ℕ) (threshold now : ℤ) (row : ApiKey) (key : String)
    (hpre : run (step hashApiKey) (start table) pre = some s)
    (hsent : s.sweeps call = some (.sent threshold)) (hrow : row ∈ s.service.table.rows)
    (hinactive : inactive threshold (apiKeyRow row)) (hkey : hashApiKey key = row.keyHash)
    (htakes : step hashApiKey s (.takes call now) = some s₁) :
    (∀ (between post : List Event) (s₂ t : Instance) (c : ℕ) (value : Option ApiKeyRecord),
      run (step hashApiKey) s₁ between = some s₂ →
      run (step hashApiKey) s₂ (.returns call :: post) = some t →
      s₂.service.validations c = none →
      t.service.validations c = some ⟨key, .returned value⟩ → value = none) ↔
    ∀ value, Holds s.service.view (hashApiKey key) value → value = none := by
  have hs := reached_of_run hpre
  constructor
  · intro hrefused value hholds
    obtain ⟨clock, hclock⟩ := exists_holdsFrom hholds
    obtain ⟨post, t, c, hpost, -, hnew, hreturned⟩ := exists_returned_after hs hsent htakes hclock
    exact hrefused [] post s₁ t c value rfl hpost hnew hreturned
  · intro hclear between post s₂ t c value hbetween hpost hnew hreturned
    rw [hkey] at hclear
    obtain ⟨clock, hclock⟩ := exists_clock_le (between ++ post)
    exact refused_of_clear hs hrow hinactive (fun value hvalue => hclear value hvalue.holds) hsent
      htakes hbetween hpost hclock hkey hnew hreturned

/-- The same for a clock that does not go back behind some time: then an entry that has expired by
it does not count. -/
theorem sweep_refuses_iff_of_clock (hashApiKey : String → String) (table : Table)
    (pre : List Event) (s s₁ : Instance) (call : ℕ) (threshold now clock : ℤ) (row : ApiKey)
    (key : String) (hpre : run (step hashApiKey) (start table) pre = some s)
    (hsent : s.sweeps call = some (.sent threshold)) (hrow : row ∈ s.service.table.rows)
    (hinactive : inactive threshold (apiKeyRow row)) (hkey : hashApiKey key = row.keyHash)
    (htakes : step hashApiKey s (.takes call now) = some s₁) :
    (∀ (between post : List Event) (s₂ t : Instance) (c : ℕ) (value : Option ApiKeyRecord),
      run (step hashApiKey) s₁ between = some s₂ →
      run (step hashApiKey) s₂ (.returns call :: post) = some t →
      NotBack clock (between ++ post) → s₂.service.validations c = none →
      t.service.validations c = some ⟨key, .returned value⟩ → value = none) ↔
    ∀ value, HoldsFrom clock s.service (hashApiKey key) value → value = none := by
  have hs := reached_of_run hpre
  constructor
  · intro hrefused value hholds
    obtain ⟨post, t, c, hpost, hback, hnew, hreturned⟩ :=
      exists_returned_after hs hsent htakes hholds
    exact hrefused [] post s₁ t c value rfl hpost hback hnew hreturned
  · intro hclear between post s₂ t c value hbetween hpost hback hnew hreturned
    rw [hkey] at hclear
    exact refused_of_clear hs hrow hinactive hclear hsent htakes hbetween hpost hback.le hkey hnew
      hreturned

/-! ## Two runs -/

lemma step_revokeInactiveKeys {call : ℕ} {now threshold : ℤ} {value : Option String}
    (hnew : s.sweeps call = none) (h : inactivityThreshold now value = some (some threshold)) :
    step hashApiKey s (.revokeInactiveKeys call now value) =
      some (setSweep s call (.sent threshold)) := by
  simp [step, hnew, h]

/-- The step of a maintenance run, with thirty days. -/
def sweepEvent : Event :=
  .revokeInactiveKeys 0 1767312000000 (some (NumberText.numberToString (30 : ℕ)))

lemma step_sweepEvent (hnew : s.sweeps 0 = none) :
    step hashApiKey s sweepEvent = some (setSweep s 0 (.sent 1764720000000)) :=
  step_revokeInactiveKeys hnew
    (CronService.inactivityThreshold_whole (by decide) (by decide) (by decide))

/-- The instance when the database has taken the statement, and when the step has returned. -/
def sweepTaken (s : Instance) : Instance :=
  setSweep (take (setSweep s 0 (.sent 1764720000000)) 1764720000000 1767312000100) 0 .taken

def sweepReturned (s : Instance) : Instance := setSweep (sweepTaken s) 0 .returned

lemma run_sweep (hnew : s.sweeps 0 = none) :
    run (step hashApiKey) s [sweepEvent, .takes 0 1767312000100, .returns 0] =
      some (sweepReturned s) := by
  rw [run_cons, step_sweepEvent hnew, Option.bind_some, run_cons]
  simp [step, sweepReturned, sweepTaken, setSweep, run_cons]

/-- A key that was used lately. -/
def usedKey : ApiKey :=
  ⟨"key-2", "used", "hash:fc_b", none, "fc_b", false, 0, 0, some 1767311990000, none, none, none⟩

def twoKeys : Table := ⟨[ApiKeysService.sampleKey, usedKey], by decide, by decide⟩

/-- The key in use is cached, and a lookup of the other one waits for the database. -/
def lookupEvents : List Event :=
  [.service (.validateApiKey 0 "fc_b" 1767311990000), .service (.query 0), .service (.fulfil 0),
    .service (.goOn 0 1767311990000), .service (.returns 0),
    .service (.validateApiKey 1 "fc_a" 1767311999000)]

/-- A key that is not cached when the step revokes it is refused: the lookup is taken by the
database afterwards. -/
theorem sweep_refuses_uncached : ∃ s : Instance,
    run (step ("hash:" ++ ·)) (start twoKeys) lookupEvents = some s ∧
    (s.service.validationCache.get "hash:fc_b").map (·.value) = some (some (toKey usedKey)) ∧
    s.service.validationInFlight.get "hash:fc_a" = some 1 ∧
    (sweepTaken s).service.table.rows.map ApiKey.revoked = [true, false] ∧
    ∀ (between post : List Event) (s₂ t : Instance) (c : ℕ) (value : Option ApiKeyRecord),
      run (step ("hash:" ++ ·)) (sweepTaken s) between = some s₂ →
      run (step ("hash:" ++ ·)) s₂ (.returns 0 :: post) = some t →
      s₂.service.validations c = none →
      t.service.validations c = some ⟨"fc_a", .returned value⟩ → value = none := by
  have hrun : ∃ s : Instance,
      run (step ("hash:" ++ ·)) (start twoKeys) lookupEvents = some s ∧
      s.sweeps 0 = none ∧ s.service.table.rows = [ApiKeysService.sampleKey, usedKey] ∧
      (s.service.validationCache.get "hash:fc_b").map (·.value) = some (some (toKey usedKey)) ∧
      s.service.validationCache.get "hash:fc_a" = none ∧
      s.service.validationInFlight.get "hash:fc_a" = some 1 ∧ s.service.view.answer 1 = none ∧
      (sweepTaken s).service.table.rows.map ApiKey.revoked = [true, false] :=
    ⟨_, rfl, rfl, rfl, rfl, rfl, rfl, rfl, rfl⟩
  obtain ⟨s, hs, hnew, hrows, hused, huncached, hinFlight, hanswer, hrevoked⟩ := hrun
  refine ⟨s, hs, hused, hinFlight, hrevoked, (sweep_refuses_iff ("hash:" ++ ·) twoKeys
    (lookupEvents ++ [sweepEvent]) (setSweep s 0 (.sent 1764720000000)) _ 0 1764720000000
    1767312000100 ApiKeysService.sampleKey "fc_a" ?_ ?_ ?_ (by decide) rfl ?_).mpr ?_⟩
  · rw [run_append, hs, Option.bind_some, run_cons, step_sweepEvent hnew]
    rfl
  · simp [setSweep]
  · show ApiKeysService.sampleKey ∈ s.service.table.rows
    rw [hrows]
    exact List.mem_cons_self
  · simp [step, setSweep, sweepTaken]
  · rintro value (hcached | ⟨n, hn, hvalue⟩)
    · have hnone : s.service.view.cached "hash:fc_a" = none := by
        show (s.service.validationCache.get "hash:fc_a").map _ = none
        rw [huncached]
        rfl
      cases hnone.symm.trans hcached
    · obtain rfl : 1 = n := Option.some.inj (hinFlight.symm.trans hn)
      cases hanswer.symm.trans hvalue

/-- The key is validated, and its record is cached. -/
def warmEvents : List Event :=
  [.service (.validateApiKey 0 "fc_a" 1767311990000), .service (.query 0), .service (.fulfil 0),
    .service (.goOn 0 1767311990000), .service (.returns 0)]

def warmInstance : Instance :=
  (run (step ("hash:" ++ ·)) (start ApiKeysService.sampleTable) warmEvents).getD
    (start ApiKeysService.sampleTable)

/-- A key that is in the cache when the step revokes it passes for as long as its entry lasts. -/
theorem sweep_overlooks_cached :
    run (step ("hash:" ++ ·)) (start ApiKeysService.sampleTable)
      (warmEvents ++ [sweepEvent, .takes 0 1767312000100, .returns 0]) =
        some (sweepReturned warmInstance) ∧
    (sweepReturned warmInstance).service.table.rows.map ApiKey.revoked = [true] ∧
    (sweepReturned warmInstance).service.validations 1 = none ∧
    ∃ t, run (step ("hash:" ++ ·)) (sweepReturned warmInstance)
        [.service (.validateApiKey 1 "fc_a" 1767312000500), .service (.returns 1)] = some t ∧
      t.service.validations 1 =
        some ⟨"fc_a", .returned (some (toKey ApiKeysService.sampleKey))⟩ := by
  have hwarm : run (step ("hash:" ++ ·)) (start ApiKeysService.sampleTable) warmEvents =
      some warmInstance := by
    obtain ⟨u, hu⟩ : ∃ u, run (step ("hash:" ++ ·)) (start ApiKeysService.sampleTable) warmEvents =
      some u := ⟨_, rfl⟩
    unfold warmInstance
    rw [hu]
    rfl
  refine ⟨?_, rfl, rfl, _, rfl, rfl⟩
  have hnew : warmInstance.sweeps 0 = none := rfl
  rw [run_append, hwarm, Option.bind_some, run_sweep hnew]

end InactivitySweep
end FirecrawlGateway
