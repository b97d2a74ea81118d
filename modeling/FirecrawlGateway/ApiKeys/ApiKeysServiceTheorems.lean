import FirecrawlGateway.ApiKeys.ApiKeysService

/-!
# Revocation and limit changes take effect at once

Once `revokeApiKey` or `updateApiKeyLimits` has resolved, whatever the service may hand out for
the key comes from the table as the update left it, or from a later one. Rows are never deleted
and never un-revoked, so a validation that starts then cannot return a revoked key.
-/

namespace FirecrawlGateway
namespace ApiKeysService

open EventMachine ReadThrough WriteHistory

/-! ## Tables -/

/-- Every row stays, with its id and hash, and stays revoked. -/
def Follows (table table' : Table) : Prop :=
  ∀ row ∈ table.rows, ∃ row' ∈ table'.rows, row'.id = row.id ∧ row'.keyHash = row.keyHash ∧
    (row.revoked = true → row'.revoked = true)

lemma Follows.refl (table : Table) : Follows table table :=
  fun row hrow => ⟨row, hrow, rfl, rfl, id⟩

lemma Follows.trans {t t' t'' : Table} (h : Follows t t') (h' : Follows t' t'') :
    Follows t t'' := by
  intro row hrow
  obtain ⟨row', hrow', hid', hhash', hrev'⟩ := h row hrow
  obtain ⟨row'', hrow'', hid'', hhash'', hrev''⟩ := h' row' hrow'
  exact ⟨row'', hrow'', hid''.trans hid', hhash''.trans hhash', fun hr => hrev'' (hrev' hr)⟩

lemma follows_update (table : Table) (id : String) (change : Change) (now : ℤ) :
    Follows table (table.update id change now) := by
  intro row hrow
  refine ⟨_, List.mem_map_of_mem hrow, ?_⟩
  by_cases hid : row.id = id
  · rw [if_pos hid]
    exact ⟨change.apply_id now row, change.apply_keyHash now row, change.apply_revoked⟩
  · rw [if_neg hid]
    exact ⟨rfl, rfl, fun h => h⟩

lemma follows_create {table table' : Table} {row : ApiKey} (h : table.create row = some table') :
    Follows table table' := by
  unfold Table.create at h
  split_ifs at h
  cases h
  exact fun r hr => ⟨r, List.mem_cons_of_mem _ hr, rfl, rfl, fun h => h⟩

/-- A hash finds its row, unless that is revoked. -/
lemma Table.findFirst_of_mem {table : Table} {row : ApiKey} (hrow : row ∈ table.rows) :
    table.findFirst row.keyHash = if row.revoked then none else some row := by
  have hsame : ∀ r ∈ table.rows, r.keyHash = row.keyHash → r = row := fun r hr hhash =>
    List.inj_on_of_nodup_map table.keyHashes hr hrow hhash
  unfold Table.findFirst
  by_cases hrevoked : row.revoked = true
  · rw [if_pos hrevoked, List.find?_eq_none]
    intro r hr hfound
    obtain ⟨hhash, hlive⟩ : r.keyHash = row.keyHash ∧ r.revoked = false := by simpa using hfound
    rw [hsame r hr hhash, hrevoked] at hlive
    cases hlive
  · rw [if_neg hrevoked]
    have hlive : row.revoked = false := by simpa using hrevoked
    cases hfind : table.rows.find? fun r => r.keyHash = row.keyHash ∧ r.revoked = false with
    | none =>
      have := List.find?_eq_none.mp hfind row hrow
      simp [hlive] at this
    | some r =>
      have hfound : r.keyHash = row.keyHash ∧ r.revoked = false := by
        simpa using List.find?_some hfind
      rw [hsame r (List.mem_of_find?_eq_some hfind) hfound.1]

/-- The row shows what the update asked for. -/
def Change.Shows (row : ApiKey) : Change → Prop
  | .revoke => row.revoked = true
  | .limits data =>
    (∀ x, data.expiresAt = some x → row.expiresAt = x) ∧
      (∀ x, data.rateLimitPerMinute = some x → row.rateLimitPerMinute = x) ∧
      ∀ x, data.monthlyQuota = some x → row.monthlyQuota = x
  | .touch lastUsedAt => row.lastUsedAt = some lastUsedAt

lemma Change.shows_apply (change : Change) (now : ℤ) (row : ApiKey) :
    change.Shows (change.apply now row) := by
  cases change with
  | revoke => rfl
  | limits data =>
    refine ⟨fun x hx => ?_, fun x hx => ?_, fun x hx => ?_⟩ <;>
      simp [Change.apply, hx]
  | touch lastUsedAt => rfl

/-! ## What readers can meet -/

/-- The value an answer comes to. -/
def Answer.value : Answer → Option (Option ApiKeyRecord)
  | .asked => none
  | .read row => some (row.map toKey)
  | .fulfilled value => some value
  | .rejected => none

def System.view (s : System) : View String (Option ApiKeyRecord) where
  cached keyHash := (s.validationCache.get keyHash).map Cached.value
  inflight keyHash := s.validationInFlight.get keyHash
  key n := (s.requests[n]?).map Request.keyHash
  answer n := (s.requests[n]?).bind fun r => r.answer.value

/-- What a validation of the hash finds in the `i`-th table or a later one. -/
def Current (s : System) (keyHash : String) (i : ℕ) (value : Option ApiKeyRecord) : Prop :=
  ∃ table, Since s.history i table ∧ value = (table.findFirst keyHash).map toKey

def ProgressCurrent (s : System) (keyHash : String) (i : ℕ) : Progress → Prop
  | .waiting lookup => LookupGood s.view keyHash (Current s keyHash i) lookup
  | .returned value => Current s keyHash i value
  | .threw => True

lemma Current.advance {s s' : System} {keyHash : String} {i : ℕ} {value : Option ApiKeyRecord}
    (h : Current s keyHash i value) (hh : s.history <+: s'.history) :
    Current s' keyHash i value := by
  obtain ⟨table, htable, rfl⟩ := h
  exact ⟨table, htable.of_prefix hh, rfl⟩

/-- What a step does to the tables and, for every hash, to what readers can meet. An entry of the
cache comes from the request in flight. -/
structure Advances (s s' : System) : Prop where
  history : s.history <+: s'.history
  view : ∀ keyHash i, i < s.history.length → Step s.view s'.view keyHash (Current s' keyHash i)
  entry : ∀ keyHash e, s'.validationCache.get keyHash = some e →
    s.validationCache.get keyHash = some e ∨
      ∃ n, s.validationInFlight.get keyHash = some n ∧ s.view.answer n = some e.value

lemma Advances.current {s s' : System} (h : Advances s s') {keyHash : String} {i : ℕ} :
    ∀ value, Current s keyHash i value → Current s' keyHash i value :=
  fun _ hvalue => hvalue.advance h.history

lemma Advances.coherent {s s' : System} (h : Advances s s') {keyHash : String} {i : ℕ}
    (hi : i < s.history.length) (hc : Coherent s.view keyHash (Current s keyHash i)) :
    Coherent s'.view keyHash (Current s' keyHash i) :=
  hc.step (h.view keyHash i hi) h.current

lemma Advances.progress {s s' : System} (h : Advances s s') {keyHash : String} {i : ℕ}
    (hi : i < s.history.length) {progress : Progress} (hp : ProgressCurrent s keyHash i progress) :
    ProgressCurrent s' keyHash i progress := by
  cases progress with
  | waiting lookup => exact LookupGood.step hp (h.view keyHash i hi) h.current
  | returned value => exact h.current value hp
  | threw => trivial

/-- A step that leaves the requests alone and at most forgets. -/
lemma Advances.of_forget {s s' : System} (hh : s.history <+: s'.history)
    (hr : s'.requests = s.requests)
    (hc : ∀ h e, s'.validationCache.get h = some e → s.validationCache.get h = some e)
    (hf : ∀ h n, s'.validationInFlight.get h = some n → s.validationInFlight.get h = some n) :
    Advances s s' where
  history := hh
  view keyHash i _ := by
    refine .of_forget (by unfold System.view; rw [hr]) (by unfold System.view; rw [hr]) ?_
      fun n hn => hf keyHash n hn
    intro x hx
    obtain ⟨e, he, rfl⟩ := Option.map_eq_some_iff.mp hx
    exact Option.map_eq_some_iff.mpr ⟨e, hc keyHash e he, rfl⟩
  entry keyHash e he := Or.inl (hc keyHash e he)

/-- A step that leaves all of it alone. -/
lemma Advances.of_same {s s' : System} (hh : s.history <+: s'.history)
    (hr : s'.requests = s.requests) (hc : s'.validationCache = s.validationCache)
    (hf : s'.validationInFlight = s.validationInFlight) : Advances s s' :=
  .of_forget hh hr (fun _ _ h => hc ▸ h) fun _ _ h => hf ▸ h

/-- One request changes, and the value it has may come into the cache while it is in flight. -/
lemma Advances.of_modify {s s' : System} {n : ℕ} {f : Request → Request}
    (hh : s'.history = s.history) (hr : s'.requests = s.requests.modify n f)
    (hkey : ∀ r, (f r).keyHash = r.keyHash)
    (hanswer : ∀ r i x, s.requests[n]? = some r → i < s.history.length →
      (f r).answer.value = some x → r.answer.value = some x ∨ Current s r.keyHash i x)
    (hc : ∀ h e, s'.validationCache.get h = some e → s.validationCache.get h = some e ∨
      s.validationInFlight.get h = some n ∧ s.view.answer n = some e.value)
    (hf : ∀ h m, s'.validationInFlight.get h = some m → s.validationInFlight.get h = some m) :
    Advances s s' where
  history := by rw [hh]
  view keyHash i hi := by
    have hget : ∀ m, s'.requests[m]? = if n = m then (s.requests[m]?).map f else s.requests[m]? := by
      intro m
      rw [hr, List.getElem?_modify]
      split_ifs <;> simp
    refine ⟨fun m hm => ?_, fun m x hm hx => ?_, fun x hx => ?_, fun m hm => Or.inl (hf _ m hm)⟩
    · obtain ⟨r, hreq, rfl⟩ := Option.map_eq_some_iff.mp hm
      show (s'.requests[m]?).map _ = _
      rw [hget m, hreq]
      split_ifs
      · exact congrArg some (hkey r)
      · rfl
    · obtain ⟨r, hreq, rfl⟩ := Option.map_eq_some_iff.mp hm
      change (s'.requests[m]?).bind _ = some x at hx
      rw [hget m, hreq] at hx
      show (s.requests[m]?).bind _ = some x ∨ _
      rw [hreq]
      split_ifs at hx with hnm
      · subst hnm
        refine (hanswer r i x hreq hi hx).imp_right fun hcurrent => ?_
        exact hcurrent.advance (by rw [hh])
      · exact Or.inl hx
    · obtain ⟨e, he, rfl⟩ := Option.map_eq_some_iff.mp hx
      refine (hc keyHash e he).imp (fun hold => ?_) fun hnew => ⟨n, hnew⟩
      exact Option.map_eq_some_iff.mpr ⟨e, hold, rfl⟩
  entry keyHash e he := (hc keyHash e he).imp_right fun hnew => ⟨n, hnew⟩

/-! ## Validations -/

/-- Making room forgets entries only. -/
lemma get_makeRoom_some {cache : JsMap String Cached} {keyHash h : String} {e : Cached}
    (he : (makeRoom cache keyHash).get h = some e) : cache.get h = some e := by
  unfold makeRoom at he
  split_ifs at he
  · exact JsMap.get_delete_some he
  · split at he
    · split_ifs at he
      · exact JsMap.get_delete_some he
      · exact he
    · exact he
  · exact he

lemma get_recordValidation_some {cache : JsMap String Cached} {keyHash h : String}
    {value : Option ApiKeyRecord} {now : ℤ} {e : Cached}
    (he : (recordValidation cache keyHash value now).get h = some e) :
    cache.get h = some e ∨ h = keyHash ∧ e.value = value := by
  unfold recordValidation at he
  by_cases hh : h = keyHash
  · subst hh
    rw [JsMap.get_set_self] at he
    cases he
    exact Or.inr ⟨rfl, rfl⟩
  · rw [JsMap.get_set_of_ne hh] at he
    exact Or.inl (get_makeRoom_some he)

/-- A new request is in flight and has no answer yet. -/
lemma advances_newRequest (s : System) (keyHash : String) :
    Advances s { s with
      validationCache := s.validationCache.delete keyHash
      requests := s.requests ++ [{ keyHash := keyHash }]
      validationInFlight := s.validationInFlight.set keyHash s.requests.length } where
  history := List.prefix_rfl
  view h i _ := by
    have hold : ∀ {m : ℕ} {r : Request}, s.requests[m]? = some r →
        (s.requests ++ [({ keyHash := keyHash } : Request)])[m]? = some r := by
      intro m r hm
      obtain ⟨hlt, -⟩ := List.getElem?_eq_some_iff.mp hm
      rw [List.getElem?_append_left hlt, hm]
    refine ⟨fun m hm => ?_, fun m x hm hx => Or.inl ?_, fun x hx => Or.inl ?_, fun m hm => ?_⟩
    · obtain ⟨r, hr, rfl⟩ := Option.map_eq_some_iff.mp hm
      exact Option.map_eq_some_iff.mpr ⟨r, hold hr, rfl⟩
    · obtain ⟨r, hr, -⟩ := Option.map_eq_some_iff.mp hm
      change ((s.requests ++ [_])[m]?).bind _ = some x at hx
      show (s.requests[m]?).bind _ = some x
      rw [hold hr] at hx
      rw [hr]
      exact hx
    · obtain ⟨e, he, rfl⟩ := Option.map_eq_some_iff.mp hx
      exact Option.map_eq_some_iff.mpr ⟨e, JsMap.get_delete_some he, rfl⟩
    · change (s.validationInFlight.set keyHash s.requests.length).get h = some m at hm
      by_cases hh : h = keyHash
      · subst hh
        rw [JsMap.get_set_self] at hm
        cases hm
        refine Or.inr ⟨?_, ?_⟩ <;> simp [System.view, Answer.value]
      · rw [JsMap.get_set_of_ne hh] at hm
        exact Or.inl hm
  entry h e he := Or.inl (JsMap.get_delete_some he)

lemma advances_forgetEntry (s : System) (keyHash : String) :
    Advances s { s with validationCache := s.validationCache.delete keyHash } :=
  .of_forget List.prefix_rfl rfl (fun _ _ h => JsMap.get_delete_some h) fun _ _ h => h

/-- What a validation does up to its `await`, and what it has to go on then, where an entry that is
fresh for it and what is in flight are good. -/
lemma validateApiKey_begins (s : System) (keyHash : String) (now : ℤ) :
    Advances s (validateApiKey s keyHash now).1 ∧
      (validateApiKey s keyHash now).1.validations = s.validations ∧
      ∀ i < s.history.length,
        (∀ e, freshEntry s keyHash now = some e → Current s keyHash i e.value) →
        (∀ n, s.validationInFlight.get keyHash = some n →
          Serves s.view keyHash (Current s keyHash i) n) →
        LookupGood (validateApiKey s keyHash now).1.view keyHash
          (Current (validateApiKey s keyHash now).1 keyHash i) (validateApiKey s keyHash now).2 := by
  unfold validateApiKey
  cases hcached : freshEntry s keyHash now with
  | some cached =>
    exact ⟨.of_same List.prefix_rfl rfl rfl rfl, rfl, fun i hi hfresh _ => hfresh cached rfl⟩
  | none =>
    have hforget := advances_forgetEntry s keyHash
    cases hexisting : s.validationInFlight.get keyHash with
    | some existing =>
      simp only [hexisting]
      refine ⟨hforget, trivial, fun i hi _ hflight => ?_⟩
      exact (hforget.view keyHash i hi).serves (fun n hn => hflight n (hexisting.symm.trans hn))
        hforget.current existing hexisting
    | none =>
      simp only [hexisting]
      have hnew := advances_newRequest s keyHash
      refine ⟨hnew, trivial, fun i hi _ _ => ?_⟩
      refine (hnew.view keyHash i hi).serves (fun n hn => ?_) hnew.current _ ?_
      · cases hexisting.symm.trans hn
      · exact JsMap.get_set_self _ _ _

/-! ## Steps -/

/-- A call, if it validates a key with this hash, comes to a value of the `i`-th table or later. -/
def ValidationCurrent (hashApiKey : String → String) (s : System) (keyHash : String)
    (call i : ℕ) : Prop :=
  ∀ v, s.validations call = some v → hashApiKey v.key = keyHash →
    ProgressCurrent s keyHash i v.progress

variable {hashApiKey : String → String} {s s' : System}

/-- What every step keeps. A call that is made needs nothing of the cache any more. -/
structure Keeps (hashApiKey : String → String) (s s' : System) : Prop where
  advances : Advances s s'
  validation : ∀ keyHash call i, i < s.history.length →
    (s.validations call = none → Coherent s.view keyHash (Current s keyHash i)) →
    ValidationCurrent hashApiKey s keyHash call i → ValidationCurrent hashApiKey s' keyHash call i

/-- A step that leaves the validations alone. -/
lemma Keeps.of_advances (h : Advances s s') (hv : s'.validations = s.validations) :
    Keeps hashApiKey s s' where
  advances := h
  validation _ _ _ hi _ hold v hv' hkey := h.progress hi (hold v (hv ▸ hv') hkey)

/-- A step that leaves the requests, the cache and what is in flight alone. -/
lemma Keeps.of_same (hh : s.history <+: s'.history) (hr : s'.requests = s.requests)
    (hc : s'.validationCache = s.validationCache)
    (hf : s'.validationInFlight = s.validationInFlight) (hv : s'.validations = s.validations) :
    Keeps hashApiKey s s' :=
  .of_advances (.of_same hh hr hc hf) hv

/-- A step after which one validation is somewhere else. -/
lemma Keeps.of_validation {s₁ : System} {call : ℕ} {v : Validation} (h : Advances s s₁)
    (hv : s₁.validations = s.validations)
    (hnew : ∀ i, i < s.history.length →
      (s.validations call = none →
        Coherent s.view (hashApiKey v.key) (Current s (hashApiKey v.key) i)) →
      ValidationCurrent hashApiKey s (hashApiKey v.key) call i →
      ProgressCurrent s₁ (hashApiKey v.key) i v.progress) :
    Keeps hashApiKey s (setValidation s₁ call v) where
  advances := ⟨h.history, h.view, h.entry⟩
  validation keyHash c i hi hc hold w hw hkey := by
    by_cases hcall : c = call
    · subst hcall
      obtain rfl : v = w := by simpa [setValidation] using hw
      subst hkey
      exact hnew i hi hc hold
    · have hw' : s.validations c = some w := by simpa [setValidation, hcall, hv] using hw
      exact h.progress hi (hold w hw' hkey)

lemma keeps_setAnswer {n : ℕ} {answer : Answer}
    (h : ∀ r i x, s.requests[n]? = some r → i < s.history.length → answer.value = some x →
      r.answer.value = some x ∨ Current s r.keyHash i x) :
    Keeps hashApiKey s (setAnswer s n answer) :=
  .of_advances (.of_modify rfl rfl (fun _ => rfl) h (fun _ _ h => Or.inl h) fun _ _ h => h) rfl

/-- The database reads the table as it is now. -/
lemma keeps_query {n : ℕ} {r : Request} (hr : s.requests[n]? = some r) :
    Keeps hashApiKey s (setAnswer s n (.read (s.table.findFirst r.keyHash))) := by
  refine keeps_setAnswer fun r' i x hr' hi hx => Or.inr ?_
  obtain rfl := Option.some.inj (hr.symm.trans hr')
  obtain rfl : (s.table.findFirst r.keyHash).map toKey = x := Option.some.inj hx
  have hlast : s.history.getLast? = some s.table := by simp [System.history]
  exact ⟨s.table, Since.of_last hlast hi, rfl⟩

lemma get_leave_some {keyHash h : String} {n m : ℕ}
    (hm : (leave s keyHash n).validationInFlight.get h = some m) :
    s.validationInFlight.get h = some m := by
  unfold leave at hm
  split_ifs at hm
  · exact JsMap.get_delete_some hm
  · exact hm

lemma leave_eq (s : System) (keyHash : String) (n : ℕ) :
    leave s keyHash n = { s with validationInFlight := (leave s keyHash n).validationInFlight } := by
  unfold leave
  split_ifs <;> rfl

lemma keeps_leave (keyHash : String) (n : ℕ) :
    Keeps hashApiKey s (stopAwaiting (leave s keyHash n) n) := by
  rw [leave_eq]
  refine .of_advances (.of_modify rfl rfl (fun _ => rfl) (fun _ _ _ _ _ hx => Or.inl hx)
    (fun _ _ he => Or.inl he) fun _ _ hm => get_leave_some hm) rfl

/-- What is recorded is the value of the request in flight. -/
lemma keeps_goOn {n : ℕ} {r : Request} {value : Option ApiKeyRecord} (now : ℤ)
    (hr : s.requests[n]? = some r) (hanswer : r.answer = .fulfilled value) :
    Keeps hashApiKey s (stopAwaiting (goOn s r.keyHash n value now) n) := by
  unfold goOn
  split_ifs with hinflight
  · have hleave : leave { s with
        validationCache := recordValidation s.validationCache r.keyHash value now } r.keyHash n =
        { s with
          validationCache := recordValidation s.validationCache r.keyHash value now
          validationInFlight := s.validationInFlight.delete r.keyHash } := if_pos hinflight
    rw [hleave]
    refine .of_advances (.of_modify rfl rfl (fun _ => rfl) (fun _ _ _ _ _ hx => Or.inl hx)
      (fun h e he => ?_) fun _ _ hm => JsMap.get_delete_some hm) rfl
    refine (get_recordValidation_some he).imp_right fun hnew => ?_
    obtain ⟨rfl, hvalue⟩ := hnew
    refine ⟨hinflight, ?_⟩
    show (s.requests[n]?).bind _ = _
    rw [hr, hvalue]
    show r.answer.value = _
    rw [hanswer]
    rfl
  · exact keeps_leave r.keyHash n

/-- A settled lookup has the value it stands for. -/
lemma progressCurrent_of_settled {keyHash : String} {i : ℕ}
    {lookup : Lookup (Option ApiKeyRecord)} {progress : Progress}
    (h : LookupGood s.view keyHash (Current s keyHash i) lookup)
    (hsettled : settled s lookup = some progress) : ProgressCurrent s keyHash i progress := by
  cases lookup with
  | value value =>
    cases hsettled
    exact h
  | request n =>
    have hserves : Serves s.view keyHash (Current s keyHash i) n := h
    obtain ⟨r, hr, -⟩ := Option.map_eq_some_iff.mp hserves.key
    have hgood : ∀ x, r.answer.value = some x → Current s keyHash i x := fun x hx =>
      hserves.answer x (by show (s.requests[n]?).bind _ = some x; rw [hr]; exact hx)
    simp only [settled, hr, Option.map_some] at hsettled
    cases hanswer : r.answer with
    | asked => simp [hanswer] at hsettled
    | read row => simp [hanswer] at hsettled
    | fulfilled value =>
      obtain rfl : Progress.returned value = progress := by simpa [hanswer] using hsettled
      exact hgood value (by rw [hanswer]; rfl)
    | rejected =>
      obtain rfl : Progress.threw = progress := by simpa [hanswer] using hsettled
      trivial

lemma execute_eq (s : System) (id : String) (change : Change) (now : ℤ) :
    (execute s id change now).1 =
      { s with
        past := (execute s id change now).1.past
        table := (execute s id change now).1.table } := by
  unfold execute
  split <;> rfl

lemma execute_history (s : System) (id : String) (change : Change) (now : ℤ) :
    s.history <+: (execute s id change now).1.history := by
  unfold execute
  split
  · exact List.prefix_rfl
  · exact List.prefix_append _ _

theorem step_keeps {e : Event} (h : step hashApiKey s e = some s') : Keeps hashApiKey s s' := by
  cases e with
  | validateApiKey call key now =>
    simp only [step] at h
    split_ifs at h with hcall
    cases h
    obtain ⟨hadvances, hvalidations, hlookup⟩ := validateApiKey_begins s (hashApiKey key) now
    refine .of_validation hadvances hvalidations fun i hi hc _ => ?_
    have hcoherent := hc (not_not.mp hcall)
    refine hlookup i hi (fun e he => ?_) hcoherent.inflight
    have hget := (Option.filter_eq_some_iff.mp he).1
    exact hcoherent.cached e.value (Option.map_eq_some_iff.mpr ⟨e, hget, rfl⟩)
  | query n =>
    simp only [step] at h
    split at h
    · rename_i hr
      cases h
      exact keeps_query hr
    · cases h
  | fulfil n =>
    simp only [step] at h
    split at h
    · rename_i hr
      cases h
      refine keeps_setAnswer fun r i x hr' _ hx => Or.inl ?_
      obtain rfl := Option.some.inj (hr.symm.trans hr')
      exact hx
    · cases h
  | reject n =>
    simp only [step] at h
    split at h
    · cases h
      exact keeps_setAnswer fun _ _ _ _ _ hx => by cases hx
    · cases h
      exact keeps_setAnswer fun _ _ _ _ _ hx => by cases hx
    · cases h
  | goOn n now =>
    simp only [step] at h
    split at h
    · rename_i hr
      cases h
      exact keeps_goOn now hr rfl
    · cases h
      exact keeps_leave _ n
    · cases h
  | returns call =>
    simp only [step] at h
    split at h
    · rename_i key lookup hcall
      obtain ⟨progress, hsettled, rfl⟩ := Option.map_eq_some_iff.mp h
      refine .of_validation (.of_same List.prefix_rfl rfl rfl rfl) rfl fun i _ _ hold => ?_
      exact progressCurrent_of_settled (hold _ hcall rfl) hsettled
    · cases h
  | revokeApiKey call id =>
    simp only [step] at h
    split_ifs at h
    cases h
    exact .of_same List.prefix_rfl rfl rfl rfl rfl
  | updateApiKeyLimits call id data =>
    simp only [step] at h
    split_ifs at h
    cases h
    exact .of_same List.prefix_rfl rfl rfl rfl rfl
  | execute call now =>
    simp only [step] at h
    split at h
    · rename_i id change hcall
      cases h
      have hhistory := execute_history s id change now
      rw [execute_eq] at hhistory ⊢
      exact .of_same hhistory rfl rfl rfl rfl
    · cases h
  | resolves call =>
    simp only [step] at h
    split at h
    · cases h
      exact .of_advances (.of_forget List.prefix_rfl rfl (fun _ _ => JsMap.get_delete_some)
        fun _ _ => JsMap.get_delete_some) rfl
    · cases h
      exact .of_same List.prefix_rfl rfl rfl rfl rfl
    · cases h
  | rejects call =>
    simp only [step] at h
    split at h
    · cases h
      exact .of_same List.prefix_rfl rfl rfl rfl rfl
    · cases h
  | clearValidationCache =>
    cases h
    exact .of_advances (.of_forget List.prefix_rfl rfl (fun _ _ he => by cases he)
      fun _ _ hm => by cases hm) rfl
  | creates row =>
    obtain ⟨table, -, rfl⟩ := Option.map_eq_some_iff.mp h
    exact .of_same (List.prefix_append _ _) rfl rfl rfl rfl
  | changes id change now =>
    cases h
    have hhistory := execute_history s id change now
    rw [execute_eq] at hhistory ⊢
    exact .of_same hhistory rfl rfl rfl rfl

/-! ## Where an update stands -/

/-- Tables follow one another, and the row an update left behind stands in its table. -/
structure Placed (s : System) : Prop where
  follows : s.history.Pairwise Follows
  updated : ∀ call w i row, s.writers call = some w → w.outcome = .updated i row →
    ∃ table, s.history[i]? = some table ∧ row ∈ table.rows ∧ w.change.Shows row

lemma placed_start (table : Table) : Placed (start table) where
  follows := List.pairwise_singleton _ _
  updated _ _ _ _ hw := by cases hw

/-- Every table is followed by the present one. -/
lemma Placed.follows_table (hp : Placed s) {table : Table} (h : table ∈ s.history) :
    Follows table s.table := by
  rcases List.mem_append.mp h with h | h
  · exact (List.pairwise_append.mp hp.follows).2.2 table h s.table (List.mem_singleton_self _)
  · obtain rfl := List.mem_singleton.mp h
    exact Follows.refl _

/-- A step at the end of which the tables are the same, and no update was taken. -/
lemma Placed.of_same (hp : Placed s) (hh : s'.history = s.history)
    (hw : ∀ call w, s'.writers call = some w → w.outcome ≠ .pending → s.writers call = some w) :
    Placed s' where
  follows := hh ▸ hp.follows
  updated call w i row hw' hi := by
    rw [hh]
    exact hp.updated call w i row (hw call w hw' (by rw [hi]; simp)) hi

/-- A step that puts a table in place, with the update it comes from. -/
lemma Placed.of_table (hp : Placed s) (hpast : s'.past = s.history)
    (hfollows : Follows s.table s'.table)
    (hw : ∀ call w i row, s'.writers call = some w → w.outcome = .updated i row →
      s.writers call = some w ∨
        i = s.history.length ∧ row ∈ s'.table.rows ∧ w.change.Shows row) : Placed s' where
  follows := by
    show (s'.past ++ [s'.table]).Pairwise Follows
    rw [hpast]
    refine List.pairwise_append.mpr ⟨hp.follows, List.pairwise_singleton _ _, ?_⟩
    intro table htable table' htable'
    obtain rfl := List.mem_singleton.mp htable'
    exact (hp.follows_table htable).trans hfollows
  updated call w i row hw' hi := by
    have hhistory : s'.history = s.history ++ [s'.table] := by rw [System.history, hpast]
    rw [hhistory]
    rcases hw call w i row hw' hi with hold | ⟨rfl, hrow, hshows⟩
    · obtain ⟨table, htable, hrest⟩ := hp.updated call w i row hold hi
      exact ⟨table, getElem?_of_prefix (List.prefix_append _ _) htable, hrest⟩
    · exact ⟨s'.table, List.getElem?_concat_length, hrow, hshows⟩

lemma validateApiKey_eq (s : System) (keyHash : String) (now : ℤ) :
    (validateApiKey s keyHash now).1 =
      { s with
        validationCache := (validateApiKey s keyHash now).1.validationCache
        validationInFlight := (validateApiKey s keyHash now).1.validationInFlight
        requests := (validateApiKey s keyHash now).1.requests } := by
  unfold validateApiKey
  cases freshEntry s keyHash now with
  | some cached => rfl
  | none => cases hexisting : s.validationInFlight.get keyHash <;> simp only [hexisting]

lemma goOn_eq (s : System) (keyHash : String) (n : ℕ) (value : Option ApiKeyRecord) (now : ℤ) :
    goOn s keyHash n value now =
      { s with
        validationCache := (goOn s keyHash n value now).validationCache
        validationInFlight := (goOn s keyHash n value now).validationInFlight } := by
  unfold goOn
  split_ifs
  · rw [leave_eq]
  · rw [leave_eq]

/-- No row has the id, or its row is replaced. -/
lemma execute_cases (s : System) (id : String) (change : Change) (now : ℤ) :
    execute s id change now = (s, .notFound) ∨
      ∃ row ∈ (s.table.update id change now).rows, change.Shows row ∧
        execute s id change now =
          ({ s with past := s.history, table := s.table.update id change now },
            .updated s.history.length row) := by
  unfold execute
  split
  · exact Or.inl rfl
  · rename_i row hfind
    have hid : row.id = id := by simpa using List.find?_some hfind
    refine Or.inr ⟨change.apply now row, ?_, change.shows_apply now row, rfl⟩
    exact List.mem_map.mpr ⟨row, List.mem_of_find?_eq_some hfind, if_pos hid⟩

/-- Another state of a writer. -/
lemma writers_update {call c : ℕ} {o : Option Writer} {w : Writer}
    (h : Function.update s.writers call o c = some w) : o = some w ∨ s.writers c = some w := by
  by_cases hc : c = call
  · subst hc
    rw [Function.update_self] at h
    exact Or.inl h
  · rw [Function.update_of_ne hc] at h
    exact Or.inr h

lemma placed_setWriter (hp : Placed s) {call : ℕ} {o : Option Writer}
    (ho : ∀ w, o = some w → w.outcome = .pending) : Placed (setWriter s call o) :=
  hp.of_same rfl fun _ w hw hpending =>
    (writers_update hw).resolve_left fun heq => hpending (ho w heq)

lemma placed_changes (hp : Placed s) (id : String) (change : Change) (now : ℤ) :
    Placed (execute s id change now).1 := by
  rcases execute_cases s id change now with heq | ⟨row, -, -, heq⟩
  · rw [heq]
    exact hp
  · rw [heq]
    exact hp.of_table rfl (follows_update s.table id change now) fun _ _ _ _ hw _ => Or.inl hw

lemma placed_execute (hp : Placed s) (id : String) (change : Change) (now : ℤ) (call : ℕ) :
    Placed (setWriter (execute s id change now).1 call
      (some ⟨id, change, (execute s id change now).2⟩)) := by
  rcases execute_cases s id change now with heq | ⟨row, hrow, hshows, heq⟩
  · rw [heq]
    refine ⟨hp.follows, fun c w i row hw hi => ?_⟩
    rcases writers_update hw with hnew | hold
    · cases hnew
      cases hi
    · exact hp.updated c w i row hold hi
  · rw [heq]
    refine hp.of_table rfl (follows_update s.table id change now) fun c w i row' hw hi => ?_
    refine (writers_update hw).symm.imp_right fun hnew => ?_
    cases hnew
    cases hi
    exact ⟨rfl, hrow, hshows⟩

lemma placed_step {e : Event} (hp : Placed s) (h : step hashApiKey s e = some s') :
    Placed s' := by
  cases e with
  | validateApiKey call key now =>
    simp only [step] at h
    split_ifs at h
    cases h
    rw [validateApiKey_eq]
    exact hp.of_same rfl fun _ _ hw _ => hw
  | query n =>
    simp only [step] at h
    split at h <;> cases h
    exact hp.of_same rfl fun _ _ hw _ => hw
  | fulfil n =>
    simp only [step] at h
    split at h <;> cases h
    exact hp.of_same rfl fun _ _ hw _ => hw
  | reject n =>
    simp only [step] at h
    split at h <;> cases h <;> exact hp.of_same rfl fun _ _ hw _ => hw
  | goOn n now =>
    simp only [step] at h
    split at h
    · cases h
      rw [goOn_eq]
      exact hp.of_same rfl fun _ _ hw _ => hw
    · cases h
      rw [leave_eq]
      exact hp.of_same rfl fun _ _ hw _ => hw
    · cases h
  | returns call =>
    simp only [step] at h
    split at h
    · obtain ⟨progress, -, rfl⟩ := Option.map_eq_some_iff.mp h
      exact hp.of_same rfl fun _ _ hw _ => hw
    · cases h
  | revokeApiKey call id =>
    simp only [step] at h
    split_ifs at h
    cases h
    exact placed_setWriter hp (by rintro _ ⟨⟩; rfl)
  | updateApiKeyLimits call id data =>
    simp only [step] at h
    split_ifs at h
    cases h
    exact placed_setWriter hp (by rintro _ ⟨⟩; rfl)
  | execute call now =>
    simp only [step] at h
    split at h
    · cases h
      exact placed_execute hp _ _ now call
    · cases h
  | resolves call =>
    simp only [step] at h
    split at h
    · rename_i id change i row hcall
      cases h
      have hsame : Placed (invalidate s row.keyHash) := hp.of_same rfl fun _ _ hw _ => hw
      exact placed_setWriter hsame (by rintro _ ⟨⟩)
    · cases h
      exact placed_setWriter hp (by rintro _ ⟨⟩)
    · cases h
  | rejects call =>
    simp only [step] at h
    split at h
    · cases h
      exact placed_setWriter hp (by rintro _ ⟨⟩)
    · cases h
  | clearValidationCache =>
    cases h
    exact hp.of_same rfl fun _ _ hw _ => hw
  | creates row =>
    obtain ⟨table, htable, rfl⟩ := Option.map_eq_some_iff.mp h
    exact hp.of_table rfl (follows_create htable) fun _ _ _ _ hw _ => Or.inl hw
  | changes id change now =>
    cases h
    exact placed_changes hp id change now

/-! ## Main result -/

/-- A value that a validation found in the table as an update of the row left it, or in a later
one: the row's record of then, or nothing if the row was revoked by then. -/
def FoundSince (t : System) (i : ℕ) (row : ApiKey) (value : Option ApiKeyRecord) : Prop :=
  ∃ table row', Since t.history i table ∧ row' ∈ table.rows ∧ row'.id = row.id ∧
    (row.revoked = true → row'.revoked = true) ∧
    value = if row'.revoked then none else some (toKey row')

lemma foundSince_of_current {t : System} (hp : Placed t) {i : ℕ} {table : Table} {row : ApiKey}
    (htable : t.history[i]? = some table) (hrow : row ∈ table.rows) {value : Option ApiKeyRecord}
    (h : Current t row.keyHash i value) : FoundSince t i row value := by
  obtain ⟨table', ⟨j, hij, hj⟩, rfl⟩ := h
  have hfollows : Follows table table' := by
    rcases Nat.eq_or_lt_of_le hij with rfl | hlt
    · obtain rfl : table = table' := Option.some.inj (htable.symm.trans hj)
      exact Follows.refl _
    · obtain ⟨hi, rfl⟩ := List.getElem?_eq_some_iff.mp htable
      obtain ⟨hj', rfl⟩ := List.getElem?_eq_some_iff.mp hj
      exact List.pairwise_iff_getElem.mp hp.follows i j hi hj' hlt
  obtain ⟨row', hrow', hid, hhash, hrevoked⟩ := hfollows row hrow
  refine ⟨table', row', ⟨j, hij, hj⟩, hrow', hid, hrevoked, ?_⟩
  rw [← hhash, Table.findFirst_of_mem hrow']
  split_ifs <;> rfl

lemma history_of_run {t : System} {es : List Event}
    (hrun : run (step hashApiKey) s es = some t) : s.history <+: t.history := by
  refine run_invariant (I := fun u => s.history <+: u.history) (fun u e u' hu h => ?_)
    List.prefix_rfl hrun
  exact hu.trans (step_keeps h).advances.history

/-- From a moment on at which nothing is cached or in flight for a hash, new validations find the
table of that moment or a later one. -/
lemma validationCurrent_of_run {t : System} {keyHash : String} {c i : ℕ} {es : List Event}
    (hi : i < s.history.length) (hcache : s.validationCache.get keyHash = none)
    (hinflight : s.validationInFlight.get keyHash = none) (hnew : s.validations c = none)
    (hrun : run (step hashApiKey) s es = some t) : ValidationCurrent hashApiKey t keyHash c i := by
  have hinv : i < t.history.length ∧ Coherent t.view keyHash (Current t keyHash i) ∧
      ValidationCurrent hashApiKey t keyHash c i := by
    refine run_invariant (I := fun u => i < u.history.length ∧
      Coherent u.view keyHash (Current u keyHash i) ∧
      ValidationCurrent hashApiKey u keyHash c i) (fun u e u' hu h => ?_) ?_ hrun
    · obtain ⟨hlen, hcoherent, hvalidation⟩ := hu
      have hkeeps := step_keeps h
      exact ⟨hlen.trans_le hkeeps.advances.history.length_le,
        hkeeps.advances.coherent hlen hcoherent,
        hkeeps.validation keyHash c i hlen (fun _ => hcoherent) hvalidation⟩
    · refine ⟨hi, .of_forgotten ?_ hinflight, fun v hv => ?_⟩
      · show (s.validationCache.get keyHash).map _ = none
        rw [hcache]
        rfl
      · rw [hnew] at hv
        cases hv
  exact hinv.2.2

/-- An update that resolves leaves nothing cached or in flight for the hash of its row. -/
lemma resolves_spec {call i : ℕ} {w : Writer} {row : ApiKey} (hw : s.writers call = some w)
    (hi : w.outcome = .updated i row) (h : step hashApiKey s (.resolves call) = some s') :
    s'.validationCache.get row.keyHash = none ∧ s'.validationInFlight.get row.keyHash = none ∧
      s'.validations = s.validations ∧ s'.history = s.history := by
  obtain ⟨id, change, outcome⟩ := w
  obtain rfl : outcome = .updated i row := hi
  simp only [step, hw, Option.some.injEq] at h
  subst h
  exact ⟨JsMap.get_delete_self _ _, JsMap.get_delete_self _ _, rfl, rfl⟩

/-- **Revocation and limit changes take effect at once**: for every interleaving of calls, over
every table. `row` is what the update left behind, in the `i`-th table. -/
theorem validate_after_update (hashApiKey : String → String) (table : Table)
    (pre post : List Event) (s t : System) (call i : ℕ) (w : Writer) (row : ApiKey)
    (hpre : run (step hashApiKey) (start table) pre = some s) (hw : s.writers call = some w)
    (hi : w.outcome = .updated i row)
    (hpost : run (step hashApiKey) s (.resolves call :: post) = some t) :
    w.change.Shows row ∧ (∃ table, t.history[i]? = some table ∧ row ∈ table.rows) ∧
      ∀ c key value, s.validations c = none → hashApiKey key = row.keyHash →
        t.validations c = some ⟨key, .returned value⟩ →
        FoundSince t i row value ∧ (w.change = .revoke → value = none) := by
  have hplaced : Placed s :=
    run_invariant (fun _ _ _ hp h => placed_step hp h) (placed_start table) hpre
  have hplaced' : Placed t := run_invariant (fun _ _ _ hp h => placed_step hp h) hplaced hpost
  obtain ⟨tableᵢ, htable, hrow, hshows⟩ := hplaced.updated call w i row hw hi
  have htable' : t.history[i]? = some tableᵢ :=
    getElem?_of_prefix (history_of_run hpost) htable
  refine ⟨hshows, ⟨tableᵢ, htable', hrow⟩, fun c key value hnew hkey hreturned => ?_⟩
  have hfound : FoundSince t i row value := by
    obtain ⟨s', hs', hrun⟩ := (run_cons_eq_some _).mp hpost
    obtain ⟨hcache, hinflight, hvalidations, hsame⟩ := resolves_spec hw hi hs'
    have hlt : i < s'.history.length := by
      rw [hsame]
      exact (List.getElem?_eq_some_iff.mp htable).1
    have hcurrent := validationCurrent_of_run hlt hcache hinflight (hvalidations ▸ hnew) hrun
    exact foundSince_of_current hplaced' htable' hrow (hcurrent _ hreturned hkey)
  refine ⟨hfound, fun hrevoke => ?_⟩
  obtain ⟨table', row', -, -, -, hrevoked, rfl⟩ := hfound
  rw [hrevoke] at hshows
  exact if_pos (hrevoked hshows)

/-- A key, in a table of its own. -/
def sampleKey : ApiKey :=
  ⟨"key-1", "ci", "hash:fc_a", none, "fc_a", false, 0, 0, none, none, none, none⟩

def sampleTable : Table := ⟨[sampleKey], List.nodup_singleton _, List.nodup_singleton _⟩

/-- A lookup in flight across a revocation finds the key; a validation that starts after the
revocation has resolved does not join it. -/
theorem validate_after_update_in_flight : ∃ s t : System,
    t.validations 0 = some ⟨"fc_a", .returned (some (toKey sampleKey))⟩ ∧
    t.validations 1 = some ⟨"fc_a", .returned none⟩ ∧
    ∀ c key value, s.validations c = none → "hash:" ++ key = "hash:fc_a" →
      t.validations c = some ⟨key, .returned value⟩ →
      FoundSince t 1 { sampleKey with revoked := true, updatedAt := 5 } value ∧
        (Change.revoke = .revoke → value = none) := by
  refine ⟨_, _, ?_, ?_, (validate_after_update ("hash:" ++ ·) sampleTable
    [.validateApiKey 0 "fc_a" 0, .query 0, .revokeApiKey 0 "key-1", .execute 0 5]
    [.validateApiKey 1 "fc_a" 6, .fulfil 0, .goOn 0 7, .returns 0, .query 1, .fulfil 1,
      .goOn 1 8, .returns 1] _ _ 0 1 ⟨"key-1", .revoke, _⟩ _ rfl rfl rfl rfl).2.2⟩
  · rfl
  · rfl

end ApiKeysService
end FirecrawlGateway
