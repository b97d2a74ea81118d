import FirecrawlGateway.Settings.SettingsService

/-!
# Coherence of the settings cache

Once a write to a key has resolved, whatever the service may hand out for the key is at least as
new as what the write left behind: `Coherent` says so of the cache and of the requests a read can
join, and `ReadFresh` of a read that has started. Every step keeps both.
-/

namespace FirecrawlGateway
namespace SettingsService

open EventMachine WriteHistory

/-! ## Fresh values -/

/-- The record of a row state that the table had at its `i`-th write or later. -/
def Fresh (s : System) (key : String) (i : ℕ) (value : Option SettingRecord) : Prop :=
  ∃ row, Since (s.history key) i row ∧ value = row.map (toRecord key)

/-- What the database has answered, if anything, is fresh. -/
def AnswerFresh (s : System) (key : String) (i : ℕ) : Answer → Prop
  | .asked => True
  | .read row => Since (s.history key) i row
  | .fulfilled value => Fresh s key i value
  | .rejected => True

/-- Request `n` is for this key, and will not be answered with an older row. -/
def Serves (s : System) (key : String) (i n : ℕ) : Prop :=
  ∃ r, s.requests[n]? = some r ∧ r.key = key ∧ AnswerFresh s key i r.answer

def LookupFresh (s : System) (key : String) (i : ℕ) : Lookup → Prop
  | .value value => Fresh s key i value
  | .request n => Serves s key i n

/-- Nothing older than the `i`-th write is left that a read of the key could meet. -/
structure Coherent (s : System) (key : String) (i : ℕ) : Prop where
  written : i < (s.history key).length
  cache : ∀ entry, s.cache.get key = some entry → Fresh s key i entry.value
  inflight : ∀ n, s.inflight.get key = some n → Serves s key i n

/-- A read delivers nothing older than the `i`-th write of the key. -/
def ReaderFresh (s : System) (key : String) (i : ℕ) : Reader → Prop
  | .waiting lookups => ∀ l ∈ lookups, l.1 = key → LookupFresh s key i l.2
  | .returned values => ∀ v ∈ values, v.1 = key → Fresh s key i v.2

/-! ## Time goes on -/

/-- Rows get newer, and requests stay as good as they were. -/
structure Advances (s s' : System) : Prop where
  history : ∀ key, s.history key <+: s'.history key
  serves : ∀ key i n, i < (s.history key).length → Serves s key i n → Serves s' key i n

lemma Fresh.advance {s s' : System} {key : String} {i : ℕ} {value : Option SettingRecord}
    (h : Fresh s key i value) (hh : s.history key <+: s'.history key) : Fresh s' key i value := by
  obtain ⟨row, hrow, rfl⟩ := h
  exact ⟨row, hrow.of_prefix hh, rfl⟩

lemma AnswerFresh.advance {s s' : System} {key : String} {i : ℕ} {answer : Answer}
    (h : AnswerFresh s key i answer) (hh : s.history key <+: s'.history key) :
    AnswerFresh s' key i answer := by
  cases answer with
  | asked => trivial
  | read row => exact Since.of_prefix h hh
  | fulfilled value => exact Fresh.advance h hh
  | rejected => trivial

lemma LookupFresh.advance {s s' : System} {key : String} {i : ℕ} {l : Lookup}
    (h : LookupFresh s key i l) (ha : Advances s s') (hi : i < (s.history key).length) :
    LookupFresh s' key i l := by
  cases l with
  | value value => exact Fresh.advance h (ha.history key)
  | request n => exact ha.serves key i n hi h

lemma ReaderFresh.advance {s s' : System} {key : String} {i : ℕ} {r : Reader}
    (h : ReaderFresh s key i r) (ha : Advances s s') (hi : i < (s.history key).length) :
    ReaderFresh s' key i r := by
  cases r with
  | waiting lookups => exact fun l hl hkey => (h l hl hkey).advance ha hi
  | returned values => exact fun v hv hkey => (h v hv hkey).advance (ha.history key)

/-- The requests stay, at most with a better answer. -/
lemma Advances.of_requests {s s' : System} (hh : ∀ key, s.history key <+: s'.history key)
    (hr : ∀ (n : ℕ) (r : Request), s.requests[n]? = some r → ∃ r', s'.requests[n]? = some r' ∧
      r'.key = r.key ∧ ∀ i < (s.history r.key).length, AnswerFresh s r.key i r.answer →
        AnswerFresh s' r.key i r'.answer) : Advances s s' where
  history := hh
  serves key i n hi h := by
    obtain ⟨r, hr', rfl, hanswer⟩ := h
    obtain ⟨r', hn, hkey, hfresh⟩ := hr n r hr'
    exact ⟨r', hn, hkey, hfresh i hi hanswer⟩

/-- A step that leaves the requests alone. -/
lemma Advances.of_same {s s' : System} (hh : ∀ key, s.history key <+: s'.history key)
    (hr : s'.requests = s.requests) : Advances s s' :=
  .of_requests hh fun _ r hn => ⟨r, hr ▸ hn, rfl, fun _ _ hanswer => hanswer.advance (hh r.key)⟩

lemma Advances.trans {s s' s'' : System} (h : Advances s s') (h' : Advances s' s'') :
    Advances s s'' where
  history key := (h.history key).trans (h'.history key)
  serves key i n hi hs := h'.serves key i n (hi.trans_le (h.history key).length_le)
    (h.serves key i n hi hs)

/-- What may be in the cache and in flight after a step. -/
lemma Coherent.advance {s s' : System} {key : String} {i : ℕ} (h : Coherent s key i)
    (ha : Advances s s')
    (hc : ∀ e, s'.cache.get key = some e → s.cache.get key = some e ∨ Fresh s' key i e.value)
    (hf : ∀ n, s'.inflight.get key = some n → s.inflight.get key = some n ∨ Serves s' key i n) :
    Coherent s' key i where
  written := h.written.trans_le (ha.history key).length_le
  cache e he := (hc e he).elim (fun hold => (h.cache e hold).advance (ha.history key)) id
  inflight n hn := (hf n hn).elim (fun hold => ha.serves key i n h.written (h.inflight n hold)) id

/-! ## Reads begin -/

/-- What the start of a read does: requests may be added and entries dropped, and what the read
finds is as new as the service promises. -/
structure Begins (s s' : System) (lookups : List (String × Lookup)) : Prop where
  advances : Advances s s'
  history : s'.history = s.history
  readers : s'.readers = s.readers
  writers : s'.writers = s.writers
  coherent : ∀ key i, Coherent s key i → Coherent s' key i
  fresh : ∀ key i, Coherent s key i → ∀ l ∈ lookups, l.1 = key → LookupFresh s' key i l.2

lemma Begins.refl (s : System) : Begins s s [] where
  advances := .of_same (fun _ => List.prefix_rfl) rfl
  history := rfl
  readers := rfl
  writers := rfl
  coherent _ _ h := h
  fresh _ _ _ l hl := by simp at hl

lemma Begins.trans {s s' s'' : System} {ls ls' : List (String × Lookup)} (h : Begins s s' ls)
    (h' : Begins s' s'' ls') : Begins s s'' (ls ++ ls') where
  advances := h.advances.trans h'.advances
  history := h'.history.trans h.history
  readers := h'.readers.trans h.readers
  writers := h'.writers.trans h.writers
  coherent key i hc := h'.coherent key i (h.coherent key i hc)
  fresh key i hc l hl hkey := by
    have hc' := h.coherent key i hc
    rcases List.mem_append.mp hl with hl | hl
    · exact (h.fresh key i hc l hl hkey).advance h'.advances hc'.written
    · exact h'.fresh key i hc' l hl hkey

/-- A lookup drops an entry at most, and finds a cached value or a request in flight. -/
lemma lookUp_begins (s : System) (key : String) (now : ℤ) :
    Begins s (lookUp s key now).1 ((lookUp s key now).2.map (key, ·)).toList := by
  unfold lookUp
  cases hcached : freshEntry s key now with
  | some cached =>
    have hget : s.cache.get key = some cached := (Option.filter_eq_some_iff.mp hcached).1
    refine { Begins.refl s with fresh := fun k i hc l hl hkey => ?_ }
    obtain rfl : l = (key, .value cached.value) := by simpa using hl
    obtain rfl : key = k := hkey
    exact hc.cache cached hget
  | none =>
    have hadvances : Advances s { s with cache := s.cache.delete key } :=
      .of_same (fun _ => List.prefix_rfl) rfl
    refine ⟨hadvances, rfl, rfl, rfl, fun k i hc => ?_, fun k i hc l hl hkey => ?_⟩
    · refine hc.advance hadvances (fun e he => Or.inl ?_) fun n hn => Or.inl hn
      by_cases hk : k = key
      · rw [hk] at he
        simp at he
      · simpa [hk] using he
    · obtain ⟨n, hn, rfl⟩ : ∃ n, s.inflight.get key = some n ∧ l = (key, .request n) := by
        cases hget : s.inflight.get key with
        | none => simp [hget] at hl
        | some n => exact ⟨n, rfl, by simpa [hget] using hl⟩
      obtain rfl : key = k := hkey
      exact hadvances.serves key i n hc.written (hc.inflight n hn)

/-- A new request is asked, and so will be answered with the row of a later moment. -/
lemma track_begins (s : System) (key : String) (query : ℕ) :
    Begins s (track s key query).1 [(key, .request (track s key query).2)] := by
  have hadvances : Advances s (track s key query).1 := by
    refine .of_requests (fun _ => List.prefix_rfl) fun n r hn => ⟨r, ?_, rfl, fun _ _ h => ?_⟩
    · obtain ⟨hlt, -⟩ := List.getElem?_eq_some_iff.mp hn
      show (s.requests ++ _)[n]? = some r
      rw [List.getElem?_append_left hlt, hn]
    · exact h.advance List.prefix_rfl
  have hserves : ∀ i, Serves (track s key query).1 key i s.requests.length := fun i =>
    ⟨{ key := key, query := query }, List.getElem?_concat_length, rfl, trivial⟩
  refine ⟨hadvances, rfl, rfl, rfl, fun k i hc => ?_, fun k i hc l hl hkey => ?_⟩
  · refine hc.advance hadvances (fun e he => Or.inl he) fun n hn => ?_
    change (s.inflight.set key s.requests.length).get k = some n at hn
    by_cases hk : k = key
    · subst hk
      rw [JsMap.get_set_self] at hn
      exact Or.inr (Option.some.inj hn ▸ hserves i)
    · rw [JsMap.get_set_of_ne hk] at hn
      exact Or.inl hn
  · obtain rfl : l = (key, .request s.requests.length) := List.mem_singleton.mp hl
    obtain rfl : key = k := hkey
    exact hserves i

lemma getSetting_begins (s : System) (key : String) (now : ℤ) :
    Begins s (getSetting s key now).1 (getSetting s key now).2 := by
  have hlook := lookUp_begins s key now
  unfold getSetting
  cases hl : lookUp s key now with
  | mk s' found =>
    rw [hl] at hlook
    cases found with
    | some lookup => exact hlook
    | none => exact hlook.trans (track_begins s' key _)

lemma lookUpAll_begins (now : ℤ) (s : System) (keys : List String) :
    Begins s (lookUpAll now s keys).1 (lookUpAll now s keys).2.1 := by
  induction keys generalizing s with
  | nil => exact Begins.refl s
  | cons key keys ih =>
    have hlook := lookUp_begins s key now
    unfold lookUpAll
    cases hl : lookUp s key now with
    | mk s' found =>
      rw [hl] at hlook
      have hrest := hlook.trans (ih s')
      cases found with
      | some lookup => exact hrest
      | none => exact hrest

lemma trackAll_begins (query : ℕ) (s : System) (keys : List String) :
    Begins s (trackAll query s keys).1 (trackAll query s keys).2 := by
  induction keys generalizing s with
  | nil => exact Begins.refl s
  | cons key keys ih => exact (track_begins s key query).trans (ih _)

lemma getSettings_begins (s : System) (keys : List String) (now : ℤ) :
    Begins s (getSettings s keys now).1 (getSettings s keys now).2 :=
  (lookUpAll_begins now s keys.eraseDups).trans (trackAll_begins _ _ _)

/-! ## What every step keeps -/

structure Keeps (s s' : System) : Prop where
  advances : Advances s s'
  coherent : ∀ key i, Coherent s key i → Coherent s' key i
  reader : ∀ key i call, Coherent s key i → (∀ r, s.readers call = some r → ReaderFresh s key i r) →
    ∀ r, s'.readers call = some r → ReaderFresh s' key i r

/-- A step that adds nothing to the cache and to what is in flight, and starts no read. -/
lemma Keeps.of_frame {s s' : System} (ha : Advances s s')
    (hc : ∀ key e, s'.cache.get key = some e → s.cache.get key = some e)
    (hf : ∀ key n, s'.inflight.get key = some n → s.inflight.get key = some n)
    (hr : s'.readers = s.readers) : Keeps s s' where
  advances := ha
  coherent key _ h := h.advance ha (fun e he => Or.inl (hc key e he)) fun n hn => Or.inl (hf key n hn)
  reader _ _ _ h hreader r hr' := (hreader r (hr ▸ hr')).advance ha h.written

/-- One request changes. -/
lemma Advances.of_modify {s s' : System} {n : ℕ} {f : Request → Request}
    (hh : s'.history = s.history) (hrequests : s'.requests = s.requests.modify n f)
    (hkey : ∀ r, (f r).key = r.key)
    (hanswer : ∀ r i, s.requests[n]? = some r → AnswerFresh s r.key i r.answer →
      AnswerFresh s r.key i (f r).answer) : Advances s s' := by
  have hbefore : ∀ key, s.history key <+: s'.history key := fun key => by rw [hh]
  refine .of_requests hbefore fun m r hm => ?_
  rw [hrequests, List.getElem?_modify]
  by_cases hnm : n = m
  · subst hnm
    refine ⟨f r, by simp [hm], hkey r, fun i _ h => ?_⟩
    exact (hanswer r i hm h).advance (hbefore r.key)
  · exact ⟨r, by simp [hnm, hm], rfl, fun i _ h => h.advance (hbefore r.key)⟩

lemma keeps_beginRead {s s' : System} {lookups : List (String × Lookup)} (h : Begins s s' lookups)
    (call : ℕ) : Keeps s (beginRead s' call lookups) := by
  have hsame : Advances s' (beginRead s' call lookups) := .of_same (fun _ => List.prefix_rfl) rfl
  refine ⟨h.advances.trans hsame, fun _ _ hc => ?_, fun key i c hc hreader r hr => ?_⟩
  · exact (h.coherent _ _ hc).advance hsame (fun e he => Or.inl he) fun n hn => Or.inl hn
  · have hwritten := (h.coherent key i hc).written
    by_cases hcall : c = call
    · subst hcall
      obtain rfl : Reader.waiting lookups = r := by simpa [beginRead] using hr
      exact fun l hl hkey => (h.fresh key i hc l hl hkey).advance hsame hwritten
    · have hold : s.readers c = some r := by simpa [beginRead, hcall, h.readers] using hr
      exact ((hreader r hold).advance h.advances hc.written).advance hsame hwritten

lemma keeps_query (s : System) (query : ℕ) :
    Keeps s { s with requests := s.requests.map (readRow s query) } := by
  refine .of_frame (.of_requests (fun _ => List.prefix_rfl) fun n r hn => ?_) (fun _ _ h => h)
    (fun _ _ h => h) rfl
  refine ⟨readRow s query r, by simp [hn], ?_, fun i hi h => ?_⟩
  · unfold readRow
    split_ifs <;> rfl
  · unfold readRow
    split_ifs with hasked
    · -- the row as it is now
      have hne : s.history r.key ≠ [] := List.ne_nil_of_length_pos (by omega)
      obtain ⟨last, hlast⟩ : ∃ last, (s.history r.key).getLast? = some last :=
        ⟨_, List.getLast?_eq_some_getLast hne⟩
      have hrow : s.row r.key = last := by simp [System.row, hlast]
      show Since (s.history r.key) i (s.row r.key)
      rw [hrow]
      exact Since.of_last hlast hi
    · exact h

lemma keeps_setAnswer {s : System} {n : ℕ} {answer : Answer}
    (hanswer : ∀ r i, s.requests[n]? = some r → AnswerFresh s r.key i r.answer →
      AnswerFresh s r.key i answer) : Keeps s (setAnswer s n answer) :=
  .of_frame (.of_modify rfl rfl (fun _ => rfl) hanswer) (fun _ _ h => h) (fun _ _ h => h) rfl

/-- `track` puts a fulfilled request into the cache only while it is the one in flight. -/
lemma keeps_track {s : System} {n : ℕ} {r : Request} (hr : s.requests[n]? = some r) {now : ℤ}
    {value : Option SettingRecord} (hanswer : r.answer = .fulfilled value) :
    Keeps s (stopTracking (trackFulfilled s r.key n value now) n) := by
  unfold trackFulfilled
  split_ifs with hinflight
  · have hadvances : Advances s { s with
        cache := s.cache.set r.key ⟨value, now + ttl⟩
        inflight := s.inflight.delete r.key
        requests := s.requests.modify n fun r => { r with tracking := false } } :=
      .of_modify rfl rfl (fun _ => rfl) fun _ _ _ h => h
    refine ⟨hadvances, fun key i hc => ?_, fun key i call hc hreader q hq => ?_⟩
    · refine hc.advance hadvances (fun e he => ?_) fun m hm => Or.inl ?_
      · by_cases hkey : key = r.key
        · subst hkey
          obtain rfl : (⟨value, now + ttl⟩ : Cached) = e := by simpa [stopTracking] using he
          -- the request in flight is as new as the promise asks
          obtain ⟨r', hr', -, hfresh⟩ := hc.inflight n hinflight
          obtain rfl : r = r' := Option.some.inj (hr.symm.trans hr')
          rw [hanswer] at hfresh
          exact Or.inr (Fresh.advance hfresh (hadvances.history r.key))
        · exact Or.inl (by simpa [stopTracking, hkey] using he)
      · exact JsMap.get_delete_some hm
    · exact (hreader q hq).advance hadvances hc.written
  · exact .of_frame (.of_modify rfl rfl (fun _ => rfl) fun _ _ _ h => h) (fun _ _ h => h)
      (fun _ _ h => h) rfl

lemma keeps_trackRejected (s : System) (key : String) (n : ℕ) :
    Keeps s (stopTracking (trackRejected s key n) n) := by
  unfold trackRejected
  split_ifs
  · exact .of_frame (.of_modify rfl rfl (fun _ => rfl) fun _ _ _ h => h) (fun _ _ h => h)
      (fun _ _ h => JsMap.get_delete_some h) rfl
  · exact .of_frame (.of_modify rfl rfl (fun _ => rfl) fun _ _ _ h => h) (fun _ _ h => h)
      (fun _ _ h => h) rfl

/-- A settled lookup has the value it stands for. -/
lemma fresh_of_settled {s : System} {key : String} {i : ℕ} {l : Lookup}
    {value : Option SettingRecord} (h : LookupFresh s key i l) (hl : settled s l = some value) :
    Fresh s key i value := by
  cases l with
  | value v =>
    obtain rfl : v = value := Option.some.inj hl
    exact h
  | request n =>
    obtain ⟨r, hr, -, hanswer⟩ := h
    simp only [settled, hr, Option.map_some] at hl
    split at hl
    · rename_i v heq
      obtain rfl : v = value := Option.some.inj hl
      rw [Option.some.inj heq] at hanswer
      exact hanswer
    · cases hl

lemma fresh_of_settledAll {s : System} {key : String} {i : ℕ} {lookups : List (String × Lookup)}
    {values : List (String × Option SettingRecord)} (h : ReaderFresh s key i (.waiting lookups))
    (hvalues : settledAll s lookups = some values) : ReaderFresh s key i (.returned values) := by
  induction lookups generalizing values with
  | nil =>
    obtain rfl : [] = values := by simpa [settledAll] using hvalues
    intro v hv
    simp at hv
  | cons l lookups ih =>
    simp only [settledAll, List.mapM_cons, Option.bind_eq_bind, Option.bind_eq_some_iff,
      Option.map_eq_some_iff, Option.pure_def, Option.some.injEq] at hvalues
    obtain ⟨-, ⟨value, hvalue, rfl⟩, rest, hrest, rfl⟩ := hvalues
    intro v hv hkey
    rcases List.mem_cons.mp hv with rfl | hv
    · exact fresh_of_settled (h l List.mem_cons_self hkey) hvalue
    · exact ih (fun l hl => h l (List.mem_cons_of_mem _ hl)) hrest v hv hkey

lemma keeps_returns {s : System} {call : ℕ} {lookups : List (String × Lookup)}
    {values : List (String × Option SettingRecord)} (hcall : s.readers call = some (.waiting lookups))
    (hvalues : settledAll s lookups = some values) :
    Keeps s { s with readers := Function.update s.readers call (some (.returned values)) } := by
  have hadvances : Advances s
      { s with readers := Function.update s.readers call (some (.returned values)) } :=
    .of_same (fun _ => List.prefix_rfl) rfl
  refine ⟨hadvances, fun _ _ hc => ?_, fun key i c hc hreader r hr => ?_⟩
  · exact hc.advance hadvances (fun e he => Or.inl he) fun n hn => Or.inl hn
  · by_cases hsame : c = call
    · subst hsame
      obtain rfl : Reader.returned values = r := by simpa using hr
      exact (fresh_of_settledAll (hreader _ hcall) hvalues).advance hadvances hc.written
    · exact (hreader r (by simpa [hsame] using hr)).advance hadvances hc.written

/-- The value that a statement writes. -/
def Statement.value : Statement → String
  | .upsert value => value
  | .updateMany _ value => value

/-- A statement matches no row and does nothing, or it puts its value at the end. -/
lemma execute_cases (s : System) (key : String) (updatedAt : ℤ) (statement : Statement) :
    (execute s key updatedAt statement).history = s.history ∧
        (∃ expected value, statement = .updateMany expected value ∧
          (s.row key).map Row.value ≠ some expected) ∨
      (execute s key updatedAt statement).history =
          Function.update s.history key (s.history key ++ [some ⟨statement.value, updatedAt⟩]) ∧
        ∀ expected value, statement = .updateMany expected value →
          (s.row key).map Row.value = some expected := by
  cases statement with
  | upsert value => exact Or.inr ⟨rfl, fun _ _ heq => by cases heq⟩
  | updateMany expected value =>
    unfold execute
    by_cases hmatch : (s.row key).map Row.value ≠ some expected
    · left
      dsimp only
      rw [if_pos hmatch]
      exact ⟨rfl, expected, value, rfl, hmatch⟩
    · right
      dsimp only
      rw [if_neg hmatch]
      refine ⟨rfl, fun expected' value' heq => ?_⟩
      cases heq
      exact not_not.mp hmatch

lemma execute_history (s : System) (key key' : String) (updatedAt : ℤ) (statement : Statement) :
    s.history key' <+: (execute s key updatedAt statement).history key' := by
  rcases execute_cases s key updatedAt statement with ⟨heq, -⟩ | ⟨heq, -⟩
  · rw [heq]
  · rw [heq]
    by_cases hkey : key' = key
    · subst hkey
      rw [Function.update_self]
      exact List.prefix_append _ _
    · rw [Function.update_of_ne hkey]

lemma execute_frame (s : System) (key : String) (updatedAt : ℤ) (statement : Statement) :
    execute s key updatedAt statement =
      { s with history := (execute s key updatedAt statement).history } := by
  unfold execute
  split
  · rfl
  · split_ifs <;> rfl

theorem step_keeps {s s' : System} {e : Event} (h : step s e = some s') : Keeps s s' := by
  cases e with
  | getSetting call key now =>
    simp only [step] at h
    split_ifs at h
    cases h
    exact keeps_beginRead (getSetting_begins s key now) call
  | getSettings call keys now =>
    simp only [step] at h
    split_ifs at h
    cases h
    exact keeps_beginRead (getSettings_begins s keys now) call
  | query query =>
    cases h
    exact keeps_query s query
  | fulfil n =>
    simp only [step] at h
    split at h
    · -- the row was read when the query ran, and is handed on now
      rename_i key query row tracking hr
      cases h
      refine keeps_setAnswer fun r i hr' hanswer => ?_
      obtain rfl := Option.some.inj (hr.symm.trans hr')
      exact ⟨row, hanswer, rfl⟩
    · cases h
  | reject n =>
    simp only [step] at h
    split at h
    · cases h
      exact keeps_setAnswer fun _ _ _ _ => trivial
    · cases h
      exact keeps_setAnswer fun _ _ _ _ => trivial
    · cases h
  | track n now =>
    simp only [step] at h
    split at h
    · rename_i hr
      cases h
      exact keeps_track hr rfl
    · cases h
      exact keeps_trackRejected s _ n
    · cases h
  | returns call =>
    simp only [step] at h
    split at h
    · rename_i lookups hcall
      obtain ⟨values, hvalues, rfl⟩ := Option.map_eq_some_iff.mp h
      exact keeps_returns hcall hvalues
    · cases h
  | setSetting call key value =>
    simp only [step] at h
    split_ifs at h
    cases h
    exact .of_frame (.of_same (fun _ => List.prefix_rfl) rfl) (fun _ _ h => h) (fun _ _ h => h) rfl
  | replaceSettingIfUnchanged call key expected value =>
    simp only [step] at h
    split_ifs at h
    cases h
    exact .of_frame (.of_same (fun _ => List.prefix_rfl) rfl) (fun _ _ h => h) (fun _ _ h => h) rfl
  | execute call updatedAt =>
    simp only [step] at h
    split at h
    · rename_i key statement hcall
      cases h
      rw [execute_frame]
      exact .of_frame (.of_same (fun key' => execute_history s key key' updatedAt statement) rfl)
        (fun _ _ h => h) (fun _ _ h => h) rfl
    · cases h
  | resolves call =>
    simp only [step] at h
    split at h
    · cases h
      exact .of_frame (.of_same (fun _ => List.prefix_rfl) rfl) (fun _ _ => JsMap.get_delete_some)
        (fun _ _ => JsMap.get_delete_some) rfl
    · cases h
  | rejects call =>
    simp only [step] at h
    split at h
    · cases h
      exact .of_frame (.of_same (fun _ => List.prefix_rfl) rfl) (fun _ _ h => h) (fun _ _ h => h) rfl
    · cases h
  | clearCache =>
    cases h
    refine .of_frame (.of_same (fun _ => List.prefix_rfl) rfl) ?_ ?_ rfl <;>
      exact fun key v hv => by cases hv

/-! ## Where a write stands -/

/-- What a statement that the database took left behind as the `i`-th state of the row: the value it
writes, or, where no row matched, the row that was there. -/
def Statement.Left (history : List (Option Row)) (i : ℕ) : Statement → Prop
  | .upsert value => ∃ updatedAt, history[i]? = some (some ⟨value, updatedAt⟩)
  | .updateMany expected value =>
    (∃ j before updatedAt, i = j + 1 ∧ history[j]? = some (some before) ∧ before.value = expected ∧
        history[i]? = some (some ⟨value, updatedAt⟩)) ∨
      ∃ row, history[i]? = some row ∧ row.map Row.value ≠ some expected

lemma Statement.Left.lt_length {history : List (Option Row)} {i : ℕ} {statement : Statement}
    (h : statement.Left history i) : i < history.length := by
  have hplace : ∃ row, history[i]? = some row := by
    cases statement with
    | upsert value =>
      obtain ⟨updatedAt, hrow⟩ := h
      exact ⟨_, hrow⟩
    | updateMany expected value =>
      rcases h with ⟨j, before, updatedAt, -, -, -, hrow⟩ | ⟨row, hrow, -⟩
      · exact ⟨_, hrow⟩
      · exact ⟨_, hrow⟩
  obtain ⟨row, hrow⟩ := hplace
  exact (List.getElem?_eq_some_iff.mp hrow).1

/-- Writes to come do not change what was left behind. -/
lemma Statement.Left.advance {history history' : List (Option Row)} {i : ℕ}
    {statement : Statement} (h : statement.Left history i) (hle : history <+: history') :
    statement.Left history' i := by
  cases statement with
  | upsert value =>
    obtain ⟨updatedAt, hrow⟩ := h
    exact ⟨updatedAt, getElem?_of_prefix hle hrow⟩
  | updateMany expected value =>
    rcases h with ⟨j, before, updatedAt, hi, hbefore, hvalue, hrow⟩ | ⟨row, hrow, hvalue⟩
    · exact Or.inl ⟨j, before, updatedAt, hi, getElem?_of_prefix hle hbefore, hvalue,
        getElem?_of_prefix hle hrow⟩
    · exact Or.inr ⟨row, getElem?_of_prefix hle hrow, hvalue⟩

/-- What the database holds is the last state of the row. -/
lemma getElem?_row {s : System} {key : String} (hne : s.history key ≠ []) :
    (s.history key)[(s.history key).length - 1]? = some (s.row key) := by
  rw [← List.getLast?_eq_getElem?, System.row, List.getLast?_eq_some_getLast hne]
  rfl

/-- The database takes a statement. -/
lemma left_execute {s : System} {key : String} (hne : s.history key ≠ []) (updatedAt : ℤ)
    (statement : Statement) :
    statement.Left ((execute s key updatedAt statement).history key)
      (((execute s key updatedAt statement).history key).length - 1) := by
  rcases execute_cases s key updatedAt statement with
    ⟨hsame, expected, value, rfl, hmatch⟩ | ⟨happend, hmatch⟩
  · rw [hsame]
    exact Or.inr ⟨s.row key, getElem?_row hne, hmatch⟩
  · rw [happend, Function.update_self, List.length_append, List.length_singleton,
      Nat.add_sub_cancel]
    have hlast : (s.history key ++ [some ⟨statement.value, updatedAt⟩])[(s.history key).length]? =
        some (some ⟨statement.value, updatedAt⟩) := List.getElem?_concat_length
    cases statement with
    | upsert value => exact ⟨updatedAt, hlast⟩
    | updateMany expected value =>
      obtain ⟨before, hbefore, hvalue⟩ := Option.map_eq_some_iff.mp (hmatch expected value rfl)
      have hpos : 0 < (s.history key).length := List.length_pos_iff.mpr hne
      refine Or.inl ⟨(s.history key).length - 1, before, updatedAt, by omega, ?_, hvalue, hlast⟩
      rw [List.getElem?_append_left (by omega), getElem?_row hne, hbefore]

/-- A call that writes this value to the key. -/
def Event.Writes (key value : String) : Event → Prop
  | .setSetting _ key' value' => key' = key ∧ value' = value
  | .replaceSettingIfUnchanged _ key' _ value' => key' = key ∧ value' = value
  | _ => False

/-- What a step does to the writes and the rows. -/
inductive Move (s s' : System) (e : Event) : Prop
  | idle (hhistory : s'.history = s.history) (hwriters : s'.writers = s.writers)
  | begins (call : ℕ) (w : Writer) (hhistory : s'.history = s.history)
      (hwriters : s'.writers = Function.update s.writers call (some w)) (hindex : w.index = none)
      (hcall : e.Writes w.key w.statement.value)
  | takes (call : ℕ) (key : String) (statement : Statement) (updatedAt : ℤ)
      (hcall : s.writers call = some ⟨key, statement, none⟩)
      (hhistory : s'.history = (execute s key updatedAt statement).history)
      (hwriters : s'.writers = Function.update s.writers call
        (some ⟨key, statement, some ((s'.history key).length - 1)⟩))
  | ends (call : ℕ) (hhistory : s'.history = s.history)
      (hwriters : s'.writers = Function.update s.writers call none)

lemma step_move {s s' : System} {e : Event} (h : step s e = some s') : Move s s' e := by
  cases e with
  | getSetting call key now =>
    simp only [step] at h
    split_ifs at h
    cases h
    have hbegins := getSetting_begins s key now
    exact .idle hbegins.history hbegins.writers
  | getSettings call keys now =>
    simp only [step] at h
    split_ifs at h
    cases h
    have hbegins := getSettings_begins s keys now
    exact .idle hbegins.history hbegins.writers
  | query query =>
    cases h
    exact .idle rfl rfl
  | fulfil n =>
    simp only [step] at h
    split at h <;> cases h
    exact .idle rfl rfl
  | reject n =>
    simp only [step] at h
    split at h <;> cases h <;> exact .idle rfl rfl
  | track n now =>
    simp only [step] at h
    split at h
    · cases h
      unfold stopTracking trackFulfilled
      split_ifs <;> exact .idle rfl rfl
    · cases h
      unfold stopTracking trackRejected
      split_ifs <;> exact .idle rfl rfl
    · cases h
  | returns call =>
    simp only [step] at h
    split at h
    · obtain ⟨values, -, rfl⟩ := Option.map_eq_some_iff.mp h
      exact .idle rfl rfl
    · cases h
  | setSetting call key value =>
    simp only [step] at h
    split_ifs at h
    cases h
    exact .begins call ⟨key, .upsert value, none⟩ rfl rfl rfl ⟨rfl, rfl⟩
  | replaceSettingIfUnchanged call key expected value =>
    simp only [step] at h
    split_ifs at h
    cases h
    exact .begins call ⟨key, .updateMany expected value, none⟩ rfl rfl rfl ⟨rfl, rfl⟩
  | execute call updatedAt =>
    simp only [step] at h
    split at h
    · rename_i key statement hcall
      cases h
      refine .takes call key statement updatedAt hcall rfl ?_
      rw [execute_frame]
      rfl
    · cases h
  | resolves call =>
    simp only [step] at h
    split at h <;> cases h
    exact .ends call rfl rfl
  | rejects call =>
    simp only [step] at h
    split at h <;> cases h
    exact .ends call rfl rfl
  | clearCache =>
    cases h
    exact .idle rfl rfl

/-- A call of another writer than the one that changes. -/
lemma writers_update {s : System} {call c : ℕ} {w : Writer} {o : Option Writer}
    (h : Function.update s.writers call o c = some w) : o = some w ∨ s.writers c = some w := by
  by_cases hc : c = call
  · rw [hc, Function.update_self] at h
    exact Or.inl h
  · rw [Function.update_of_ne hc] at h
    exact Or.inr h

/-- A write that the database has taken has left its state behind in the history of its row. -/
structure Placed (s : System) : Prop where
  nonempty : ∀ key, s.history key ≠ []
  left : ∀ call w i, s.writers call = some w → w.index = some i →
    w.statement.Left (s.history w.key) i

lemma placed_step {s s' : System} {e : Event} (hp : Placed s) (h : step s e = some s') :
    Placed s' := by
  have hhistory := (step_keeps h).advances.history
  have hnonempty : ∀ key, s'.history key ≠ [] := fun key hnil =>
    hp.nonempty key (List.prefix_nil.mp (hnil ▸ hhistory key))
  refine ⟨hnonempty, fun call w i hw hi => ?_⟩
  have hold : s.writers call = some w → w.statement.Left (s'.history w.key) i :=
    fun hbefore => (hp.left call w i hbefore hi).advance (hhistory w.key)
  cases step_move h with
  | idle _ hwriters =>
    rw [hwriters] at hw
    exact hold hw
  | begins c w' _ hwriters hindex _ =>
    rw [hwriters] at hw
    rcases writers_update hw with hnew | hbefore
    · cases hnew
      rw [hindex] at hi
      cases hi
    · exact hold hbefore
  | takes c key statement updatedAt _ htaken hwriters =>
    rw [hwriters] at hw
    rcases writers_update hw with hnew | hbefore
    · cases hnew
      cases hi
      rw [htaken]
      exact left_execute (hp.nonempty key) updatedAt statement
    · exact hold hbefore
  | ends c _ hwriters =>
    rw [hwriters] at hw
    rcases writers_update hw with hnew | hbefore
    · cases hnew
    · exact hold hbefore

/-- Calls and rows hold what the events write: a row, after its first state, only that. -/
structure Told (es : List Event) (s : System) : Prop where
  writers : ∀ call w, s.writers call = some w → ∃ e ∈ es, e.Writes w.key w.statement.value
  rows : ∀ key j row, 0 < j → (s.history key)[j]? = some row →
    ∃ value updatedAt, row = some ⟨value, updatedAt⟩ ∧ ∃ e ∈ es, e.Writes key value

lemma told_step {es : List Event} {s s' : System} {e : Event} (ht : Told es s) (he : e ∈ es)
    (h : step s e = some s') : Told es s' := by
  cases step_move h with
  | idle hhistory hwriters =>
    constructor
    · rw [hwriters]
      exact ht.writers
    · rw [hhistory]
      exact ht.rows
  | begins c w' hhistory hwriters _ hcall =>
    constructor
    · intro call w hw
      rw [hwriters] at hw
      rcases writers_update hw with hnew | hbefore
      · cases hnew
        exact ⟨e, he, hcall⟩
      · exact ht.writers call w hbefore
    · rw [hhistory]
      exact ht.rows
  | takes c key statement updatedAt hcall htaken hwriters =>
    have hwritten : ∃ e ∈ es, e.Writes key statement.value := ht.writers c _ hcall
    constructor
    · intro call w hw
      rw [hwriters] at hw
      rcases writers_update hw with hnew | hbefore
      · cases hnew
        exact hwritten
      · exact ht.writers call w hbefore
    · intro key' j row hj hrow
      rw [htaken] at hrow
      rcases execute_cases s key updatedAt statement with ⟨hsame, -⟩ | ⟨happend, -⟩
      · rw [hsame] at hrow
        exact ht.rows key' j row hj hrow
      · rw [happend] at hrow
        by_cases hkey : key' = key
        · subst hkey
          rw [Function.update_self] at hrow
          by_cases hlt : j < (s.history key').length
          · rw [List.getElem?_append_left hlt] at hrow
            exact ht.rows key' j row hj hrow
          · rw [List.getElem?_append_right (not_lt.mp hlt)] at hrow
            obtain rfl := List.mem_singleton.mp (List.mem_of_getElem? hrow)
            exact ⟨statement.value, updatedAt, rfl, hwritten⟩
        · rw [Function.update_of_ne hkey] at hrow
          exact ht.rows key' j row hj hrow
  | ends c hhistory hwriters =>
    constructor
    · intro call w hw
      rw [hwriters] at hw
      rcases writers_update hw with hnew | hbefore
      · cases hnew
      · exact ht.writers call w hbefore
    · rw [hhistory]
      exact ht.rows

/-! ## Main result -/

/-- What holds of a state `t` that comes after the write `w` has resolved, which left behind the
`i`-th state of its row: `before` is the state the service was in then, and `es` are all events. -/
structure ReadsAfterWrite (es : List Event) (w : Writer) (i : ℕ) (before t : System) : Prop where
  /-- The `i`-th state is that of the write. -/
  left : w.statement.Left (t.history w.key) i
  /-- The later ones are those of other writes. -/
  later : ∀ j row, i < j → (t.history w.key)[j]? = some row →
    ∃ value updatedAt, row = some ⟨value, updatedAt⟩ ∧ ∃ e ∈ es, e.Writes w.key value
  /-- A read that had not started by then returns the `i`-th state's record or a later one. -/
  reads : ∀ call values value, before.readers call = none →
    t.readers call = some (.returned values) → (w.key, value) ∈ values → Fresh t w.key i value
  /-- The cache has no older record. -/
  cache : ∀ entry, t.cache.get w.key = some entry → Fresh t w.key i entry.value
  /-- No request that a read can join has or will have an older record. -/
  inflight : ∀ n, t.inflight.get w.key = some n → Serves t w.key i n

lemma placed_start (table : String → Option Row) : Placed (start table) where
  nonempty _ := List.cons_ne_nil _ _
  left _ _ _ hw := by cases hw

lemma told_start (es : List Event) (table : String → Option Row) : Told es (start table) where
  writers _ _ hw := by cases hw
  rows key j row hj hrow := by
    have hlt : j < 1 := (List.getElem?_eq_some_iff.mp hrow).1
    omega

/-- **Settings cache coherence**: for every interleaving of calls, over every table. -/
theorem reads_after_write (table : String → Option Row) (pre post : List Event) (s t : System)
    (call i : ℕ) (w : Writer) (hpre : run step (start table) pre = some s)
    (hw : s.writers call = some w) (hi : w.index = some i)
    (hpost : run step s (.resolves call :: post) = some t) :
    ReadsAfterWrite (pre ++ .resolves call :: post) w i s t := by
  have hplaced : Placed s :=
    run_invariant (fun _ _ _ hp h => placed_step hp h) (placed_start table) hpre
  have hleft : w.statement.Left (s.history w.key) i := hplaced.left call w i hw hi
  have htold : Told (pre ++ .resolves call :: post) t := by
    have hall : run step (start table) (pre ++ .resolves call :: post) = some t := by
      rw [run_append, hpre]
      exact hpost
    refine run_invariant_along (fun _ _ _ ht he h => told_step ht he h) (told_start _ table)
      (along_of_forall step _ fun _ he => he) hall
  obtain ⟨s', hs', hrun⟩ := (run_cons_eq_some _).mp hpost
  -- right after the write has resolved, nothing is cached or in flight for its key
  have hresolved : Coherent s' w.key i ∧ s'.readers = s.readers := by
    obtain ⟨key, statement, index⟩ := w
    obtain rfl : index = some i := hi
    simp only [step, hw, Option.some.injEq] at hs'
    subst hs'
    refine ⟨⟨hleft.lt_length, fun e he => ?_, fun n hn => ?_⟩, rfl⟩
    · simp [invalidate] at he
    · simp [invalidate] at hn
  have hcoherent : Coherent t w.key i := by
    refine run_invariant (I := fun s => Coherent s w.key i) (fun s e s' hc h => ?_) hresolved.1 hrun
    exact (step_keeps h).coherent w.key i hc
  have hhistory : s.history w.key <+: t.history w.key := by
    refine run_invariant (I := fun u => s.history w.key <+: u.history w.key) (fun u e u' hu h => ?_)
      List.prefix_rfl hpost
    exact hu.trans ((step_keeps h).advances.history w.key)
  refine
    { left := hleft.advance hhistory
      later := fun j row hj hrow => htold.rows w.key j row (Nat.zero_lt_of_lt hj) hrow
      reads := fun c values value hnew hreturned hmem => ?_
      cache := hcoherent.cache
      inflight := hcoherent.inflight }
  have hreader : Coherent t w.key i ∧ ∀ r, t.readers c = some r → ReaderFresh t w.key i r := by
    refine run_invariant (I := fun s => Coherent s w.key i ∧
      ∀ r, s.readers c = some r → ReaderFresh s w.key i r) (fun s e s' hI h => ?_) ?_ hrun
    · exact ⟨(step_keeps h).coherent w.key i hI.1, (step_keeps h).reader w.key i c hI.1 hI.2⟩
    · refine ⟨hresolved.1, fun r hr => ?_⟩
      rw [hresolved.2, hnew] at hr
      cases hr
  exact hreader.2 _ hreturned (w.key, value) hmem rfl

/-- Before a write that finds the row it expects, while a read is in flight. -/
def replacing : List Event :=
  [.getSetting 0 "a" 0, .query 0, .replaceSettingIfUnchanged 0 "a" "1" "2", .execute 0 5]

/-- A read that starts after the write, while the old one is answered. -/
def readingLater : List Event :=
  [.getSetting 1 "a" 6, .fulfil 0, .track 0 7, .query 1, .fulfil 1, .track 1 8, .returns 1]

/-- A read is in flight across a write; a read that starts after the write is not served by it. -/
theorem reads_after_write_in_flight : ∃ s t,
    s.writers 0 = some ⟨"a", .updateMany "1" "2", some 1⟩ ∧
    t.readers 1 = some (.returned [("a", some ⟨"a", "2", 5⟩)]) ∧
    ReadsAfterWrite (replacing ++ .resolves 0 :: readingLater) ⟨"a", .updateMany "1" "2", some 1⟩ 1
      s t := by
  refine ⟨_, _, ?_, ?_, reads_after_write (fun _ => some ⟨"1", 0⟩) replacing readingLater _ _ 0 1 _
    rfl rfl rfl rfl⟩
  · rfl
  · rfl

end SettingsService
end FirecrawlGateway
