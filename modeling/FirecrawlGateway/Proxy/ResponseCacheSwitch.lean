import FirecrawlGateway.Proxy.ResponseCacheTheorems

/-!
# Switching the response cache off

A cache that is switched off forgets what it has, but not what its collectors still read. An
onlooker notes when the cache was last off, when the fetch of each request started, and whose body
is stored under each key. As long as no collector stores a body whose fetch started before the
cache was last off, no such body is served.
-/

namespace FirecrawlGateway
namespace Proxy
namespace ResponseCache

variable {ρ : Type*} [DecidableEq ρ]

/-! ## What `set` does to its own key -/

/-- `set` stores the entry. -/
def accepts (c : ResponseCache ρ) (body : List UInt8) : Bool :=
  c.enabled && body.length ≤ maxCachedEntryBytes && body.length ≤ c.maxBytes

omit [DecidableEq ρ] in
lemma accepts_iff {c : ResponseCache ρ} {body : List UInt8} :
    c.accepts body = true ↔
      c.enabled = true ∧ body.length ≤ maxCachedEntryBytes ∧ body.length ≤ c.maxBytes := by
  unfold accepts
  rw [Bool.and_eq_true, Bool.and_eq_true, decide_eq_true_iff, decide_eq_true_iff, and_assoc]

lemma set_of_not_accepts {c : ResponseCache ρ} {entry : CachedResponse}
    (h : c.accepts entry.body = false) (key : ρ) : c.set key entry = c := by
  have hnot : ¬ (c.enabled = true ∧ entry.body.length ≤ maxCachedEntryBytes ∧
      entry.body.length ≤ c.maxBytes) := fun hall => by
    rw [accepts_iff.mpr hall] at h
    cases h
  unfold set
  split_ifs with hlarge hmax
  · rfl
  · rfl
  · obtain ⟨henabled, hsize⟩ := not_or.mp hlarge
    exact absurd ⟨by simpa using henabled, not_lt.mp hsize, not_lt.mp hmax⟩ hnot

/-- What is under the key after `set` is the new entry. -/
lemma get_of_set_self {c : ResponseCache ρ} {key : ρ} {entry e : CachedResponse}
    (haccepts : c.accepts entry.body = true) (h : (c.set key entry).entries.get key = some e) :
    e = entry := by
  obtain ⟨henabled, hsize, hmax⟩ := accepts_iff.mp haccepts
  unfold set at h
  rw [if_neg (by simp [henabled, hsize]), if_neg (not_lt.mpr hmax)] at h
  have hget := get_of_evict h
  exact Option.some.inj (hget.symm.trans (JsMap.get_set_self ..))

lemma remove_ttlMs (c : ResponseCache ρ) (key : ρ) (entry : CachedResponse) :
    (c.remove key entry).ttlMs = c.ttlMs := by
  unfold remove
  split_ifs <;> rfl

lemma get_ttlMs (c : ResponseCache ρ) (now : ℤ) (key : ρ) (maxAgeMs : Option ℚ) :
    (c.get now key maxAgeMs).1.ttlMs = c.ttlMs := by
  unfold get
  split
  · rfl
  · dsimp only
    split_ifs
    · exact remove_ttlMs ..
    · rfl
    · rfl

lemma evict_ttlMs (rounds : ℕ) (c : ResponseCache ρ) : (evict rounds c).ttlMs = c.ttlMs := by
  induction rounds generalizing c with
  | zero => rfl
  | succ rounds ih =>
    unfold evict
    split_ifs
    · split
      · rfl
      · exact (ih _).trans (remove_ttlMs ..)
    · rfl

lemma set_ttlMs (c : ResponseCache ρ) (key : ρ) (entry : CachedResponse) :
    (c.set key entry).ttlMs = c.ttlMs := by
  unfold set
  split_ifs
  · rfl
  · rfl
  · refine (evict_ttlMs ..).trans ?_
    split
    · rfl
    · exact remove_ttlMs ..

/-- A cache that is off has no entries. -/
def OffIsEmpty (c : ResponseCache ρ) : Prop := c.ttlMs ≤ 0 → ∀ key, c.entries.get key = none

lemma OffIsEmpty.setTtlMs {c : ResponseCache ρ} (h : c.OffIsEmpty) (ttlMs : ℤ) :
    (c.setTtlMs ttlMs).OffIsEmpty := by
  unfold ResponseCache.setTtlMs
  split_ifs with hsame hoff
  · exact h
  · exact fun _ _ => rfl
  · exact fun hle => absurd hle hoff

lemma OffIsEmpty.get {c : ResponseCache ρ} (h : c.OffIsEmpty) (now : ℤ) (key : ρ)
    (maxAgeMs : Option ℚ) : (c.get now key maxAgeMs).1.OffIsEmpty := by
  intro hoff k
  rw [get_ttlMs] at hoff
  cases hget : (c.get now key maxAgeMs).1.entries.get k with
  | none => rfl
  | some e => exact (get_of_get hget).symm.trans (h hoff k)

end ResponseCache
end Proxy

namespace CacheRuns

open Proxy

variable {ρ : Type*} [DecidableEq ρ] (p : Platform ρ) (config : ApiConfig)

/-! ## The onlooker -/

/-- A section of the instance, or the start of a fetch in the routing of a request. -/
inductive Moment (ρ : Type*)
  | section (e : Event ρ)
  | fetch (n : ℕ)

def advance (s : System ρ) : Moment ρ → Option (System ρ)
  | .section e => step p config s e
  | .fetch n => if (s.pending n).isSome then some s else none

/-- What the onlooker knows, in numbers of moments: how many there were, after which the cache was
last off, and in which the last fetch of a request started (at first the request itself). Last
comes whose body was stored under a key. -/
structure Notes (ρ : Type*) where
  time : ℕ := 0
  lastOff : ℕ := 0
  fetched : ℕ → ℕ := fun _ => 0
  writer : ρ → ℕ := fun _ => 0

/-- The key that a collector stores its body under when it goes on now. -/
def stores (s : System ρ) (n : ℕ) : Option ρ :=
  match s.collectors n with
  | none => none
  | some c =>
    if c.progress = .reading ∧ c.ending = some .closed ∧ c.stream.drop c.taken = [] ∧
        reportsSuccess (p.jsonParse c.chunks.flatten) = true ∧
        s.cache.accepts c.chunks.flatten = true then some c.key
    else none

/-- When a fetch of request `n` started, if this moment is one. -/
def noteFetch (notes : Notes ρ) : Moment ρ → ℕ → ℕ
  | .fetch n => Function.update notes.fetched n (notes.time + 1)
  | .section (.request n _ _) => Function.update notes.fetched n (notes.time + 1)
  | _ => notes.fetched

/-- The collector that goes on in this moment. -/
def readBy : Moment ρ → Option ℕ
  | .section (.read n) => some n
  | _ => none

def noteWriter (notes : Notes ρ) (s : System ρ) (e : Moment ρ) : ρ → ℕ :=
  match readBy e with
  | none => notes.writer
  | some n =>
    match stores p s n with
    | none => notes.writer
    | some key => Function.update notes.writer key n

def note (notes : Notes ρ) (s : System ρ) (e : Moment ρ) (s' : System ρ) : Notes ρ where
  time := notes.time + 1
  lastOff := if s'.cache.ttlMs ≤ 0 then notes.time + 1 else notes.lastOff
  fetched := noteFetch notes e
  writer := noteWriter p notes s e

/-- The instance with its onlooker. -/
def watch : System ρ × Notes ρ → Moment ρ → Option (System ρ × Notes ρ) :=
  EventMachine.watched (advance p config) (note p)

/-- If a collector stores its body in this moment, then the fetch started after the cache was last
off. -/
def FreshStore (w : System ρ × Notes ρ) (e : Moment ρ) : Prop :=
  ∀ n ∈ readBy e, (stores p w.1 n).isSome → w.2.lastOff < w.2.fetched n

instance (w : System ρ × Notes ρ) (e : Moment ρ) : Decidable (FreshStore p w e) :=
  inferInstanceAs (Decidable (∀ n ∈ readBy e, _))

/-- The body a request gets is that of the entry it asks for, which a collector has stored. -/
structure Served (w : System ρ × Notes ρ) (outside : Outside ρ) (request : ClientRequest)
    (body : List UInt8) (key : ρ) : Prop where
  lookup : ∃ ctx plan lookup, planned p config (w.1.seen outside) request = some (ctx, plan) ∧
    lookupInCache p (w.1.cache.setTtlMs (responseCacheTtlMs p outside.settings)) request ctx plan =
      some lookup ∧ lookup.key = key
  written : ∃ entry c, w.1.cache.entries.get key = some entry ∧ entry.body = body ∧
    w.1.collectors (w.2.writer key) = some c ∧ c.key = key ∧ Stored p c entry

/-- Where a request is answered from the cache, the fetch of the body started after the cache was
last off. -/
def Forgets (w : System ρ × Notes ρ) : Prop :=
  ∀ outside request fuel effects response body,
    handleRequest p config (w.1.seen outside) fuel request = some effects →
    response ∈ effects.filterMap Effect.responded → response.body = .cached body →
    ∃ key, Served p config w outside request body key ∧
      w.2.lastOff < w.2.fetched (w.2.writer key)

/-! ## What a section does to the cache -/

variable {p config} {s s' : System ρ}

omit [DecidableEq ρ] in
/-- The collector that stores now has read the whole body. -/
lemma stores_eq_some {n : ℕ} {key : ρ} (h : stores p s n = some key) :
    ∃ c, s.collectors n = some c ∧ c.key = key ∧ c.progress = .reading ∧
      c.ending = some .closed ∧ c.stream.drop c.taken = [] ∧
      reportsSuccess (p.jsonParse c.chunks.flatten) = true ∧
      s.cache.accepts c.chunks.flatten = true := by
  unfold stores at h
  split at h
  · cases h
  · rename_i c hc
    split_ifs at h with hall
    cases h
    exact ⟨c, hc, rfl, hall⟩

/-- A collector that goes on stores its body or leaves the cache as it is. -/
lemma cache_of_read {n : ℕ} (hstep : step p config s (.read n) = some s') :
    (stores p s n = none ∧ s'.cache = s.cache) ∨
    ∃ c, stores p s n = some c.key ∧ s.collectors n = some c ∧ s' = finish p s n c ∧
      s.cache.accepts c.chunks.flatten = true ∧
      reportsSuccess (p.jsonParse c.chunks.flatten) = true := by
  simp only [step] at hstep
  split at hstep
  · cases hstep
  · rename_i c hc
    split_ifs at hstep with hreading
    have hreading := not_not.mp hreading
    unfold resume at hstep
    split at hstep
    · rename_i hfailed
      cases hstep
      refine Or.inl ⟨?_, rfl⟩
      unfold stores
      rw [hc]
      exact if_neg fun hall => by rw [hfailed] at hall; cases hall.2.1
    · rename_i chunk rest hrest _
      cases hstep
      refine Or.inl ⟨?_, rfl⟩
      unfold stores
      rw [hc]
      exact if_neg fun hall => by rw [hrest] at hall; cases hall.2.2.1
    · rename_i hclosed hrest
      cases hstep
      by_cases hstores : reportsSuccess (p.jsonParse c.chunks.flatten) = true ∧
          s.cache.accepts c.chunks.flatten = true
      · refine Or.inr ⟨c, ?_, hc, rfl, hstores.2, hstores.1⟩
        unfold stores
        rw [hc]
        exact if_pos ⟨hreading, hclosed, hrest, hstores⟩
      · refine Or.inl ⟨?_, ?_⟩
        · unfold stores
          rw [hc]
          exact if_neg fun hall => hstores hall.2.2.2
        · unfold finish
          dsimp only
          split_ifs with hsuccess
          · have hrefused : s.cache.accepts c.chunks.flatten = false := by
              simpa using not_and.mp hstores hsuccess
            exact ResponseCache.set_of_not_accepts hrefused c.key
          · rfl
    · cases hstep

/-- The next cache has no new entries, and none at all where it is off. -/
def NoneAdded (cache cache' : ResponseCache ρ) : Prop :=
  (∀ key entry, cache'.entries.get key = some entry → cache.entries.get key = some entry) ∧
    (cache.OffIsEmpty → cache'.OffIsEmpty)

lemma noneAdded_refl (cache : ResponseCache ρ) : NoneAdded cache cache :=
  ⟨fun _ _ hentry => hentry, fun hoff => hoff⟩

lemma noneAdded_askCache (s : System ρ) (n : ℕ) (request : ClientRequest) (outside : Outside ρ)
    (ctx : ProxyContext) (plan : RoutePlan) :
    NoneAdded s.cache (askCache p s n request outside ctx plan).cache := by
  have hset : NoneAdded s.cache (s.cache.setTtlMs (responseCacheTtlMs p outside.settings)) :=
    ⟨fun _ _ => ResponseCache.get_of_setTtlMs, fun hoff => hoff.setTtlMs _⟩
  unfold askCache
  dsimp only
  split
  · exact hset
  · rename_i lookup _
    have hget : ∀ key entry,
        ((s.cache.setTtlMs (responseCacheTtlMs p outside.settings)).get s.clock lookup.key
          lookup.maxAgeMs).1.entries.get key = some entry →
        (s.cache.setTtlMs (responseCacheTtlMs p outside.settings)).entries.get key = some entry :=
      fun _ _ => ResponseCache.get_of_get
    have hoff := fun hoff => (hset.2 hoff).get s.clock lookup.key lookup.maxAgeMs
    split
    · rename_i heq
      rw [heq] at hget hoff
      exact ⟨fun key entry hentry => hset.1 key entry (hget key entry hentry), hoff⟩
    · rename_i heq
      rw [heq] at hget hoff
      exact ⟨fun key entry hentry => hset.1 key entry (hget key entry hentry), hoff⟩

lemma noneAdded_answered (s : System ρ) (n : ℕ) (r : Pending ρ)
    (answer : Except EarlyRejection Outcome) :
    NoneAdded s.cache (answered s n r answer).cache := by
  unfold answered
  dsimp only
  split
  · split <;> exact noneAdded_refl s.cache
  · exact noneAdded_refl s.cache

/-- Only a collector that goes on puts something in. -/
lemma noneAdded_step {e : Event ρ} (hstep : step p config s e = some s')
    (hread : readBy (.section e) = none) : NoneAdded s.cache s'.cache := by
  cases e with
  | clock now =>
    cases hstep
    exact noneAdded_refl s.cache
  | request n request outside =>
    simp only [step] at hstep
    split_ifs at hstep
    split at hstep
    · cases hstep
      exact noneAdded_refl s.cache
    · cases hstep
      exact noneAdded_askCache ..
  | routed n fuel =>
    simp only [step] at hstep
    split at hstep
    · cases hstep
    · obtain ⟨⟨run, answer⟩, -, rfl⟩ := Option.map_eq_some_iff.mp hstep
      exact noneAdded_answered ..
  | chunk n bytes | ended n ending =>
    simp only [step] at hstep
    split at hstep
    · cases hstep
    · split_ifs at hstep
      cases hstep
      exact noneAdded_refl s.cache
  | disconnect n =>
    simp only [step] at hstep
    split at hstep
    · cases hstep
    · cases hstep
      exact noneAdded_refl s.cache
  | read n => cases hread
  | timeout n =>
    simp only [step] at hstep
    split at hstep
    · cases hstep
    · split_ifs at hstep
      cases hstep
      exact noneAdded_refl s.cache

/-! ## What was stored stays with its collector -/

/-- Each collector that has stored an entry is still there and has stored it. -/
def StoredKept (p : Platform ρ) (s s' : System ρ) : Prop :=
  ∀ n c entry, s.collectors n = some c → Stored p c entry →
    ∃ c', s'.collectors n = some c' ∧ c'.key = c.key ∧ Stored p c' entry

omit [DecidableEq ρ] in
lemma storedKept_of_collectors (h : s'.collectors = s.collectors) : StoredKept p s s' :=
  fun _ c _ hc hstored => ⟨c, by rw [h, hc], rfl, hstored⟩

omit [DecidableEq ρ] in
lemma storedKept_of_update {m : ℕ} {d : Collector ρ}
    (h : s'.collectors = Function.update s.collectors m (some d))
    (hd : ∀ c, s.collectors m = some c → ∀ entry, Stored p c entry →
      d.key = c.key ∧ Stored p d entry) : StoredKept p s s' := by
  intro n c entry hc hstored
  rw [h]
  by_cases hn : n = m
  · rw [hn] at hc ⊢
    exact ⟨d, Function.update_self .., hd c hc entry hstored⟩
  · exact ⟨c, (Function.update_of_ne hn ..).trans hc, rfl, hstored⟩

omit [DecidableEq ρ] in
/-- A collector that has stored nothing may do anything. -/
lemma storedKept_of_not_stored {m : ℕ} {c d : Collector ρ}
    (h : s'.collectors = Function.update s.collectors m (some d)) (hc : s.collectors m = some c)
    (hnot : ∀ entry, ¬ Stored p c entry) : StoredKept p s s' := by
  apply storedKept_of_update h
  intro other hother entry hstored
  rw [hc] at hother
  cases hother
  exact absurd hstored (hnot entry)

lemma storedKept_resume {n : ℕ} {c : Collector ρ} (hc : s.collectors n = some c)
    (hreading : c.progress = .reading) (hstep : resume p s n c = some s') :
    StoredKept p s s' := by
  have hnot := not_stored_of_reading (p := p) hreading
  unfold resume at hstep
  split at hstep
  · cases hstep
    exact storedKept_of_not_stored rfl hc hnot
  · cases hstep
    exact storedKept_of_not_stored rfl hc hnot
  · cases hstep
    unfold finish
    dsimp only
    split_ifs <;> exact storedKept_of_not_stored rfl hc hnot
  · cases hstep

lemma storedKept_step {e : Event ρ} (h : Inv p config s) (hstep : step p config s e = some s') :
    StoredKept p s s' := by
  cases e with
  | clock now =>
    cases hstep
    exact storedKept_of_collectors rfl
  | request n request outside =>
    simp only [step] at hstep
    split_ifs at hstep
    split at hstep
    · cases hstep
      exact storedKept_of_collectors rfl
    · cases hstep
      unfold askCache
      dsimp only
      split
      · exact storedKept_of_collectors rfl
      · split <;> exact storedKept_of_collectors rfl
  | routed n fuel =>
    simp only [step] at hstep
    split at hstep
    · cases hstep
    · rename_i r hr
      obtain ⟨⟨run, answer⟩, -, rfl⟩ := Option.map_eq_some_iff.mp hstep
      unfold answered
      dsimp only
      split
      · split
        · -- the collector is the first of its number
          refine storedKept_of_update rfl fun c hc => ?_
          have hnone := h.fresh n r hr
          rw [hc] at hnone
          cases hnone
        · exact storedKept_of_collectors rfl
      · exact storedKept_of_collectors rfl
  | chunk n bytes | ended n ending =>
    simp only [step] at hstep
    split at hstep
    · cases hstep
    · rename_i c hc
      split_ifs at hstep with hover
      cases hstep
      rw [Bool.or_eq_true, not_or, Option.not_isSome_iff_eq_none] at hover
      exact storedKept_of_not_stored rfl hc (not_stored_of_open hover.1)
  | disconnect n =>
    simp only [step] at hstep
    split at hstep
    · cases hstep
    · rename_i c hc
      cases hstep
      refine storedKept_of_update rfl fun other hother entry hstored => ?_
      rw [hc] at hother
      cases hother
      obtain ⟨hprogress, hclosed, hbody, hbound, hsuccess⟩ := hstored
      exact ⟨rfl, hprogress, hclosed, hbody, hbound, hsuccess⟩
  | read n =>
    simp only [step] at hstep
    split at hstep
    · cases hstep
    · rename_i c hc
      split_ifs at hstep with hreading
      exact storedKept_resume hc (not_not.mp hreading) hstep
  | timeout n =>
    simp only [step] at hstep
    split at hstep
    · cases hstep
    · rename_i c hc
      split_ifs at hstep with hreading
      cases hstep
      exact storedKept_of_not_stored rfl hc (not_stored_of_reading (not_not.mp hreading))

/-! ## What the onlooker remembers -/

/-- Each entry was stored by the collector in the notes, of a fetch that started after the cache was
last off. -/
structure Remembers (p : Platform ρ) (config : ApiConfig) (w : System ρ × Notes ρ) : Prop where
  inv : Inv p config w.1
  off : w.1.cache.OffIsEmpty
  past : w.2.lastOff ≤ w.2.time
  entries : ∀ key entry, w.1.cache.entries.get key = some entry →
    w.2.lastOff < w.2.fetched (w.2.writer key) ∧
      ∃ c, w.1.collectors (w.2.writer key) = some c ∧ c.key = key ∧ Stored p c entry

lemma Remembers.start (p : Platform ρ) (config : ApiConfig) (maxBytes : ℕ) :
    Remembers p config (start maxBytes, {}) where
  inv := Inv.start p config maxBytes
  off _ _ := rfl
  past := le_rfl
  entries _ _ h := by cases h

omit [DecidableEq ρ] in
/-- A later fetch is later than what was before. -/
lemma lt_noteFetch {notes : Notes ρ} (e : Moment ρ) {n time : ℕ} (htime : time ≤ notes.time)
    (h : time < notes.fetched n) : time < noteFetch notes e n := by
  have hupdate : ∀ m, time < Function.update notes.fetched m (notes.time + 1) n := by
    intro m
    by_cases hn : n = m
    · rw [hn, Function.update_self]
      omega
    · rwa [Function.update_of_ne hn]
  unfold noteFetch
  split
  · exact hupdate _
  · exact hupdate _
  · exact h

/-- A moment keeps the invariant and what was stored. -/
lemma inv_advance {e : Moment ρ} (h : Inv p config s) (hstep : advance p config s e = some s') :
    Inv p config s' ∧ StoredKept p s s' := by
  cases e with
  | «section» e => exact ⟨inv_step h hstep, storedKept_step h hstep⟩
  | fetch n =>
    simp only [advance] at hstep
    split_ifs at hstep
    cases hstep
    exact ⟨h, storedKept_of_collectors rfl⟩

/-- A moment without a stored body puts nothing in. -/
lemma noneAdded_advance {e : Moment ρ} (hstep : advance p config s e = some s')
    (hstores : ∀ n ∈ readBy e, stores p s n = none) : NoneAdded s.cache s'.cache := by
  cases e with
  | fetch n =>
    simp only [advance] at hstep
    split_ifs at hstep
    cases hstep
    exact noneAdded_refl s.cache
  | «section» e =>
    cases hread : readBy (Moment.section e) with
    | none => exact noneAdded_step hstep hread
    | some n =>
      cases e with
      | read m =>
        cases hread
        have hnone : stores p s n = none := hstores n rfl
        have hstepped : step p config s (.read n) = some s' := hstep
        rcases cache_of_read hstepped with ⟨-, hcache⟩ | ⟨c, hsome, -⟩
        · rw [hcache]
          exact noneAdded_refl s.cache
        · rw [hnone] at hsome
          cases hsome
      | _ => cases hread

lemma noteWriter_eq {notes : Notes ρ} {e : Moment ρ} (h : ∀ n ∈ readBy e, stores p s n = none) :
    noteWriter p notes s e = notes.writer := by
  unfold noteWriter
  cases hread : readBy e with
  | none => rfl
  | some n =>
    dsimp only
    rw [h n hread]

omit [DecidableEq ρ] in
/-- A collector stores its body in this moment, or none does. -/
lemma stores_or_not (p : Platform ρ) (s : System ρ) (e : Moment ρ) :
    (∀ n ∈ readBy e, stores p s n = none) ∨
      ∃ n key, e = .section (.read n) ∧ stores p s n = some key := by
  by_cases hnone : ∀ n ∈ readBy e, stores p s n = none
  · exact Or.inl hnone
  · push Not at hnone
    obtain ⟨n, hread, hstores⟩ := hnone
    obtain ⟨key, hkey⟩ := Option.ne_none_iff_exists'.mp hstores
    refine Or.inr ⟨n, key, ?_, hkey⟩
    unfold readBy at hread
    split at hread
    · cases hread
      rfl
    · cases hread

/-- The moment in which a collector stores its body. -/
lemma advance_stores {n : ℕ} {key : ρ} (h : Inv p config s) (hkey : stores p s n = some key)
    (hstep : advance p config s (.section (.read n)) = some s') :
    ∃ c entry, s.cache.accepts entry.body = true ∧ s'.cache = s.cache.set key entry ∧
      s'.collectors n = some c ∧ c.key = key ∧ Stored p c entry := by
  obtain ⟨c, hc, rfl, hreading, hclosed, hrest, hsuccess, haccepts⟩ := stores_eq_some hkey
  refine ⟨{ c with progress := .stored s.clock },
    ⟨200, c.contentType, c.chunks.flatten, s.clock⟩, haccepts, ?_⟩
  have hstepped : step p config s (.read n) = some s' := hstep
  rcases cache_of_read hstepped with ⟨hnone, -⟩ | ⟨c', -, hc', rfl, -⟩
  · rw [hkey] at hnone
    cases hnone
  · rw [hc] at hc'
    cases hc'
    unfold finish
    dsimp only
    rw [if_pos hsuccess]
    exact ⟨rfl, setCollector_self .., rfl,
      (h.reads n c hc hreading).stored hclosed hrest hsuccess s.clock⟩

variable {w w' : System ρ × Notes ρ} {e : Moment ρ}

/-- A cache that is off after a moment is empty after it. -/
lemma Remembers.off_step (h : Remembers p config w)
    (hstep : advance p config w.1 e = some w'.1) : w'.1.cache.OffIsEmpty := by
  rcases stores_or_not p w.1 e with hnone | ⟨n, key, rfl, hkey⟩
  · exact (noneAdded_advance hstep hnone).2 h.off
  · -- the cache is on where a body is stored
    obtain ⟨c, entry, haccepts, hcache, -⟩ := advance_stores h.inv hkey hstep
    have henabled := (ResponseCache.accepts_iff.mp haccepts).1
    unfold ResponseCache.enabled at henabled
    rw [Bool.and_eq_true, decide_eq_true_iff] at henabled
    intro hoff
    rw [hcache, ResponseCache.set_ttlMs] at hoff
    omega

/-- An entry that is still there stays with its collector and its fetch. -/
lemma Remembers.entry_kept (h : Remembers p config w)
    (hstep : advance p config w.1 e = some w'.1) {key : ρ} {entry : CachedResponse}
    (hentry : w.1.cache.entries.get key = some entry) :
    w.2.lastOff < noteFetch w.2 e (w.2.writer key) ∧
      ∃ c, w'.1.collectors (w.2.writer key) = some c ∧ c.key = key ∧ Stored p c entry := by
  obtain ⟨hlater, c, hc, hkey, hstored⟩ := h.entries key entry hentry
  obtain ⟨c', hc', hkey', hstored'⟩ := (inv_advance h.inv hstep).2 _ c entry hc hstored
  exact ⟨lt_noteFetch e h.past hlater, c', hc', hkey'.trans hkey, hstored'⟩

lemma Remembers.entries_step (h : Remembers p config w) (hfresh : FreshStore p w e)
    (hstep : advance p config w.1 e = some w'.1) {key : ρ} {entry : CachedResponse}
    (hentry : w'.1.cache.entries.get key = some entry) :
    w.2.lastOff < noteFetch w.2 e (noteWriter p w.2 w.1 e key) ∧
      ∃ c, w'.1.collectors (noteWriter p w.2 w.1 e key) = some c ∧ c.key = key ∧
        Stored p c entry := by
  rcases stores_or_not p w.1 e with hnone | ⟨n, key', rfl, hkey'⟩
  · rw [noteWriter_eq hnone]
    exact h.entry_kept hstep ((noneAdded_advance hstep hnone).1 key entry hentry)
  · obtain ⟨c, entry', haccepts, hcache, hc, hkey, hstored⟩ := advance_stores h.inv hkey' hstep
    have hwriter : noteWriter p w.2 w.1 (.section (.read n)) =
        Function.update w.2.writer key' n := by
      simp only [noteWriter, readBy, hkey']
    rw [hcache] at hentry
    rw [hwriter]
    by_cases hsame : key = key'
    · rw [hsame] at hentry ⊢
      rw [Function.update_self, ResponseCache.get_of_set_self haccepts hentry]
      exact ⟨lt_noteFetch _ h.past (hfresh n rfl (Option.isSome_of_mem hkey')), c, hc, hkey, hstored⟩
    · rw [Function.update_of_ne hsame]
      apply h.entry_kept hstep
      rcases ResponseCache.get_of_set hentry with ⟨heq, -⟩ | hget
      · exact absurd heq hsame
      · exact hget

/-- Every moment keeps what the onlooker remembers, as long as no body is stored whose fetch is
older than the last time the cache was off. -/
lemma remembers_step (h : Remembers p config w) (hfresh : FreshStore p w e)
    (hstep : watch p config w e = some w') : Remembers p config w' := by
  obtain ⟨hadvance, hnote⟩ := EventMachine.watched_eq_some.mp hstep
  have hoff := h.off_step hadvance
  have hpast := h.past
  refine ⟨(inv_advance h.inv hadvance).1, hoff, ?_, fun key entry hentry => ?_⟩
  · rw [hnote]
    unfold note
    dsimp only
    split_ifs <;> omega
  · have hon : ¬ w'.1.cache.ttlMs ≤ 0 := by
      intro hle
      rw [hoff hle key] at hentry
      cases hentry
    rw [hnote]
    unfold note
    dsimp only
    rw [if_neg hon]
    exact h.entries_step hfresh hadvance hentry

/-- After every run in which each body that was stored had been fetched since the cache was last
off, no body is served that was fetched before. -/
theorem switched_off_forgets (p : Platform ρ) (config : ApiConfig) (maxBytes : ℕ)
    {moments : List (Moment ρ)}
    (hfresh : EventMachine.Along (watch p config) (FreshStore p) (start maxBytes, {}) moments)
    (hrun : EventMachine.run (watch p config) (start maxBytes, {}) moments = some w) :
    Forgets p config w := by
  have hinv : Remembers p config w :=
    EventMachine.run_invariant_along (fun _ _ _ h hG hstep => remembers_step h hG hstep)
      (Remembers.start p config maxBytes) hfresh hrun
  intro outside request fuel effects response body hhandle hresponse hbody
  obtain ⟨ctx, plan, hplanned, hanswer⟩ := handleRequest_cached hhandle hresponse hbody
  obtain ⟨⟨lookup, entry, hlookup, hget, hsame⟩, -, -⟩ := answerPlan_cached hanswer hresponse hbody
  have hentry := ResponseCache.get_of_setTtlMs (ResponseCache.get_eq_some hget).1
  obtain ⟨hlater, c, hc, hkey, hstored⟩ := hinv.entries lookup.key entry hentry
  refine ⟨lookup.key, ⟨⟨ctx, plan, lookup, hplanned, hlookup, rfl⟩, ?_⟩, hlater⟩
  exact ⟨entry, c, hentry, hsame, hc, hkey, hstored⟩

/-! ## A cache that is switched off and on -/

/-- The lifetime is not set, which is 0. -/
def offOutside : Outside (List Char) :=
  { cloudOutside with settings := { cloudOutside.settings with responseCacheTtlSeconds := none } }

/-- The scrape comes when the cache was off, and is fetched and stored. -/
def storingMoments : List (Moment (List Char)) :=
  [.section (.request 1 plainScrape offOutside), .section (.request 0 plainScrape cloudOutside),
    .fetch 0] ++ (storingEvents.drop 1).map .section

theorem switched_off_forgets_storing : ∃ w,
    EventMachine.run (watch scrapePlatform ⟨true, 5242880, "", ""⟩) (start 1000, {})
      storingMoments = some w ∧
    scrapeAnswers w.1 = some [.cached answerChunks.flatten] ∧
    Forgets scrapePlatform ⟨true, 5242880, "", ""⟩ w := by
  have hrun : (EventMachine.run (watch scrapePlatform ⟨true, 5242880, "", ""⟩) (start 1000, {})
      storingMoments).map (fun w => scrapeAnswers w.1) =
        some (some [.cached answerChunks.flatten]) := by
    decide +kernel
  have hfresh : EventMachine.Along (watch scrapePlatform ⟨true, 5242880, "", ""⟩)
      (FreshStore scrapePlatform) (start 1000, {}) storingMoments := by
    decide +kernel
  obtain ⟨w, hw, hanswers⟩ := Option.map_eq_some_iff.mp hrun
  exact ⟨w, hw, hanswers, switched_off_forgets scrapePlatform _ 1000 hfresh hw⟩

/-- The cache is switched off and on again while upstream answers. -/
def reenabledMoments : List (Moment (List Char)) :=
  [.section (.request 0 plainScrape cloudOutside), .fetch 0, .section (.routed 0 2),
    .section (.request 1 plainScrape offOutside), .section (.request 2 plainScrape cloudOutside)] ++
  (storingEvents.drop 2).map .section

/-- The body that was fetched before is stored after, and served. -/
theorem reenabled_serves_old : ∃ w,
    EventMachine.run (watch scrapePlatform ⟨true, 5242880, "", ""⟩) (start 1000, {})
      reenabledMoments = some w ∧
    ¬ Forgets scrapePlatform ⟨true, 5242880, "", ""⟩ w := by
  have hrun : (EventMachine.run (watch scrapePlatform ⟨true, 5242880, "", ""⟩) (start 1000, {})
      reenabledMoments).map (fun w => (scrapeAnswers w.1,
        w.1.cache.entries.entries.all fun e => w.2.fetched (w.2.writer e.1) < w.2.lastOff)) =
        some (some [.cached answerChunks.flatten], true) := by
    decide +kernel
  obtain ⟨w, hw, heq⟩ := Option.map_eq_some_iff.mp hrun
  obtain ⟨hanswers, hold⟩ := Prod.mk.inj heq
  refine ⟨w, hw, fun hforgets => ?_⟩
  obtain ⟨effects, hhandle, hbodies⟩ := Option.map_eq_some_iff.mp hanswers
  have hmem : SentBody.cached answerChunks.flatten ∈
      (effects.filterMap Effect.responded).map SentResponse.body := by
    rw [hbodies]
    exact List.mem_singleton_self _
  obtain ⟨response, hresponse, hbody⟩ := List.mem_map.mp hmem
  obtain ⟨key, hserved, hlater⟩ :=
    hforgets cloudOutside plainScrape 2 effects response _ hhandle hresponse hbody
  -- the one entry is of the first fetch
  obtain ⟨entry, -, hentry, -⟩ := hserved.written
  have hbefore := List.all_eq_true.mp hold (key, entry) (JsMap.mem_entries.mpr hentry)
  rw [decide_eq_true_iff] at hbefore
  exact absurd hlater (Nat.lt_asymm hbefore)

end CacheRuns
end FirecrawlGateway
