import FirecrawlGateway.Proxy.AuditTheorems
import FirecrawlGateway.Proxy.CacheKeyTheorems
import FirecrawlGateway.Proxy.ResponseCacheRuns

/-!
# What the cache answers

Every entry of the cache was put there by a collector that had read its stream to the end. The
collectors are kept, and what they read does not change after that, so that an entry can be traced
back to its response for as long as it is there.
-/

namespace FirecrawlGateway

namespace Proxy
namespace ResponseCache

variable {ρ : Type*} [DecidableEq ρ] {c : ResponseCache ρ} {key k : ρ} {entry e : CachedResponse}

/-! ## Entries -/

lemma get_of_remove (h : (c.remove key entry).entries.get k = some e) :
    c.entries.get k = some e := by
  unfold remove at h
  split_ifs at h
  · exact JsMap.get_delete_some h
  · exact h

lemma get_of_evict {rounds : ℕ} (h : (evict rounds c).entries.get k = some e) :
    c.entries.get k = some e := by
  induction rounds generalizing c with
  | zero => exact h
  | succ rounds ih =>
    unfold evict at h
    split_ifs at h
    · split at h
      · exact h
      · exact get_of_remove (ih h)
    · exact h

lemma get_of_setTtlMs {ttlMs : ℤ} (h : (c.setTtlMs ttlMs).entries.get k = some e) :
    c.entries.get k = some e := by
  unfold setTtlMs at h
  split_ifs at h
  · exact h
  · cases h
  · exact h

omit [DecidableEq ρ] in
lemma setTtlMs_ttlMs (c : ResponseCache ρ) (ttlMs : ℤ) : (c.setTtlMs ttlMs).ttlMs = ttlMs := by
  unfold setTtlMs
  split_ifs with hsame
  · exact hsame.symm
  · rfl
  · rfl

/-- What is found is there, and young enough. -/
lemma get_eq_some {now : ℤ} {maxAgeMs : Option ℚ} (h : (c.get now key maxAgeMs).2 = some e) :
    c.entries.get key = some e ∧ now - e.storedAt < c.ttlMs ∧
      ∀ maxAge ∈ maxAgeMs, ((now - e.storedAt : ℤ) : ℚ) ≤ maxAge := by
  unfold get at h
  split at h
  · cases h
  · rename_i found hfound
    dsimp only at h
    split_ifs at h with hold hmax
    cases h
    refine ⟨hfound, not_le.mp hold, fun maxAge hmaxAge => ?_⟩
    rw [Option.mem_def.mp hmaxAge, Option.any_some, decide_eq_true_eq] at hmax
    exact not_lt.mp hmax

/-- A lookup puts nothing in. -/
lemma get_of_get {now : ℤ} {maxAgeMs : Option ℚ}
    (h : (c.get now key maxAgeMs).1.entries.get k = some e) : c.entries.get k = some e := by
  unfold get at h
  split at h
  · exact h
  · rename_i found hfound
    dsimp only at h
    split_ifs at h
    · exact get_of_remove h
    · exact h
    · by_cases hk : k = key
      · rw [hk, JsMap.get_set_self] at h
        rw [hk, hfound, h]
      · rwa [JsMap.get_set_of_ne hk, JsMap.get_delete_of_ne hk] at h

/-- `set` puts in its entry only. -/
lemma get_of_set (h : (c.set key entry).entries.get k = some e) :
    k = key ∧ e = entry ∨ c.entries.get k = some e := by
  unfold set at h
  split_ifs at h
  · exact Or.inr h
  · exact Or.inr h
  · have hset := get_of_evict h
    -- the rounds after `set` only evict
    by_cases hk : k = key
    · left
      rw [hk] at hset
      exact ⟨hk, Option.some.inj (hset.symm.trans (JsMap.get_set_self _ _ _))⟩
    · right
      rw [JsMap.get_set_of_ne hk] at hset
      split at hset
      · exact hset
      · exact get_of_remove hset

end ResponseCache
end Proxy

namespace CacheRuns

open Proxy

variable {ρ : Type*} {p : Platform ρ} {config : ApiConfig}

/-! ## What a request is to the cache -/

/-- What two requests have in common that share an entry. -/
structure CacheIdentity where
  apiKeyId : String
  upstreamUrl : String
  /-- The canonical JSON of the body, without `maxAge` and `storeInCache`. -/
  canonicalBody : List Char
deriving DecidableEq

def cacheIdentity (p : Platform ρ) (request : ClientRequest) (ctx : ProxyContext) :
    Option CacheIdentity :=
  match ctx.apiKeyId, p.jsonParse (getBodyBuffer p request) with
  | some apiKeyId, .ok (.object fields) =>
    some ⟨apiKeyId, ctx.upstreamUrl, canonicalJson p.numberToString (keyMaterial fields)⟩
  | _, _ => none

/-- The text of the key. -/
def CacheIdentity.text (identity : CacheIdentity) : List Char :=
  identity.apiKeyId.toList ++ '\n' ::
    (identity.upstreamUrl.toList ++ '\n' :: identity.canonicalBody)

/-- The `maxAge` of the request. -/
def maxAgeOf (p : Platform ρ) (request : ClientRequest) : Option JsonValue :=
  match p.jsonParse (getBodyBuffer p request) with
  | .ok body => body.member "maxAge"
  | .error _ => none

/-- A lookup is made for a body that is an object, and an API key. -/
lemma cacheLookupFor_eq_some {h : Hashing ρ} {input : CacheEligibilityInput}
    {lookup : CacheLookup ρ} (hlookup : cacheLookupFor h input = some lookup) :
    ∃ apiKeyId fields, input.apiKeyId = some apiKeyId ∧
      h.jsonParse input.bodyBuffer = .ok (.object fields) ∧
      lookupForFields h apiKeyId input.upstreamUrl fields = some lookup := by
  unfold cacheLookupFor at hlookup
  split at hlookup
  · cases hlookup
  · split at hlookup
    · cases hlookup
    · rename_i apiKeyId hid
      dsimp only at hlookup
      -- the guards before the body is parsed
      iterate 5
        split at hlookup
        · cases hlookup
      split at hlookup
      · rename_i fields hparse
        exact ⟨apiKeyId, fields, hid, hparse, hlookup⟩
      · cases hlookup

/-- A lookup is made with the identity of the request and its `maxAge`. -/
lemma lookupInCache_eq_some {cache : ResponseCache ρ} {request : ClientRequest}
    {ctx : ProxyContext} {plan : RoutePlan} {lookup : CacheLookup ρ}
    (h : lookupInCache p cache request ctx plan = some lookup) :
    (∃ identity, cacheIdentity p request ctx = some identity ∧
      lookup.key = p.sha256 identity.text) ∧
    ∀ maxAge, maxAgeOf p request = some (.number (.finite maxAge)) →
      lookup.maxAgeMs = some maxAge := by
  unfold lookupInCache at h
  split at h
  · obtain ⟨apiKeyId, fields, hid, hparse, hfields⟩ := cacheLookupFor_eq_some h
    dsimp only at hid hparse
    unfold lookupForFields at hfields
    dsimp only at hfields
    split at hfields
    · split_ifs at hfields
      obtain ⟨maxAgeMs, hmaxAge, rfl⟩ := Option.map_eq_some_iff.mp hfields
      refine ⟨⟨⟨apiKeyId, ctx.upstreamUrl, canonicalJson p.numberToString (keyMaterial fields)⟩,
        ?_, rfl⟩, fun maxAge hmember => ?_⟩
      · unfold cacheIdentity
        rw [hid, hparse]
      · -- a `maxAge` of 0 is not looked up at all
        unfold maxAgeOf at hmember
        rw [hparse] at hmember
        dsimp only at hmember
        rw [hmember] at hmaxAge
        unfold requestMaxAge at hmaxAge
        dsimp only at hmaxAge
        split_ifs at hmaxAge
        cases hmaxAge
        rfl
    · cases hfields
  · cases h

/-- The text of the key determines the identity. -/
lemma cacheIdentity_inj (hnumber : ∀ q, OneLine (p.numberToString q))
    {request request' : ClientRequest} {ctx ctx' : ProxyContext}
    {identity identity' : CacheIdentity} (h : cacheIdentity p request ctx = some identity)
    (h' : cacheIdentity p request' ctx' = some identity')
    (hid : OneLine identity.apiKeyId.toList) (hid' : OneLine identity'.apiKeyId.toList)
    (htext : identity.text = identity'.text) : identity = identity' := by
  unfold cacheIdentity at h h'
  split at h
  · split at h'
    · cases h
      cases h'
      obtain ⟨hapiKey, hurl, hbody⟩ := keyText_inj hnumber hid hid' htext
      dsimp only at hapiKey hurl
      rw [hapiKey, hurl, hbody]
    · cases h'
  · cases h

/-- Authentication takes its id from a record. -/
lemma oneLine_of_authenticate {outside : Outside ρ} {request : ClientRequest}
    {ctx ctx' : ProxyContext} (hctx : ctx.apiKeyId = none)
    (h : authenticate config outside request ctx = (ctx', .ok ())) :
    ∀ id ∈ ctx'.apiKeyId, OneLine id.toList := by
  intro id hid
  unfold authenticate at h
  dsimp only at h
  split at h
  · cases h
    rw [hctx] at hid
    cases hid
  · split at h
    · cases h
    · split at h
      · cases h
      · rename_i key _
        rw [← (Prod.mk.inj h).1] at hid
        cases hid
        exact key.oneLine

lemma apiKeyId_of_planRequest {outside : Outside ρ} {request : ClientRequest}
    {ctx ctx' : ProxyContext} {plan : RoutePlan}
    (h : planRequest p config outside request ctx = (ctx', .ok plan)) :
    ctx'.apiKeyId = ctx.apiKeyId := by
  unfold planRequest at h
  split at h
  · cases h
  · dsimp only at h
    split at h
    · cases h
    · cases h
      rfl

/-- A request that gets to the cache has an id on one line, if it has one. -/
lemma apiKeyId_of_planned {outside : Outside ρ} {request : ClientRequest} {ctx : ProxyContext}
    {plan : RoutePlan} (h : planned p config outside request = some (ctx, plan)) :
    ∀ id ∈ ctx.apiKeyId, OneLine id.toList := by
  unfold planned at h
  split at h
  · cases h
  · rename_i start hstart
    have hnone : start.apiKeyId = none := by
      obtain ⟨parsedUrl, -, rfl⟩ := Option.map_eq_some_iff.mp hstart
      rfl
    split at h
    · cases h
    · rename_i authenticated heq
      split at h
      · cases h
      · rename_i heq'
        cases h
        rw [apiKeyId_of_planRequest heq']
        exact oneLine_of_authenticate hnone heq

lemma oneLine_of_identity {outside : Outside ρ} {request : ClientRequest} {ctx : ProxyContext}
    {plan : RoutePlan} {identity : CacheIdentity}
    (h : planned p config outside request = some (ctx, plan))
    (hidentity : cacheIdentity p request ctx = some identity) :
    OneLine identity.apiKeyId.toList := by
  unfold cacheIdentity at hidentity
  split at hidentity
  · rename_i hid _
    cases hidentity
    exact apiKeyId_of_planned h _ hid
  · cases hidentity

/-! ## The invariant -/

/-- What a lookup was made for. -/
def KeyOf (p : Platform ρ) (r : Pending ρ) (key : ρ) : Prop :=
  ∃ identity, cacheIdentity p r.request r.ctx = some identity ∧ key = p.sha256 identity.text

/-- A response that is collected: a streamed 200 of Cloud in JSON, which answers a request that was
let in and not found in the cache. -/
structure Origin (p : Platform ρ) (config : ApiConfig) (r : Pending ρ) (result : ProxyResult)
    (key : ρ) : Prop where
  wasPlanned : planned p config r.outside r.request = some (r.ctx, r.plan)
  routed : ∃ fuel run outcome,
    handlePlan { r.outside.routing with cached := none } fuel r.ctx.routeMode r.plan =
      some (run, .ok outcome) ∧ result = outcome.result
  captured : isCaptured result (r.contentType result) = true
  key : KeyOf p r key

/-- A collector in its loop has the beginning of the stream. -/
structure Reads (c : Collector ρ) : Prop where
  taken : c.taken ≤ c.stream.length
  chunks : c.chunks = c.stream.take c.taken
  size : c.size = c.chunks.flatten.length
  bound : c.size ≤ maxCachedEntryBytes

/-- The entry is the whole body that the collector read. -/
structure Stored (p : Platform ρ) (c : Collector ρ) (entry : CachedResponse) : Prop where
  stored : c.progress = .stored entry.storedAt
  closed : c.ending = some .closed
  body : entry.body = c.stream.flatten
  bound : entry.body.length ≤ maxCachedEntryBytes
  success : reportsSuccess (p.jsonParse entry.body) = true

/-- A collector that is still reading has stored nothing. -/
lemma not_stored_of_reading {c : Collector ρ} (hreading : c.progress = .reading)
    (entry : CachedResponse) : ¬ Stored p c entry := by
  intro hentry
  cases hreading.symm.trans hentry.stored

/-- Nor has one whose stream is open. -/
lemma not_stored_of_open {c : Collector ρ} (hopen : c.ending = none) (entry : CachedResponse) :
    ¬ Stored p c entry := by
  intro hentry
  cases hopen.symm.trans hentry.closed

/-- A chunk that is not too much is the next one of the stream. -/
lemma Reads.push {c : Collector ρ} (h : Reads c) {chunk : List UInt8} {rest : List (List UInt8)}
    (hrest : c.stream.drop c.taken = chunk :: rest) (hreading : (c.push chunk).progress = .reading) :
    Reads (c.push chunk) := by
  have hnext : c.stream[c.taken]? = some chunk := by
    rw [← List.head?_drop, hrest]
    rfl
  unfold Collector.push at hreading ⊢
  dsimp only at hreading ⊢
  split_ifs at hreading ⊢ with hsize
  · -- too much, the collector gives up
    cases hreading
  · refine ⟨?_, ?_, ?_, not_lt.mp hsize⟩
    · exact (List.getElem?_eq_some_iff.mp hnext).1
    · show c.chunks ++ [chunk] = c.stream.take (c.taken + 1)
      rw [List.take_add_one, hnext, ← h.chunks]
      rfl
    · show c.size + chunk.length = (c.chunks ++ [chunk]).flatten.length
      rw [List.flatten_append, List.length_append, h.size, List.flatten_singleton]

/-- A collector that has read a closed stream to its end stores the whole of it. -/
lemma Reads.stored {c : Collector ρ} (h : Reads c) (hclosed : c.ending = some .closed)
    (hrest : c.stream.drop c.taken = [])
    (hsuccess : reportsSuccess (p.jsonParse c.chunks.flatten) = true) (time : ℤ) :
    Stored p { c with progress := .stored time }
      { status := 200, contentType := c.contentType, body := c.chunks.flatten, storedAt := time } := by
  have hall : c.chunks = c.stream := by
    rw [h.chunks]
    exact List.take_of_length_le (List.drop_eq_nil_iff.mp hrest)
  exact
    { stored := rfl
      closed := hclosed
      body := congrArg List.flatten hall
      bound := h.size ▸ h.bound
      success := hsuccess }

structure Inv [DecidableEq ρ] (p : Platform ρ) (config : ApiConfig) (s : System ρ) : Prop where
  wasPlanned : ∀ n r, s.pending n = some r →
    planned p config r.outside r.request = some (r.ctx, r.plan)
  lookups : ∀ n r, s.pending n = some r → ∀ lookup ∈ r.lookup, KeyOf p r lookup.key
  fresh : ∀ n r, s.pending n = some r → s.collectors n = none
  origin : ∀ n c, s.collectors n = some c → Origin p config c.source c.result c.key
  reads : ∀ n c, s.collectors n = some c → c.progress = .reading → Reads c
  entries : ∀ key entry, s.cache.entries.get key = some entry →
    ∃ n c, s.collectors n = some c ∧ c.key = key ∧ Stored p c entry

namespace Inv

variable [DecidableEq ρ] {s : System ρ} {n : ℕ}

lemma start (p : Platform ρ) (config : ApiConfig) (maxBytes : ℕ) :
    Inv p config (start maxBytes) where
  wasPlanned _ _ h := by cases h
  lookups _ _ h := by cases h
  fresh _ _ h := by cases h
  origin _ _ h := by cases h
  reads _ _ h := by cases h
  entries _ _ h := by cases h

/-- A cache without new entries. -/
lemma setCache (h : Inv p config s) {cache : ResponseCache ρ}
    (hcache : ∀ key entry, cache.entries.get key = some entry →
      s.cache.entries.get key = some entry) : Inv p config { s with cache := cache } where
  wasPlanned := h.wasPlanned
  lookups := h.lookups
  fresh := h.fresh
  origin := h.origin
  reads := h.reads
  entries key entry hentry := h.entries key entry (hcache key entry hentry)

/-- A request starts to be routed. -/
lemma startPending (h : Inv p config s) {r : Pending ρ} (hnew : s.collectors n = none)
    (hplanned : planned p config r.outside r.request = some (r.ctx, r.plan))
    (hlookup : ∀ lookup ∈ r.lookup, KeyOf p r lookup.key) :
    Inv p config (setPending s n (some r)) := by
  have hcases : ∀ m r', (setPending s n (some r)).pending m = some r' →
      m = n ∧ r' = r ∨ s.pending m = some r' := by
    intro m r' hr'
    by_cases hm : m = n
    · left
      rw [hm, setPending_self] at hr'
      exact ⟨hm, (Option.some.inj hr').symm⟩
    · right
      rwa [setPending_of_ne s hm] at hr'
  refine ⟨fun m r' hr' => ?_, fun m r' hr' => ?_, fun m r' hr' => ?_, h.origin, h.reads, h.entries⟩
  · rcases hcases m r' hr' with ⟨-, rfl⟩ | hold
    · exact hplanned
    · exact h.wasPlanned m r' hold
  · rcases hcases m r' hr' with ⟨-, rfl⟩ | hold
    · exact hlookup
    · exact h.lookups m r' hold
  · rcases hcases m r' hr' with ⟨rfl, -⟩ | hold
    · exact hnew
    · exact h.fresh m r' hold

/-- A request has been routed. -/
lemma endPending (h : Inv p config s) : Inv p config (setPending s n none) := by
  have hcases : ∀ m r, (setPending s n none).pending m = some r → s.pending m = some r := by
    intro m r hr
    have hm : m ≠ n := by
      rintro rfl
      rw [setPending_self] at hr
      cases hr
    rwa [setPending_of_ne s hm] at hr
  exact ⟨fun m r hr => h.wasPlanned m r (hcases m r hr), fun m r hr => h.lookups m r (hcases m r hr),
    fun m r hr => h.fresh m r (hcases m r hr), h.origin, h.reads, h.entries⟩

/-- A collector goes on, and what it has stored stays as it is. -/
lemma setCollector (h : Inv p config s) {c : Collector ρ} (hpending : s.pending n = none)
    (horigin : Origin p config c.source c.result c.key) (hreads : c.progress = .reading → Reads c)
    (hstored : ∀ c', s.collectors n = some c' → ∀ entry, Stored p c' entry →
      c'.key = c.key ∧ Stored p c entry) : Inv p config (setCollector s n c) := by
  have hself := setCollector_self s n c
  have hother : ∀ m ≠ n, (CacheRuns.setCollector s n c).collectors m = s.collectors m :=
    fun m hm => setCollector_of_ne s hm c
  have hcases : ∀ m c', (CacheRuns.setCollector s n c).collectors m = some c' →
      c' = c ∨ s.collectors m = some c' := by
    intro m c' hc'
    by_cases hm : m = n
    · left
      rw [hm, hself] at hc'
      exact (Option.some.inj hc').symm
    · right
      rwa [hother m hm] at hc'
  refine ⟨h.wasPlanned, h.lookups, fun m r hr => ?_, fun m c' hc' => ?_, fun m c' hc' => ?_,
    fun key entry hentry => ?_⟩
  · have hm : m ≠ n := by
      rintro rfl
      have hsome : s.pending m = some r := hr
      rw [hpending] at hsome
      cases hsome
    rw [hother m hm]
    exact h.fresh m r hr
  · rcases hcases m c' hc' with rfl | hold
    · exact horigin
    · exact h.origin m c' hold
  · rcases hcases m c' hc' with rfl | hold
    · exact hreads
    · exact h.reads m c' hold
  · obtain ⟨m, c', hc', hkey, hentry⟩ := h.entries key entry hentry
    by_cases hm : m = n
    · -- the entry was stored by this collector
      rw [hm] at hc'
      obtain ⟨hsame, hkept⟩ := hstored c' hc' entry hentry
      exact ⟨n, c, hself, hsame ▸ hkey, hkept⟩
    · exact ⟨m, c', (hother m hm).trans hc', hkey, hentry⟩

/-- A number is that of a request or of a collector. -/
lemma pending_eq_none (h : Inv p config s) {c : Collector ρ} (hc : s.collectors n = some c) :
    s.pending n = none := by
  cases hpending : s.pending n with
  | none => rfl
  | some r =>
    have hnone := h.fresh n r hpending
    rw [hc] at hnone
    cases hnone

/-- A collector goes on that has not stored anything. -/
lemma update (h : Inv p config s) {c c' : Collector ρ} (hc : s.collectors n = some c)
    (horigin : c'.source = c.source ∧ c'.result = c.result ∧ c'.key = c.key)
    (hreads : c'.progress = .reading → Reads c') (hnot : ∀ entry, ¬ Stored p c entry) :
    Inv p config (CacheRuns.setCollector s n c') := by
  obtain ⟨hsource, hresult, hkey⟩ := horigin
  apply h.setCollector (h.pending_eq_none hc) _ hreads
  · intro other hother entry hentry
    rw [hc] at hother
    cases hother
    exact absurd hentry (hnot entry)
  · rw [hsource, hresult, hkey]
    exact h.origin n c hc

lemma askCache (h : Inv p config s) {request : ClientRequest} {outside : Outside ρ}
    {ctx : ProxyContext} {plan : RoutePlan} (hnew : s.collectors n = none)
    (hplanned : planned p config outside request = some (ctx, plan)) :
    Inv p config (askCache p s n request outside ctx plan) := by
  have hcache : ∀ key entry, (s.cache.setTtlMs (responseCacheTtlMs p outside.settings)).entries.get
      key = some entry → s.cache.entries.get key = some entry :=
    fun key entry hentry => ResponseCache.get_of_setTtlMs hentry
  unfold CacheRuns.askCache
  dsimp only
  split
  · apply (h.setCache hcache).startPending
    · exact hnew
    · exact hplanned
    · intro lookup hlookup
      cases hlookup
  · rename_i lookup hlookup
    have hget : ∀ key entry, ((s.cache.setTtlMs (responseCacheTtlMs p outside.settings)).get s.clock
        lookup.key lookup.maxAgeMs).1.entries.get key = some entry →
          s.cache.entries.get key = some entry :=
      fun key entry hentry => hcache key entry (ResponseCache.get_of_get hentry)
    split
    · -- a hit is answered at once
      rename_i cache entry heq
      rw [heq] at hget
      exact h.setCache hget
    · rename_i cache heq
      rw [heq] at hget
      apply (h.setCache hget).startPending
      · exact hnew
      · exact hplanned
      · intro lookup' hlookup'
        cases hlookup'
        exact (lookupInCache_eq_some hlookup).1

lemma answered (h : Inv p config s) {r : Pending ρ} {fuel : ℕ} {run : Run}
    {answer : Except EarlyRejection Outcome} (hr : s.pending n = some r)
    (hhandle : handlePlan { r.outside.routing with cached := none } fuel r.ctx.routeMode r.plan =
      some (run, answer)) : Inv p config (answered s n r answer) := by
  unfold CacheRuns.answered
  dsimp only
  split
  · rename_i outcome lookup hlookup
    unfold captureForCache
    dsimp only
    by_cases hcaptured : isCaptured outcome.result (r.contentType outcome.result) = true
    · rw [if_pos hcaptured]
      apply h.endPending.setCollector
      · exact setPending_self s n none
      · exact ⟨h.wasPlanned n r hr, ⟨fuel, run, outcome, hhandle, rfl⟩, hcaptured,
          h.lookups n r hr lookup hlookup⟩
      · intro _
        exact ⟨le_rfl, rfl, rfl, Nat.zero_le _⟩
      · intro c hc
        have hnone := h.fresh n r hr
        rw [show s.collectors n = some c from hc] at hnone
        cases hnone
    · rw [if_neg hcaptured]
      exact h.endPending
  · exact h.endPending

/-- The end of the stream has been read. -/
lemma finish (h : Inv p config s) {c : Collector ρ} (hc : s.collectors n = some c)
    (hreading : c.progress = .reading) (hclosed : c.ending = some .closed)
    (hrest : c.stream.drop c.taken = []) : Inv p config (finish p s n c) := by
  have hreads := h.reads n c hc hreading
  unfold CacheRuns.finish
  dsimp only
  split_ifs with hsuccess
  · have hcollector : Inv p config
        (CacheRuns.setCollector s n { c with progress := .stored s.clock }) :=
      h.update hc ⟨rfl, rfl, rfl⟩ (fun hcontra => by cases hcontra)
        (not_stored_of_reading hreading)
    refine ⟨hcollector.wasPlanned, hcollector.lookups, hcollector.fresh, hcollector.origin,
      hcollector.reads, fun key entry hentry => ?_⟩
    rcases ResponseCache.get_of_set hentry with ⟨rfl, rfl⟩ | hold
    · exact ⟨n, _, setCollector_self _ _ _, rfl, hreads.stored hclosed hrest hsuccess s.clock⟩
    · exact hcollector.entries key entry hold
  · exact h.update hc ⟨rfl, rfl, rfl⟩ (fun hcontra => by cases hcontra)
      (not_stored_of_reading hreading)

end Inv

section Run

variable [DecidableEq ρ] {s s' : System ρ}

lemma inv_read {n : ℕ} {c : Collector ρ} (h : Inv p config s) (hc : s.collectors n = some c)
    (hreading : c.progress = .reading) (hstep : resume p s n c = some s') : Inv p config s' := by
  have hnot := not_stored_of_reading (p := p) hreading
  unfold resume at hstep
  split at hstep
  · cases hstep
    exact h.update hc ⟨rfl, rfl, rfl⟩ (fun hcontra => by cases hcontra) hnot
  · rename_i chunk rest hrest _
    cases hstep
    apply h.update hc _ (fun hpushed => (h.reads n c hc hreading).push hrest hpushed) hnot
    unfold Collector.push
    dsimp only
    split_ifs <;> exact ⟨rfl, rfl, rfl⟩
  · rename_i hclosed hrest
    cases hstep
    exact h.finish hc hreading hclosed hrest
  · cases hstep

/-- Every section keeps the invariant. -/
lemma inv_step {e : Event ρ} (h : Inv p config s) (hstep : step p config s e = some s') :
    Inv p config s' := by
  cases e with
  | clock now =>
    cases hstep
    exact ⟨h.wasPlanned, h.lookups, h.fresh, h.origin, h.reads, h.entries⟩
  | request n request outside =>
    simp only [step] at hstep
    split_ifs at hstep with hbusy
    rw [Bool.or_eq_true, not_or] at hbusy
    have hnew : s.collectors n = none := Option.not_isSome_iff_eq_none.mp hbusy.2
    split at hstep
    · cases hstep
      exact h
    · rename_i hplanned
      cases hstep
      exact h.askCache hnew hplanned
  | routed n fuel =>
    simp only [step] at hstep
    split at hstep
    · cases hstep
    · rename_i r hr
      obtain ⟨⟨run, answer⟩, hhandle, rfl⟩ := Option.map_eq_some_iff.mp hstep
      exact h.answered hr hhandle
  | chunk n bytes =>
    simp only [step] at hstep
    split at hstep
    · cases hstep
    · rename_i c hc
      split_ifs at hstep with hover
      cases hstep
      rw [Bool.or_eq_true, not_or, Option.not_isSome_iff_eq_none] at hover
      refine h.update hc ⟨rfl, rfl, rfl⟩ (fun hreading => ?_) (not_stored_of_open hover.1)
      -- what was read is the beginning of the longer stream too
      have hreads := h.reads n c hc hreading
      refine ⟨?_, ?_, hreads.size, hreads.bound⟩
      · exact hreads.taken.trans (List.length_append ▸ Nat.le_add_right _ _)
      · show c.chunks = (c.stream ++ [bytes]).take c.taken
        rw [List.take_append_of_le_length hreads.taken]
        exact hreads.chunks
  | ended n ending =>
    simp only [step] at hstep
    split at hstep
    · cases hstep
    · rename_i c hc
      split_ifs at hstep with hover
      cases hstep
      rw [Bool.or_eq_true, not_or, Option.not_isSome_iff_eq_none] at hover
      refine h.update hc ⟨rfl, rfl, rfl⟩ (fun hreading => ?_) (not_stored_of_open hover.1)
      obtain ⟨htaken, hchunks, hsize, hbound⟩ := h.reads n c hc hreading
      exact ⟨htaken, hchunks, hsize, hbound⟩
  | disconnect n =>
    simp only [step] at hstep
    split at hstep
    · cases hstep
    · rename_i c hc
      cases hstep
      -- the client may go away after the body was stored
      refine h.setCollector (h.pending_eq_none hc) (h.origin n c hc) (fun hreading => ?_)
        fun other hother entry hentry => ?_
      · obtain ⟨htaken, hchunks, hsize, hbound⟩ := h.reads n c hc hreading
        exact ⟨htaken, hchunks, hsize, hbound⟩
      · rw [hc] at hother
        cases hother
        exact ⟨rfl, hentry.stored, hentry.closed, hentry.body, hentry.bound, hentry.success⟩
  | read n =>
    simp only [step] at hstep
    split at hstep
    · cases hstep
    · rename_i c hc
      split_ifs at hstep with hreading
      exact inv_read h hc (not_not.mp hreading) hstep
  | timeout n =>
    simp only [step] at hstep
    split at hstep
    · cases hstep
    · rename_i c hc
      split_ifs at hstep with hreading
      cases hstep
      exact h.update hc ⟨rfl, rfl, rfl⟩ (fun hcontra => by cases hcontra)
        (not_stored_of_reading (not_not.mp hreading))

end Run

/-! ## Answers from the cache -/

section Answer

variable [DecidableEq ρ] {outside : Outside ρ} {request : ClientRequest} {ctx : ProxyContext}
  {plan : RoutePlan} {fuel : ℕ} {effects : List Effect} {response : SentResponse}
  {body : List UInt8}

lemma cacheStatus_eq_hit {cache : ResponseCache ρ} {now : ℤ} {lookup : Option (CacheLookup ρ)}
    {entry : CachedResponse} (h : cacheStatus cache now lookup = .hit entry) :
    ∃ found, lookup = some found ∧ (cache.get now found.key found.maxAgeMs).2 = some entry := by
  unfold cacheStatus at h
  split at h
  · cases h
  · rename_i found
    split at h
    · rename_i entry' hentry
      cases h
      exact ⟨found, rfl, hentry⟩
    · cases h

/-- A body from the cache is that of an entry that was found, and nothing else is done. -/
lemma answerPlan_cached (h : answerPlan p config outside fuel request ctx plan = some effects)
    (hresponse : response ∈ effects.filterMap Effect.responded)
    (hbody : response.body = .cached body) :
    (∃ lookup entry,
      lookupInCache p (outside.cache.setTtlMs (responseCacheTtlMs p outside.settings)) request ctx
        plan = some lookup ∧
      ((outside.cache.setTtlMs (responseCacheTtlMs p outside.settings)).get outside.later lookup.key
        lookup.maxAgeMs).2 = some entry ∧ entry.body = body) ∧
    effects.filterMap Effect.fetched = [] ∧ effects.filterMap Effect.reserved = [] := by
  unfold answerPlan at h
  dsimp only at h
  generalize hstatus : cacheStatus (outside.cache.setTtlMs _) outside.later _ = status at h
  obtain ⟨⟨run, answer⟩, hhandle, rfl⟩ := Option.map_eq_some_iff.mp h
  have hlog : ∀ e ∈ logEffects config request ctx.upstreamUrl (getBodyBuffer p request) run.log,
      e.responded = none := fun e he => (logEffects_quiet he).2.2
  cases answer with
  | error rejection =>
    have hsent := filterMap_after_log (rejectEarly request ctx { rejection with }) hlog
    have hmem : response ∈ (rejectEarly request ctx { rejection with }).filterMap
        Effect.responded := hsent ▸ hresponse
    rw [List.mem_singleton.mp hmem] at hbody
    cases hbody
  | ok outcome =>
    have hsent := filterMap_after_log (respond request ctx run.plan outcome
      (status.upstreamHeaders outside outcome.result) status) hlog
    have hmem : response ∈ (respond request ctx run.plan outcome
        (status.upstreamHeaders outside outcome.result) status).filterMap Effect.responded :=
      hsent ▸ hresponse
    rw [responded_respond, Option.mem_toList] at hmem
    rcases startedResponse_cases hmem with hstarted | ⟨-, rfl⟩
    swap
    · cases hbody
    rw [sendProxyResponse_body hstarted] at hbody
    cases status with
    | hit entry =>
      cases hbody
      have hcached : (CacheStatus.hit entry).cached p = some (hitResult p entry) := rfl
      rw [handlePlan_of_cached hcached] at hhandle
      cases hhandle
      obtain ⟨lookup, hlookup, hentry⟩ := cacheStatus_eq_hit hstatus
      exact ⟨⟨lookup, entry, hlookup, hentry, rfl⟩, respond_calls ..⟩
    | miss => cases hbody
    | off => cases hbody

/-- Only a request that gets to the cache is answered from it. -/
lemma handleRequest_cached (h : handleRequest p config outside fuel request = some effects)
    (hresponse : response ∈ effects.filterMap Effect.responded)
    (hbody : response.body = .cached body) :
    ∃ ctx plan, planned p config outside request = some (ctx, plan) ∧
      answerPlan p config outside fuel request ctx plan = some effects := by
  have hearly : ∀ ctx rejection, effects ≠ rejectEarly request ctx rejection := by
    rintro ctx rejection rfl
    rw [List.mem_singleton.mp hresponse] at hbody
    cases hbody
  unfold handleRequest at h
  unfold planned
  cases hcontext : createContext p request.originalUrl with
  | none =>
    rw [hcontext] at h
    cases h
    rw [List.mem_singleton.mp hresponse] at hbody
    cases hbody
  | some start =>
    rw [hcontext] at h
    dsimp only at h ⊢
    rcases hauthenticate : authenticate config outside request start with ⟨ctx, rejection | _⟩
    · rw [hauthenticate] at h
      cases h
      exact absurd rfl (hearly _ _)
    · rw [hauthenticate] at h
      dsimp only at h ⊢
      rcases hplan : planRequest p config outside request ctx with ⟨ctx', rejection | plan⟩
      · rw [hplan] at h
        cases h
        exact absurd rfl (hearly _ _)
      · rw [hplan] at h
        exact ⟨ctx', plan, rfl, h⟩

end Answer

/-- The body is that of an entry a collector made of a response to the same request, not too long
ago for the lifetime that is set and for the request. -/
structure Serves (p : Platform ρ) (config : ApiConfig) (s : System ρ) (outside : Outside ρ)
    (request : ClientRequest) (ctx : ProxyContext) (body : List UInt8) (c : Collector ρ)
    (entry : CachedResponse) : Prop where
  origin : Origin p config c.source c.result c.key
  stored : Stored p c entry
  body : entry.body = body
  same : ∃ identity, cacheIdentity p c.source.request c.source.ctx = some identity ∧
    cacheIdentity p request ctx = some identity
  fresh : s.clock - entry.storedAt < responseCacheTtlMs p outside.settings
  maxAge : ∀ maxAge, maxAgeOf p request = some (.number (.finite maxAge)) →
    ((s.clock - entry.storedAt : ℤ) : ℚ) ≤ maxAge

/-- What is in the cache, and what is answered from it. -/
structure CacheSound [DecidableEq ρ] (p : Platform ρ) (config : ApiConfig) (s : System ρ) :
    Prop where
  entries : ∀ key entry, s.cache.entries.get key = some entry →
    ∃ n c, s.collectors n = some c ∧ Origin p config c.source c.result c.key ∧ Stored p c entry
  answers : ∀ outside request fuel effects response body,
    handleRequest p config (s.seen outside) fuel request = some effects →
    response ∈ effects.filterMap Effect.responded → response.body = .cached body →
    effects.filterMap Effect.fetched = [] ∧ effects.filterMap Effect.reserved = [] ∧
    ∃ ctx plan n c entry, planned p config (s.seen outside) request = some (ctx, plan) ∧
      s.collectors n = some c ∧ Serves p config s outside request ctx body c entry

/-- After every run, the entries are complete responses of Cloud, and a request is answered with
those to the same request only. -/
theorem cache_sound [DecidableEq ρ] (p : Platform ρ) (config : ApiConfig) (maxBytes : ℕ)
    (hhash : Function.Injective p.sha256) (hnumber : ∀ q, OneLine (p.numberToString q))
    {events : List (Event ρ)} {s : System ρ}
    (hrun : EventMachine.run (step p config) (start maxBytes) events = some s) :
    CacheSound p config s := by
  have hinv : Inv p config s :=
    EventMachine.run_invariant (fun _ _ _ h hstep => inv_step h hstep)
      (Inv.start p config maxBytes) hrun
  constructor
  · intro key entry hentry
    obtain ⟨n, c, hc, -, hstored⟩ := hinv.entries key entry hentry
    exact ⟨n, c, hc, hinv.origin n c hc, hstored⟩
  · intro outside request fuel effects response body hhandle hresponse hbody
    obtain ⟨ctx, plan, hplanned, hanswer⟩ := handleRequest_cached hhandle hresponse hbody
    obtain ⟨⟨lookup, entry, hlookup, hget, hsame⟩, hfetched, hreserved⟩ :=
      answerPlan_cached hanswer hresponse hbody
    obtain ⟨hentry, hfresh, hmaxAge⟩ := ResponseCache.get_eq_some hget
    obtain ⟨n, c, hc, hkey, hstored⟩ :=
      hinv.entries lookup.key entry (ResponseCache.get_of_setTtlMs hentry)
    have horigin := hinv.origin n c hc
    obtain ⟨⟨identity, hidentity, hlookupKey⟩, hlookupAge⟩ := lookupInCache_eq_some hlookup
    obtain ⟨identity', hidentity', hkey'⟩ := horigin.key
    -- one key is one text, and one text is one identity
    have htext : identity'.text = identity.text := by
      apply hhash
      rw [← hkey', hkey, hlookupKey]
    have heq : identity' = identity :=
      cacheIdentity_inj hnumber hidentity' hidentity
        (oneLine_of_identity horigin.wasPlanned hidentity')
        (oneLine_of_identity hplanned hidentity) htext
    rw [ResponseCache.setTtlMs_ttlMs] at hfresh
    refine ⟨hfetched, hreserved, ctx, plan, n, c, entry, hplanned, hc, ?_⟩
    exact
      { origin := horigin
        stored := hstored
        body := hsame
        same := ⟨identity, heq ▸ hidentity', hidentity⟩
        fresh := hfresh
        maxAge := fun maxAge hmember => hmaxAge maxAge (hlookupAge maxAge hmember) }

/-! ## A response that is stored -/

def asciiBytes (text : String) : List UInt8 := text.toList.map fun c => c.toNat.toUInt8

def scrapeBody : List UInt8 := asciiBytes "\x7b\"url\":\"https://example.com\"\x7d"

/-- The answer to the scrape, in two chunks. -/
def answerChunks : List (List UInt8) := [asciiBytes "\x7b\"success\":", asciiBytes "true\x7d"]

/-- A platform for one scrape. -/
def scrapePlatform : Platform (List Char) where
  jsonParse bytes :=
    if bytes = scrapeBody then
      .ok (.object [(JsString.lit "url", .string (JsString.lit "https://example.com"))])
    else if bytes = answerChunks.flatten then
      .ok (.object [(JsString.lit "success", .bool true)])
    else .error "Unexpected end of JSON input"
  numberToString _ := ['0']
  sha256 := id
  parseUrl url := some ⟨url, false, url⟩
  hostname _ := some (JsString.lit "example.com")
  jsonStringify _ := []
  toNumber text := if text = "600" then some (.finite 600) else none
  toUtf8 bytes := bytes.map fun b => Char.ofNat b.toNat

def plainScrape : ClientRequest where
  method := "POST"
  originalUrl := "/v1/scrape"
  headers := [("authorization", .text "Bearer fc-1".toList),
    ("content-type", .text "application/json".toList)]
  body := .buffer scrapeBody
  rawBody := some (.buffer scrapeBody)
  admin := false
  requestId := "1"

/-- One Cloud key, and ten minutes to live for its answers. -/
def cloudOutside : Outside (List Char) where
  settings := ⟨some "cloud-only", some (.array [.string (JsString.lit "fc-cloud")]), some "600"⟩
  validateApiKey _ := some ⟨"reader", by decide, none, none, none⟩
  rateLimit := none
  quota := none
  now := 0
  later := 0
  cache := { entries := ∅, ttlMs := 0, maxBytes := 0 }
  responseHeaders _ := [("content-type", "application/json".toList)]
  routing := { keyId := id, credits := fun _ => {}, cloud := fun _ => .response 200 none,
               selfHosted := fun _ => none }

/-- The scrape is answered and collected while the client goes away. -/
def storingEvents : List (Event (List Char)) :=
  [.request 0 plainScrape cloudOutside, .routed 0 2, .chunk 0 (asciiBytes "\x7b\"success\":"),
    .read 0, .disconnect 0, .clock 5, .chunk 0 (asciiBytes "true\x7d"), .ended 0 .closed, .read 0,
    .read 0]

/-- The bodies a scrape is answered with. -/
def scrapeAnswers (s : System (List Char)) : Option (List SentBody) :=
  (handleRequest scrapePlatform ⟨true, 5242880, "", ""⟩ (s.seen cloudOutside) 2 plainScrape).map
    fun effects => (effects.filterMap Effect.responded).map SentResponse.body

/-- The next scrape is answered from the cache. -/
theorem cache_sound_storing : ∃ s,
    EventMachine.run (step scrapePlatform ⟨true, 5242880, "", ""⟩) (start 1000) storingEvents =
      some s ∧
    scrapeAnswers s = some [.cached answerChunks.flatten] ∧
    CacheSound scrapePlatform ⟨true, 5242880, "", ""⟩ s := by
  have hrun : (EventMachine.run (step scrapePlatform ⟨true, 5242880, "", ""⟩) (start 1000)
      storingEvents).map scrapeAnswers = some (some [.cached answerChunks.flatten]) := by
    decide +kernel
  have hnumber : OneLine ['0'] := by decide
  obtain ⟨s, hs, hanswers⟩ := Option.map_eq_some_iff.mp hrun
  exact ⟨s, hs, hanswers, cache_sound scrapePlatform ⟨true, 5242880, "", ""⟩ 1000
    Function.injective_id (fun _ => hnumber) hs⟩

end CacheRuns

end FirecrawlGateway
