import FirecrawlGateway.Lib.BoundedLru
import FirecrawlGateway.Proxy.ResponseCacheSwitch

/-!
# The response cache as a least recently used store

What a client of the cache may expect is said by a store that knows for each key what it keeps and
when it was last used. The cache keeps its entries in a map, in the order of their last use, and
counts their bytes as they come and go. After every sequence of operations the two agree.
-/

namespace FirecrawlGateway
namespace Proxy
namespace ResponseCache

open BoundedLru

variable {ρ : Type*} [DecidableEq ρ]

/-! ## Operations -/

/-- The clock may say anything; an entry that is set carries what it says. -/
inductive Operation (ρ : Type*)
  | setTtlMs (ttlMs : ℤ)
  | get (now : ℤ) (key : ρ) (maxAgeMs : Option ℚ)
  | set (key : ρ) (entry : CachedResponse)

def perform (c : ResponseCache ρ) : Operation ρ → ResponseCache ρ
  | .setTtlMs ttlMs => c.setTtlMs ttlMs
  | .get now key maxAgeMs => (c.get now key maxAgeMs).1
  | .set key entry => c.set key entry

/-- `new ResponseCache(options)`. -/
def new (ttlMs : ℤ) (maxBytes : ℕ) : ResponseCache ρ :=
  { entries := ∅, ttlMs := ttlMs, maxBytes := maxBytes }

/-! ## What may be expected -/

/-- The bytes an entry counts for. -/
def bytesOf (entry : CachedResponse) : ℕ := entry.body.length

/-- How long an entry lives, and what is kept. -/
structure Expected (ρ : Type*) where
  ttlMs : ℤ
  store : Store ρ CachedResponse

namespace Expected

variable (x : Expected ρ)

/-- A body that is put in: the cache is on, and the body is not too long. -/
def Admissible (x : Expected ρ) (maxBytes : ℕ) (body : List UInt8) : Prop :=
  0 < x.ttlMs ∧ 0 < maxBytes ∧ body.length ≤ maxCachedEntryBytes ∧ body.length ≤ maxBytes

instance (x : Expected ρ) (maxBytes : ℕ) (body : List UInt8) :
    Decidable (x.Admissible maxBytes body) :=
  inferInstanceAs (Decidable (_ ∧ _))

/-- The age of what is kept under the key has reached the lifetime. -/
def Expired (x : Expected ρ) (now : ℤ) (key : ρ) : Prop :=
  ∃ entry ∈ x.store.kept key, x.ttlMs ≤ now - entry.storedAt

instance (x : Expected ρ) (now : ℤ) (key : ρ) : Decidable (x.Expired now key) :=
  inferInstanceAs (Decidable (∃ entry ∈ x.store.kept key, _))

/-- Younger than the lifetime, and no older than the request accepts. -/
def fresh (now : ℤ) (maxAgeMs : Option ℚ) (entry : CachedResponse) : Bool :=
  now - entry.storedAt < x.ttlMs &&
    maxAgeMs.all fun maxAge => ((now - entry.storedAt : ℤ) : ℚ) ≤ maxAge

/-- What a lookup returns. -/
def answer (now : ℤ) (key : ρ) (maxAgeMs : Option ℚ) : Option CachedResponse :=
  (x.store.kept key).filter (x.fresh now maxAgeMs)

/-- What is expected after an operation. -/
def next (maxBytes : ℕ) (x : Expected ρ) : Operation ρ → Expected ρ
  | .setTtlMs ttlMs =>
    { ttlMs := ttlMs, store := if ttlMs ≤ 0 then x.store.clear else x.store }
  | .get now key maxAgeMs =>
    if x.Expired now key then { x with store := x.store.forget key }
    else if (x.answer now key maxAgeMs).isSome then { x with store := x.store.use key }
    else x
  | .set key entry =>
    if x.Admissible maxBytes entry.body then
      { x with store := x.store.put bytesOf maxBytes key entry }
    else x

end Expected

/-! ## What the operations do to the entries -/

variable {c : ResponseCache ρ} {key : ρ} {entry : CachedResponse}

/-- The counter says how long the stored bodies are together. -/
def Counted (c : ResponseCache ρ) : Prop := c.totalBytes = total bytesOf c.entries.entries

omit [DecidableEq ρ] in
/-- A counted cache is known from its entries. -/
lemma ext_of_counted {c' : ResponseCache ρ} (hcounted : c.Counted) (hcounted' : c'.Counted)
    (hentries : c.entries.entries = c'.entries.entries) (httl : c.ttlMs = c'.ttlMs)
    (hmax : c.maxBytes = c'.maxBytes) : c = c' := by
  have hbytes : c.totalBytes = c'.totalBytes := by
    unfold Counted at hcounted hcounted'
    rw [hcounted, hcounted', hentries]
  have hmap := JsMap.ext_entries hentries
  cases c
  cases c'
  cases hmap
  cases hbytes
  cases httl
  cases hmax
  rfl

lemma remove_maxBytes (c : ResponseCache ρ) (key : ρ) (entry : CachedResponse) :
    (c.remove key entry).maxBytes = c.maxBytes := by
  unfold remove
  split_ifs <;> rfl

lemma remove_entries (hentry : c.entries.get key = some entry) :
    (c.remove key entry).entries.entries = others c.entries.entries key := by
  unfold remove
  rw [if_pos hentry]
  rfl

lemma Counted.remove (h : c.Counted) (hentry : c.entries.get key = some entry) :
    (c.remove key entry).Counted := by
  have htotal := total_others bytesOf c.entries.nodup (JsMap.mem_entries.mpr hentry)
  unfold Counted at h ⊢
  rw [remove_entries hentry]
  unfold ResponseCache.remove
  rw [if_pos hentry]
  show c.totalBytes - entry.body.length = _
  rw [h, htotal]
  unfold bytesOf
  push_cast
  ring

/-- The first entry is the one under its key, and the others are behind it. -/
lemma others_of_first {e : ρ × CachedResponse} {rest : List (ρ × CachedResponse)}
    (hfirst : c.entries.entries = e :: rest) :
    c.entries.get e.1 = some e.2 ∧ others c.entries.entries e.1 = rest := by
  have hnodup := c.entries.nodup
  rw [hfirst, List.map_cons, List.nodup_cons] at hnodup
  have hrest : others rest e.1 = rest := others_eq_self fun v hv =>
    hnodup.1 (List.mem_map.mpr ⟨(e.1, v), hv, rfl⟩)
  constructor
  · rw [← JsMap.mem_entries, hfirst]
    exact List.mem_cons_self
  · unfold others at hrest ⊢
    rw [hfirst, List.filter_cons_of_neg (by simp), hrest]

/-- With as many rounds as there are entries, the loop ends because the rest fits. -/
lemma evict_spec (h : c.Counted) {rounds : ℕ} (hrounds : c.entries.size ≤ rounds) :
    (evict rounds c).Counted ∧ (evict rounds c).maxBytes = c.maxBytes ∧
      (evict rounds c).entries.entries = fitting bytesOf c.maxBytes c.entries.entries := by
  induction rounds generalizing c with
  | zero =>
    have hnil : c.entries.entries = [] := List.eq_nil_of_length_eq_zero (Nat.le_zero.mp hrounds)
    refine ⟨h, rfl, ?_⟩
    show c.entries.entries = _
    rw [hnil]
    rfl
  | succ rounds ih =>
    have hover : c.totalBytes > c.maxBytes ↔ c.maxBytes < total bytesOf c.entries.entries := by
      rw [h]
      exact Int.ofNat_lt
    unfold evict
    cases hentries : c.entries.entries with
    | nil =>
      rw [List.head?_nil]
      dsimp only
      rw [ite_self]
      exact ⟨h, rfl, hentries⟩
    | cons e rest =>
      rw [hentries] at hover
      rw [List.head?_cons]
      dsimp only
      unfold fitting
      split_ifs with hgt hfits
      · exact absurd hfits (not_le.mpr (hover.mp hgt))
      · obtain ⟨hget, hrest⟩ := others_of_first hentries
        have hremoved := (remove_entries hget).trans hrest
        have hsize : (c.remove e.1 e.2).entries.size ≤ rounds := by
          unfold JsMap.size at hrounds ⊢
          rw [hremoved]
          rw [hentries, List.length_cons] at hrounds
          omega
        have hspec := ih (h.remove hget) hsize
        rw [remove_maxBytes, hremoved] at hspec
        exact hspec
      · exact ⟨h, rfl, hentries⟩
      · rename_i hnot
        exact absurd (not_lt.mp (mt hover.mpr hgt)) hnot

/-- The cache when the loop of `set` starts. -/
def makeRoom (c : ResponseCache ρ) (key : ρ) (entry : CachedResponse) : ResponseCache ρ :=
  let c := match c.entries.get key with
    | none => c
    | some previous => c.remove key previous
  { c with
    entries := c.entries.set key entry
    totalBytes := c.totalBytes + entry.body.length }

lemma set_of_accepts (h : c.accepts entry.body = true) :
    c.set key entry = evict (c.makeRoom key entry).entries.size (c.makeRoom key entry) := by
  obtain ⟨henabled, hsize, hmax⟩ := accepts_iff.mp h
  unfold set
  rw [if_neg (by simp [henabled, hsize]), if_neg (not_lt.mpr hmax)]
  rfl

/-- The new entry is behind the others, and counted. -/
lemma makeRoom_spec (h : c.Counted) (key : ρ) (entry : CachedResponse) :
    (c.makeRoom key entry).Counted ∧ (c.makeRoom key entry).maxBytes = c.maxBytes ∧
      (c.makeRoom key entry).ttlMs = c.ttlMs ∧
      (c.makeRoom key entry).entries.entries = others c.entries.entries key ++ [(key, entry)] := by
  -- first the place is made free
  have hfree : ∃ c' : ResponseCache ρ, c'.Counted ∧ c'.maxBytes = c.maxBytes ∧
      c'.ttlMs = c.ttlMs ∧
      c'.entries.entries = others c.entries.entries key ∧
      c.makeRoom key entry = { c' with
        entries := c'.entries.set key entry, totalBytes := c'.totalBytes + entry.body.length } := by
    cases hget : c.entries.get key with
    | none =>
      refine ⟨c, h, rfl, rfl, (others_eq_self fun v hv => ?_).symm, ?_⟩
      · rw [JsMap.mem_entries, hget] at hv
        cases hv
      · unfold makeRoom
        rw [hget]
    | some previous =>
      refine ⟨c.remove key previous, h.remove hget, remove_maxBytes .., remove_ttlMs ..,
        remove_entries hget, ?_⟩
      unfold makeRoom
      rw [hget]
  obtain ⟨c', hcounted, hmax, httl, hentries, hroom⟩ := hfree
  have hnot : key ∉ c'.entries.entries.map Prod.fst := fun hmem => by
    obtain ⟨e, he, rfl⟩ := List.mem_map.mp hmem
    rw [hentries] at he
    simpa using List.of_mem_filter he
  have hset := JsMap.entries_set_of_not_mem hnot entry
  rw [hroom]
  refine ⟨?_, hmax, httl, hset.trans (by rw [hentries])⟩
  show c'.totalBytes + entry.body.length = total bytesOf (c'.entries.set key entry).entries
  rw [hset, total_append, hcounted]
  rfl

/-- The cache after a lookup that found the entry. -/
def touch (c : ResponseCache ρ) (key : ρ) (entry : CachedResponse) : ResponseCache ρ :=
  { c with entries := (c.entries.delete key).set key entry }

lemma touch_entries (c : ResponseCache ρ) (key : ρ) (entry : CachedResponse) :
    (c.touch key entry).entries.entries = others c.entries.entries key ++ [(key, entry)] := by
  refine JsMap.entries_set_of_not_mem (fun hmem => ?_) entry
  obtain ⟨e, he, rfl⟩ := List.mem_map.mp hmem
  simpa using List.of_mem_filter he

lemma Counted.touch (h : c.Counted) (hentry : c.entries.get key = some entry) :
    (c.touch key entry).Counted := by
  have htotal := total_others bytesOf c.entries.nodup (JsMap.mem_entries.mpr hentry)
  unfold Counted at h ⊢
  rw [touch_entries, total_append, total_cons, total_nil, Nat.add_zero, Nat.add_comm, ← htotal]
  exact h

/-- A lookup finds the entry too old, or nothing that it could return, or an entry to return. -/
lemma get_cases {x : Expected ρ} (httl : c.ttlMs = x.ttlMs)
    (hkept : c.entries.get key = x.store.kept key) (now : ℤ) (maxAgeMs : Option ℚ) :
    (x.Expired now key ∧ x.answer now key maxAgeMs = none ∧
      ∃ entry, c.entries.get key = some entry ∧
        c.get now key maxAgeMs = (c.remove key entry, none)) ∨
    (¬ x.Expired now key ∧ x.answer now key maxAgeMs = none ∧
      c.get now key maxAgeMs = (c, none)) ∨
    (¬ x.Expired now key ∧ ∃ entry, x.answer now key maxAgeMs = some entry ∧
      c.entries.get key = some entry ∧
        c.get now key maxAgeMs = (c.touch key entry, some entry)) := by
  unfold Expected.Expired Expected.answer get
  rw [← hkept]
  cases hget : c.entries.get key with
  | none => exact Or.inr (Or.inl ⟨by simp, rfl, rfl⟩)
  | some entry =>
    have hmax : (maxAgeMs.any fun maxAge => ((now - entry.storedAt : ℤ) : ℚ) > maxAge) =
        !maxAgeMs.all fun maxAge => ((now - entry.storedAt : ℤ) : ℚ) ≤ maxAge := by
      cases maxAgeMs with
      | none => rfl
      | some maxAge => simp [← not_le]
    dsimp only
    rw [Option.filter_some, hmax, ← httl]
    unfold Expected.fresh
    rw [← httl]
    by_cases hold : c.ttlMs ≤ now - entry.storedAt
    · refine Or.inl ⟨⟨entry, rfl, hold⟩, ?_, entry, rfl, if_pos hold⟩
      simp [not_lt.mpr hold]
    · have hnot : ¬ ∃ e ∈ some entry, c.ttlMs ≤ now - e.storedAt := by simpa using hold
      rw [if_neg hold]
      cases hyoung : maxAgeMs.all fun maxAge => ((now - entry.storedAt : ℤ) : ℚ) ≤ maxAge with
      | false => exact Or.inr (Or.inl ⟨hnot, by simp, rfl⟩)
      | true => exact Or.inr (Or.inr ⟨hnot, entry, by simpa using hold, rfl, rfl⟩)

/-! ## The cache follows -/

/-- The cache has what is expected, in the order of the last uses and within its bounds. -/
structure Follows (maxBytes : ℕ) (c : ResponseCache ρ) (x : Expected ρ) : Prop where
  limit : c.maxBytes = maxBytes
  lifetime : c.ttlMs = x.ttlMs
  counted : c.Counted
  lists : Lists c.entries.entries x.store
  bounded : total bytesOf c.entries.entries ≤ maxBytes
  small : ∀ e ∈ c.entries.entries, bytesOf e.2 ≤ maxCachedEntryBytes
  off : c.ttlMs ≤ 0 → c.entries.entries = []

namespace Follows

variable {maxBytes : ℕ} {x : Expected ρ}

lemma stored (h : Follows maxBytes c x) (key : ρ) : c.entries.get key = x.store.kept key := by
  ext entry
  rw [← JsMap.mem_entries]
  exact h.lists.mem key entry

omit [DecidableEq ρ] in
lemma new (ttlMs : ℤ) (maxBytes : ℕ) :
    Follows maxBytes (ResponseCache.new (ρ := ρ) ttlMs maxBytes) ⟨ttlMs, Store.empty⟩ where
  limit := rfl
  lifetime := rfl
  counted := rfl
  lists := lists_empty
  bounded := Nat.zero_le _
  small _ he := nomatch he
  off _ := rfl

omit [DecidableEq ρ] in
lemma setTtlMs (h : Follows maxBytes c x) (ttlMs : ℤ) :
    Follows maxBytes (c.setTtlMs ttlMs)
      ⟨ttlMs, if ttlMs ≤ 0 then x.store.clear else x.store⟩ := by
  unfold ResponseCache.setTtlMs
  split_ifs with hsame hoff hoff
  · -- the cache was off already and has nothing to forget
    have hnil := h.off (hsame ▸ hoff)
    exact { h with lifetime := hsame.symm, lists := hnil ▸ h.lists.clear }
  · exact { h with lifetime := hsame.symm }
  · exact
      { limit := h.limit
        lifetime := rfl
        counted := rfl
        lists := h.lists.clear
        bounded := Nat.zero_le _
        small := fun _ he => nomatch he
        off := fun _ => rfl }
  · exact { h with lifetime := rfl, off := fun hle => absurd hle hoff }

/-- An entry whose age has reached the lifetime is given up. -/
lemma remove (h : Follows maxBytes c x) (hentry : c.entries.get key = some entry) :
    Follows maxBytes (c.remove key entry) { x with store := x.store.forget key } where
  limit := (remove_maxBytes ..).trans h.limit
  lifetime := (remove_ttlMs ..).trans h.lifetime
  counted := h.counted.remove hentry
  lists := by
    rw [remove_entries hentry]
    exact h.lists.forget key
  bounded := by
    rw [remove_entries hentry]
    exact (total_le_of_sublist bytesOf List.filter_sublist).trans h.bounded
  small e he := by
    rw [remove_entries hentry] at he
    exact h.small e (List.mem_of_mem_filter he)
  off hle := by
    rw [remove_ttlMs] at hle
    rw [remove_entries hentry, h.off hle]
    rfl

lemma touch (h : Follows maxBytes c x) (hentry : c.entries.get key = some entry) :
    Follows maxBytes (c.touch key entry) { x with store := x.store.use key } where
  limit := h.limit
  lifetime := h.lifetime
  counted := h.counted.touch hentry
  lists := by
    rw [touch_entries]
    exact h.lists.use ((h.stored key).symm.trans hentry)
  bounded := by
    have htotal := total_others bytesOf c.entries.nodup (JsMap.mem_entries.mpr hentry)
    rw [touch_entries, total_append, total_cons, total_nil, Nat.add_zero, Nat.add_comm, ← htotal]
    exact h.bounded
  small e he := by
    rw [touch_entries, List.mem_append, List.mem_singleton] at he
    rcases he with he | rfl
    · exact h.small e (List.mem_of_mem_filter he)
    · exact h.small _ (JsMap.mem_entries.mpr hentry)
  off hle := by
    have hnil := JsMap.mem_entries.mpr hentry
    rw [h.off hle] at hnil
    exact nomatch hnil

lemma get (h : Follows maxBytes c x) (now : ℤ) (key : ρ) (maxAgeMs : Option ℚ) :
    Follows maxBytes (c.get now key maxAgeMs).1 (x.next maxBytes (.get now key maxAgeMs)) := by
  unfold Expected.next
  dsimp only
  rcases get_cases h.lifetime (h.stored key) now maxAgeMs with
    ⟨hexpired, -, entry, hentry, hget⟩ | ⟨hnot, hanswer, hget⟩ |
    ⟨hnot, entry, hanswer, hentry, hget⟩
  · rw [if_pos hexpired, hget]
    exact h.remove hentry
  · rw [if_neg hnot, hanswer, hget]
    exact h
  · rw [if_neg hnot, hanswer, hget]
    exact h.touch hentry

omit [DecidableEq ρ] in
lemma accepts_iff (h : Follows maxBytes c x) (body : List UInt8) :
    c.accepts body = true ↔ x.Admissible maxBytes body := by
  rw [ResponseCache.accepts_iff]
  unfold Expected.Admissible enabled
  rw [Bool.and_eq_true, decide_eq_true_iff, decide_eq_true_iff, h.lifetime, h.limit]
  exact and_assoc

lemma set_of_not_admissible (h : Follows maxBytes c x) (key : ρ)
    (hnot : ¬ x.Admissible maxBytes entry.body) : c.set key entry = c :=
  set_of_not_accepts (by simpa using mt (h.accepts_iff entry.body).mp hnot) key

/-- An entry that is admitted is behind the others that still fit. -/
lemma set_spec (h : Follows maxBytes c x) (key : ρ)
    (hadmissible : x.Admissible maxBytes entry.body) :
    (c.set key entry).Counted ∧ (c.set key entry).maxBytes = maxBytes ∧
      (c.set key entry).entries.entries =
        fitting bytesOf (maxBytes - entry.body.length) (others c.entries.entries key) ++
          [(key, entry)] := by
  obtain ⟨hcounted, hmax, -, hentries⟩ := makeRoom_spec h.counted key entry
  obtain ⟨hcounted', hmax', hevicted⟩ := evict_spec hcounted le_rfl
  rw [set_of_accepts ((h.accepts_iff entry.body).mpr hadmissible)]
  refine ⟨hcounted', (hmax'.trans hmax).trans h.limit, ?_⟩
  rw [hevicted, hentries, hmax, h.limit]
  exact fitting_concat bytesOf hadmissible.2.2.2 _

/-- More rounds than there are entries make no difference. -/
lemma evict_makeRoom (h : Follows maxBytes c x) (hadmissible : x.Admissible maxBytes entry.body)
    {rounds : ℕ} (hrounds : (c.makeRoom key entry).entries.size ≤ rounds) :
    evict rounds (c.makeRoom key entry) = c.set key entry := by
  obtain ⟨hcounted, -⟩ := makeRoom_spec h.counted key entry
  obtain ⟨hcounted', hmax', hevicted⟩ := evict_spec hcounted hrounds
  obtain ⟨hcounted'', hmax'', hset⟩ := evict_spec hcounted le_rfl
  rw [set_of_accepts ((h.accepts_iff entry.body).mpr hadmissible)]
  exact ext_of_counted hcounted' hcounted'' (hevicted.trans hset.symm)
    ((evict_ttlMs ..).trans (evict_ttlMs ..).symm) (hmax'.trans hmax''.symm)

lemma set (h : Follows maxBytes c x) (key : ρ) (entry : CachedResponse) :
    Follows maxBytes (c.set key entry) (x.next maxBytes (.set key entry)) := by
  unfold Expected.next
  dsimp only
  split_ifs with hadmissible
  · obtain ⟨hcounted, hlimit, hentries⟩ := h.set_spec key hadmissible
    obtain ⟨hon, -, hsmall, hfits⟩ := hadmissible
    have hlongest := longestSuffix_fitting bytesOf (maxBytes - entry.body.length)
      (others c.entries.entries key)
    constructor
    case limit => exact hlimit
    case lifetime => exact (set_ttlMs ..).trans h.lifetime
    case counted => exact hcounted
    case lists =>
      rw [hentries]
      exact h.lists.put bytesOf hfits key
    case bounded =>
      have hroom := hlongest.fits
      rw [hentries, total_append, total_cons, total_nil]
      show _ + (entry.body.length + 0) ≤ _
      omega
    case small =>
      intro e he
      rw [hentries, List.mem_append, List.mem_singleton] at he
      rcases he with he | rfl
      · exact h.small e (List.mem_of_mem_filter (hlongest.suffix.subset he))
      · exact hsmall
    case off =>
      intro hle
      rw [set_ttlMs, h.lifetime] at hle
      exact absurd hon (not_lt.mpr hle)
  · rw [h.set_of_not_admissible key hadmissible]
    exact h

lemma perform (h : Follows maxBytes c x) (operation : Operation ρ) :
    Follows maxBytes (c.perform operation) (x.next maxBytes operation) := by
  cases operation with
  | setTtlMs ttlMs => exact h.setTtlMs ttlMs
  | get now key maxAgeMs => exact h.get now key maxAgeMs
  | set key entry => exact h.set key entry

/-- After every sequence of operations, the cache is as expected. -/
lemma foldl (ttlMs : ℤ) (maxBytes : ℕ) (operations : List (Operation ρ)) :
    Follows maxBytes (operations.foldl ResponseCache.perform (ResponseCache.new ttlMs maxBytes))
      (operations.foldl (Expected.next maxBytes) ⟨ttlMs, Store.empty⟩) :=
  List.foldl_rel (Follows.new ttlMs maxBytes) fun operation _ _ _ h => h.perform operation

end Follows

/-! ## Refinement -/

/-- The cache is a least recently used store of bounded size. -/
structure RefinesLru (maxBytes : ℕ) (c : ResponseCache ρ) (x : Expected ρ) : Prop where
  lifetime : c.ttlMs = x.ttlMs
  bytes : c.totalBytes = (c.entries.entries.map fun e => e.2.body.length).sum
  bounded : c.totalBytes ≤ maxBytes
  small : ∀ e ∈ c.entries.entries, e.2.body.length ≤ maxCachedEntryBytes
  size : c.entries.size = (c.entries.entries.map Prod.fst).toFinset.card
  stored : ∀ key, c.entries.get key = x.store.kept key
  recency : c.entries.entries.Pairwise fun a b => x.store.used a.1 < x.store.used b.1
  lookup : ∀ now key maxAgeMs, (c.get now key maxAgeMs).2 = x.answer now key maxAgeMs
  expiry : ∀ now key maxAgeMs other, (c.get now key maxAgeMs).1.entries.get other =
    if other = key ∧ x.Expired now key then none else c.entries.get other
  admitted : ∀ key entry, x.Admissible maxBytes entry.body →
    ∃ kept, (c.set key entry).entries.entries = kept ++ [(key, entry)] ∧
      LongestSuffix bytesOf (maxBytes - entry.body.length) (others c.entries.entries key) kept
  refused : ∀ key entry, ¬ x.Admissible maxBytes entry.body → c.set key entry = c
  terminates : ∀ key entry, x.Admissible maxBytes entry.body →
    ∀ rounds ≥ (c.makeRoom key entry).entries.size,
      evict rounds (c.makeRoom key entry) = c.set key entry ∧ (c.set key entry).totalBytes ≤ maxBytes

/-- A lookup takes its entry out when it has expired, and no other. -/
lemma get_of_lookup {x : Expected ρ} (httl : c.ttlMs = x.ttlMs)
    (hkept : c.entries.get key = x.store.kept key) (now : ℤ) (maxAgeMs : Option ℚ) (other : ρ) :
    (c.get now key maxAgeMs).1.entries.get other =
      if other = key ∧ x.Expired now key then none else c.entries.get other := by
  rcases get_cases httl hkept now maxAgeMs with
    ⟨hexpired, -, entry, hentry, hget⟩ | ⟨hnot, -, hget⟩ | ⟨hnot, entry, -, hentry, hget⟩
  · rw [hget]
    unfold remove
    rw [if_pos hentry]
    dsimp only
    by_cases hother : other = key
    · rw [if_pos ⟨hother, hexpired⟩, hother, JsMap.get_delete_self]
    · rw [if_neg fun hand => hother hand.1, JsMap.get_delete_of_ne hother]
  · rw [hget, if_neg fun hand => hnot hand.2]
  · rw [hget, if_neg fun hand => hnot hand.2]
    unfold touch
    dsimp only
    by_cases hother : other = key
    · rw [hother, JsMap.get_set_self, hentry]
    · rw [JsMap.get_set_of_ne hother, JsMap.get_delete_of_ne hother]

/-- After every sequence of operations, the cache is a least recently used store of bounded
size. -/
theorem refines_lru (ttlMs : ℤ) (maxBytes : ℕ) (operations : List (Operation ρ)) :
    RefinesLru maxBytes (operations.foldl perform (new ttlMs maxBytes))
      (operations.foldl (Expected.next maxBytes) ⟨ttlMs, Store.empty⟩) := by
  have h := Follows.foldl ttlMs maxBytes operations
  generalize operations.foldl perform (new ttlMs maxBytes) = c at h ⊢
  generalize operations.foldl (Expected.next maxBytes) ⟨ttlMs, Store.empty⟩ = x at h ⊢
  constructor
  case lifetime => exact h.lifetime
  case bytes => exact h.counted
  case bounded =>
    rw [h.counted]
    exact Int.ofNat_le.mpr h.bounded
  case small => exact h.small
  case size =>
    rw [List.toFinset_card_of_nodup c.entries.nodup, List.length_map]
    rfl
  case stored => exact h.stored
  case recency => exact h.lists.ordered
  case lookup =>
    intro now key maxAgeMs
    rcases get_cases h.lifetime (h.stored key) now maxAgeMs with
      ⟨-, hanswer, _, -, hget⟩ | ⟨-, hanswer, hget⟩ | ⟨-, _, hanswer, -, hget⟩
    · rw [hget, hanswer]
    · rw [hget, hanswer]
    · rw [hget, hanswer]
  case expiry =>
    intro now key maxAgeMs other
    exact get_of_lookup h.lifetime (h.stored key) now maxAgeMs other
  case admitted =>
    intro key entry hadmissible
    exact ⟨_, (h.set_spec key hadmissible).2.2, longestSuffix_fitting ..⟩
  case refused =>
    intro key entry hnot
    exact h.set_of_not_admissible key hnot
  case terminates =>
    intro key entry hadmissible rounds hrounds
    refine ⟨h.evict_makeRoom hadmissible hrounds, ?_⟩
    have hbounded := (h.set key entry).bounded
    rw [(h.set_spec key hadmissible).1]
    exact Int.ofNat_le.mpr hbounded

/-- The entry that was looked up stays, and the one that was not goes. -/
example :
    let entry := fun storedAt => CachedResponse.mk 200 "" (List.replicate 40 0) storedAt
    let c := [Operation.set "a" (entry 0), .set "b" (entry 1), .get 2 "a" none,
      .set "c" (entry 3)].foldl perform (new 60000 100)
    c.entries.entries = [("a", entry 0), ("c", entry 3)] ∧ c.totalBytes = 80 := by
  decide

end ResponseCache
end Proxy
end FirecrawlGateway
