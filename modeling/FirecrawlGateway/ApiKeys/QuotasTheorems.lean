import FirecrawlGateway.ApiKeys.Quotas
import FirecrawlGateway.Common.SharedRateLimitsWindow

/-!
# A quota counts the requests of its month

The key of a quota says whose it is and which month it is for, and the window ends with the month.
So the hits on that key are the requests of one API key in one month, but for those of clients whose
address is that very text. What the counters promise of a key holds of these requests: none is
forgotten, and none counts twice but the replayed ones.
-/

namespace FirecrawlGateway
namespace Quotas

open RateLimitCounter UtcCalendar

/-! ## The text of a key -/

/-- A list is split at the last `c` in one way. -/
lemma split_last {α : Type*} {c : α} {front front' rest rest' : List α} (h : c ∉ rest)
    (h' : c ∉ rest') (heq : front ++ c :: rest = front' ++ c :: rest') :
    front = front' ∧ rest = rest' := by
  induction front generalizing front' with
  | nil =>
    cases front' with
    | nil => exact ⟨rfl, (List.cons.inj heq).2⟩
    | cons x front' =>
      have hrest : rest = front' ++ c :: rest' := (List.cons.inj heq).2
      exact absurd (by simp [hrest]) h
  | cons x front ih =>
    cases front' with
    | nil =>
      have hrest : front ++ c :: rest = rest' := (List.cons.inj heq).2
      exact absurd (by simp [← hrest]) h'
    | cons y front' =>
      obtain ⟨hxy, htail⟩ := List.cons.inj heq
      obtain ⟨hfront, hrest⟩ := ih htail
      exact ⟨by rw [hxy, hfront], hrest⟩

lemma notMem_toDigits {c : Char} (hc : c.isDigit = false) (n : ℕ) : c ∉ Nat.toDigits 10 n := by
  intro h
  rw [Nat.isDigit_of_mem_toDigits (by decide) (by decide) h] at hc
  cases hc

lemma toList_toString (n : ℤ) : (toString n).toList =
    if 0 ≤ n then Nat.toDigits 10 n.toNat else '-' :: Nat.toDigits 10 (-n).toNat := by
  rw [Int.toString_eq_repr, Int.repr_eq_if]
  split_ifs
  · exact Nat.toList_repr
  · rw [String.toList_append, Nat.toList_repr]
    rfl

lemma colon_notMem_toString (n : ℤ) : ':' ∉ (toString n).toList := by
  rw [toList_toString]
  split_ifs
  · exact notMem_toDigits rfl _
  · intro h
    rcases List.mem_cons.mp h with h | h
    · exact absurd h (by decide)
    · exact notMem_toDigits rfl _ h

lemma toDigits_inj {m n : ℕ} (h : Nat.toDigits 10 m = Nat.toDigits 10 n) : m = n := by
  rw [← Nat.ofDigitChars_ten_toDigits (n := m), h, Nat.ofDigitChars_ten_toDigits]

lemma toString_int_inj {m n : ℤ} (h : (toString m).toList = (toString n).toList) : m = n := by
  rw [toList_toString, toList_toString] at h
  split_ifs at h with hm hn hn
  · have := toDigits_inj h
    omega
  · have hsign : '-' ∈ Nat.toDigits 10 m.toNat := h ▸ List.mem_cons_self
    exact absurd hsign (notMem_toDigits rfl _)
  · have hsign : '-' ∈ Nat.toDigits 10 n.toNat := h ▸ List.mem_cons_self
    exact absurd hsign (notMem_toDigits rfl _)
  · have := toDigits_inj (List.cons.inj h).2
    omega

/-- The number that two digits are. -/
def readMonth (chars : List Char) : ℤ := Nat.ofDigitChars 10 chars 0 - 1

lemma monthText_spec {month : ℤ} (hpos : 0 ≤ month) (hle : month ≤ 11) :
    (monthText month).toList.length = 2 ∧ readMonth (monthText month).toList = month ∧
      ':' ∉ (monthText month).toList := by
  interval_cases month <;> decide

/-- The key of a quota says whose it is and which month it is for. -/
lemma counterKey_eq_iff {a b : String} {s t : ℤ} :
    (quotaWindow a s).counterKey = (quotaWindow b t).counterKey ↔
      a = b ∧ utcFullYear s = utcFullYear t ∧ utcMonth s = utcMonth t := by
  constructor
  · intro h
    have hs := utcMonth_bounds s
    have ht := utcMonth_bounds t
    obtain ⟨hslen, hsread, -⟩ := monthText_spec hs.1 hs.2
    obtain ⟨htlen, htread, -⟩ := monthText_spec ht.1 ht.2
    have hchars := String.toList_inj.mpr h
    unfold quotaWindow at hchars
    simp only [String.toList_append] at hchars
    -- the month is the last two characters
    obtain ⟨hfront, hmonth⟩ := List.append_inj' hchars (hslen.trans htlen.symm)
    obtain ⟨hfront, -⟩ := List.append_inj' hfront rfl
    have hmonth' : utcMonth s = utcMonth t := by rw [← hsread, hmonth, htread]
    have hlast : ∀ front rest : List Char,
        front ++ ":".toList ++ rest = front ++ ':' :: rest := by
      intro front rest
      rw [List.append_assoc]
      rfl
    rw [hlast, hlast] at hfront
    obtain ⟨hid, hyear⟩ := split_last (colon_notMem_toString _) (colon_notMem_toString _) hfront
    exact ⟨String.toList_inj.mp (List.append_cancel_left hid), toString_int_inj hyear, hmonth'⟩
  · rintro ⟨rfl, hyear, hmonth⟩
    unfold quotaWindow
    rw [hyear, hmonth]

/-! ## Months -/

/-- The window of a quota ends when the next month starts. -/
lemma quotaWindow_end (keyId : String) {s : ℤ} (hpos : 0 ≤ s)
    (hle : s ≤ 8640000000000000 - 31 * msPerDay) :
    (quotaWindow keyId s).resetAt = some (monthTimes.start (monthTimes.index s + 1)) := by
  have hyear := utcFullYear_ge_1970 hpos
  obtain ⟨hlt, hnext⟩ := next_month_bounds s
  show utc (utcFullYear s) (utcMonth s + 1) 1 = _
  rw [utc_eq (Or.inr (by omega)), ← add_assoc, ← monthTimes_index]
  unfold msPerDay at hle hnext
  exact timeClip_eq_some (by omega) (by omega)

/-- From a time on, a quota is counted on the same key until its window ends, and on another key
from then on; no other API key is ever counted there. -/
theorem quotaWindow_month (keyId : String) {s : ℤ} (hpos : 0 ≤ s)
    (hle : s ≤ 8640000000000000 - 31 * msPerDay) :
    ∃ resetAt, (quotaWindow keyId s).resetAt = some resetAt ∧ s < resetAt ∧
      ∀ (other : String) (t : ℤ), s ≤ t →
        ((quotaWindow other t).counterKey = (quotaWindow keyId s).counterKey ↔
          other = keyId ∧ t < resetAt) := by
  refine ⟨monthTimes.start (monthTimes.index s + 1), quotaWindow_end keyId hpos hle,
    (next_month_bounds s).1, fun other t hst => ?_⟩
  rw [counterKey_eq_iff, ← monthTimes_index_eq_iff, monthTimes.index_eq_index_iff hst]

theorem quotaWindow_month_december :
    ∃ resetAt, (quotaWindow "k" 1765000000000).resetAt = some resetAt ∧ 1765000000000 < resetAt ∧
      ∀ (other : String) (t : ℤ), 1765000000000 ≤ t →
        ((quotaWindow other t).counterKey = (quotaWindow "k" 1765000000000).counterKey ↔
          other = "k" ∧ t < resetAt) :=
  quotaWindow_month "k" (by decide) (by decide)

example : quotaWindow "k" 1765000000000 = ⟨"quota:k:2025-12", some 1767225600000⟩ := by decide +kernel

/-! ## Requests -/

/-- A text with another front is no key of a quota. -/
lemma ne_counterKey {text keyId : String} {now : ℤ} (h : text.toList.take 6 ≠ "quota:".toList) :
    text ≠ (quotaWindow keyId now).counterKey := by
  rintro rfl
  apply h
  unfold quotaWindow
  simp only [String.toList_append, List.append_assoc]
  exact List.take_left' rfl

lemma key_ne_counterKey (id keyId : String) (now : ℤ) :
    "key:" ++ id ≠ (quotaWindow keyId now).counterKey := by
  apply ne_counterKey
  rw [String.toList_append]
  intro h
  have hhead : 'k' = 'q' := (List.cons.inj (show 'k' :: _ = 'q' :: "uota:".toList from h)).1
  exact absurd hhead (by decide)

variable {ι : Type} {i : ι} {call : Call} {e : Event} {now : ℤ}

/-- A request counts on the key of a quota when it is one of that API key in that month, or of a
client whose address is that text. -/
lemma counts_hit (i : ι) (hhit : call.hit now = some e) (keyId : String) (t : ℤ) :
    Counter.counts (quotaWindow keyId t).counterKey e =
      (if (GatewayEvent.request i call now).isQuotaCall keyId t = true then 1 else 0) +
        if (GatewayEvent.request i call now).isClientAt (quotaWindow keyId t).counterKey = true
          then 1 else 0 := by
  cases call with
  | client ip =>
    cases hhit
    show (if ip = (quotaWindow keyId t).counterKey then 1 else 0) = 0 + _
    rw [zero_add]
    simp only [GatewayEvent.isClientAt, decide_eq_true_eq]
  | rateLimit key =>
    obtain ⟨limit, -, rfl⟩ := Option.map_eq_some_iff.mp hhit
    show (if "key:" ++ key.id = (quotaWindow keyId t).counterKey then 1 else 0) = 0
    rw [if_neg (key_ne_counterKey key.id keyId t)]
  | quota key readAt =>
    obtain ⟨limit, -, rfl⟩ := Option.map_eq_some_iff.mp hhit
    show (if (quotaWindow key.id readAt).counterKey = (quotaWindow keyId t).counterKey then 1
      else 0) = _ + 0
    simp only [counterKey_eq_iff, GatewayEvent.isQuotaCall, decide_eq_true_eq, add_zero]

/-- All requests of a month pin the same end of the window. -/
lemma pinsTo_hit (i : ι) (hhit : call.hit now = some e) {keyId : String} {t resetAt : ℤ}
    (hclient : (GatewayEvent.request i call now).isClientAt
      (quotaWindow keyId t).counterKey = false)
    (hreset : (quotaWindow keyId t).resetAt = some resetAt) :
    Counter.PinsTo (quotaWindow keyId t).counterKey resetAt e := by
  cases call with
  | client ip =>
    cases hhit
    exact fun hkey => absurd hkey (of_decide_eq_false hclient)
  | rateLimit key =>
    obtain ⟨limit, -, rfl⟩ := Option.map_eq_some_iff.mp hhit
    exact fun hkey => absurd hkey (key_ne_counterKey key.id keyId t)
  | quota key readAt =>
    obtain ⟨limit, -, rfl⟩ := Option.map_eq_some_iff.mp hhit
    intro hkey
    obtain ⟨-, hyear, hmonth⟩ := counterKey_eq_iff.mp hkey
    rw [← hreset]
    show utc (utcFullYear readAt) (utcMonth readAt + 1) 1 = utc (utcFullYear t) (utcMonth t + 1) 1
    rw [hyear, hmonth]

/-! ## Runs -/

variable [DecidableEq ι] {o : ι → Options} {s s' : Cluster ι} {g : GatewayEvent ι}

/-- An event is a hit that a request makes, or none. -/
lemma gatewayStep_cases (h : gatewayStep o s g = some s') :
    (∃ i call now e, g = .request i call now ∧ call.hit now = some e ∧
      clusterStep o s (.act i e) = some s') ∨
    ∃ e, g = .other e ∧ isHit e = false ∧ clusterStep o s e = some s' := by
  unfold gatewayStep at h
  obtain ⟨e, hto, hstep⟩ := Option.bind_eq_some_iff.mp h
  cases g with
  | request i call now =>
    obtain ⟨e', hhit, rfl⟩ := Option.map_eq_some_iff.mp hto
    exact Or.inl ⟨i, call, now, e', rfl, hhit, hstep⟩
  | other e' =>
    have hto : (if isHit e' = true then none else some e') = some e := hto
    split_ifs at hto with hno
    cases hto
    exact Or.inr ⟨e, rfl, Bool.eq_false_of_not_eq_true hno, hstep⟩

lemma clusterStep_hits {e : ClusterEvent ι} (hno : isHit e = false)
    (hstep : clusterStep o s e = some s') : s'.hits = s.hits := by
  rcases Cluster.clusterStep_cases hstep with ⟨i, e', t, rfl, -, -, rfl⟩ |
    ⟨i, u, now, rfl, -, -, rfl⟩ | ⟨key, now, rfl, rfl⟩
  · funext key
    rw [Cluster.act_hits]
    cases e' with
    | hit k fixedResetAt now => cases hno
    | _ => rfl
  · rfl
  · rcases Cluster.prune_cases s key now with heq | heq <;> rw [heq]

lemma gatewayStep_hits (hstep : gatewayStep o s g = some s') (keyId : String) (t : ℤ) :
    s'.hits (quotaWindow keyId t).counterKey = s.hits (quotaWindow keyId t).counterKey +
      ((if g.isQuotaCall keyId t = true then 1 else 0) +
        if g.isClientAt (quotaWindow keyId t).counterKey = true then 1 else 0) := by
  rcases gatewayStep_cases hstep with ⟨i, call, now, e, rfl, hhit, hstep⟩ | ⟨e, rfl, hno, hstep⟩
  · obtain ⟨i', e', t', heq, -, -, rfl⟩ | ⟨_, _, _, heq, -⟩ | ⟨_, _, heq, -⟩ :=
      Cluster.clusterStep_cases hstep
    · cases heq
      rw [Cluster.act_hits, counts_hit i hhit]
    · cases heq
    · cases heq
  · rw [clusterStep_hits hno hstep]
    rfl

/-- The hits on the key of a quota are the requests of that API key in that month, and those of
clients whose address is that text. -/
lemma run_hits {gs : List (GatewayEvent ι)} (hrun : EventMachine.run (gatewayStep o) s gs = some s')
    (keyId : String) (t : ℤ) : s'.hits (quotaWindow keyId t).counterKey =
      s.hits (quotaWindow keyId t).counterKey + ((gs.countP fun g => g.isQuotaCall keyId t) +
        gs.countP fun g => g.isClientAt (quotaWindow keyId t).counterKey) := by
  induction gs generalizing s with
  | nil =>
    cases hrun
    rfl
  | cons g gs ih =>
    obtain ⟨next, hnext, hrest⟩ := (EventMachine.run_cons_eq_some _).mp hrun
    rw [ih hrest, gatewayStep_hits hnext, List.countP_cons, List.countP_cons]
    omega

variable [Fintype ι]

lemma gatewayStep_consistent (h : s.Consistent) (hstep : gatewayStep o s g = some s') :
    s'.Consistent := by
  rcases gatewayStep_cases hstep with ⟨i, call, now, e, -, -, hstep⟩ | ⟨e, -, -, hstep⟩
  · exact Cluster.clusterStep_consistent h hstep
  · exact Cluster.clusterStep_consistent h hstep

lemma gatewayStep_bounded (h : s.Consistent) (hb : s.Bounded)
    (hstep : gatewayStep o s g = some s') : s'.Bounded := by
  rcases gatewayStep_cases hstep with ⟨i, call, now, e, -, -, hstep⟩ | ⟨e, -, -, hstep⟩
  · exact Cluster.clusterStep_bounded h hb hstep
  · exact Cluster.clusterStep_bounded h hb hstep

/-- Whatever the counters, the database and the network do: an API key is only told that its quota
is exceeded when it made more requests than that in the month, together with those of clients whose
address is the key of the quota, and replayed ones included. -/
theorem quota_exceeded {gs : List (GatewayEvent ι)}
    (hrun : EventMachine.run (gatewayStep o) {} gs = some s) {i : ι} {r : Return}
    (hr : r ∈ (s.counters i).returned) {keyId : String} {now : ℤ}
    (hkey : s.keyOf i r.bucket = (quotaWindow keyId now).counterKey) {limit : ℕ}
    (hexceeded : (limitResult limit r.count r.resetAt).exceeded = true) :
    limit < (gs.countP fun g => g.isQuotaCall keyId now) +
      (gs.countP fun g => g.isClientAt (quotaWindow keyId now).counterKey) +
      s.replayed (quotaWindow keyId now).counterKey := by
  have hinv : s.Consistent ∧ s.Bounded := by
    refine EventMachine.run_invariant (I := fun s : Cluster ι => s.Consistent ∧ s.Bounded)
      (fun _ _ _ h hstep => ?_) ⟨Cluster.consistent_init, Cluster.bounded_init⟩ hrun
    exact ⟨gatewayStep_consistent h.1 hstep, gatewayStep_bounded h.1 h.2 hstep⟩
  have hcount := (hinv.2.returned i r hr).2
  have hhits := run_hits hrun keyId now
  have hlt : limit < r.count := of_decide_eq_true hexceeded
  have hzero : ({} : Cluster ι).hits (quotaWindow keyId now).counterKey = 0 := rfl
  rw [hkey, hhits, hzero] at hcount
  omega

/-- An API key with a quota of one request a month. -/
def callerKey : ApiKeysService.ApiKeyRecord where
  id := "caller"
  name := "caller"
  keyHash := ""
  keyValue := none
  keyPrefix := ""
  revoked := false
  createdAt := 0
  updatedAt := 0
  lastUsedAt := none
  expiresAt := none
  rateLimitPerMinute := none
  monthlyQuota := some 1

/-- Two counters, at which `callerKey` makes a request each in December 2025. -/
def decemberCalls : List (GatewayEvent Bool) :=
  [.request false (.quota callerKey 1765000000000) 1765000000000,
    .other (.commit false 0 1765000000000000),
    .request true (.quota callerKey 1765000000001) 1765000000001,
    .other (.commit true 0 1765000000001000),
    .other (.act true (.settle 0 (.resolved (some (2, 1767225600000))))),
    .other (.act true (.finish 0)), .other (.act true (.resumeHit 0))]

theorem quota_exceeded_december : ∃ s : Cluster Bool,
    EventMachine.run (gatewayStep fun _ => ⟨true⟩) {} decemberCalls = some s ∧
      ⟨0, 0, 2, 1767225600000⟩ ∈ (s.counters true).returned ∧
      1 < (decemberCalls.countP fun g => g.isQuotaCall "caller" 1765000000000) +
        (decemberCalls.countP fun g =>
          g.isClientAt (quotaWindow "caller" 1765000000000).counterKey) +
        s.replayed (quotaWindow "caller" 1765000000000).counterKey := by
  have hrun : (EventMachine.run (gatewayStep fun _ => ⟨true⟩) {} decemberCalls).map
      (fun s => ((s.counters true).returned, s.keyOf true 0)) =
        some ([⟨0, 0, 2, 1767225600000⟩], (quotaWindow "caller" 1765000000000).counterKey) := by
    decide +kernel
  obtain ⟨s, hs, hpair⟩ := Option.map_eq_some_iff.mp hrun
  obtain ⟨hreturned, hkey⟩ := Prod.mk.inj hpair
  have hmem : ⟨0, 0, 2, 1767225600000⟩ ∈ (s.counters true).returned := by simp [hreturned]
  exact ⟨s, hs, hmem, quota_exceeded hs hmem hkey (by decide)⟩

/-- A client behind a trusted proxy uses up the quota of somebody else. -/
example : (EventMachine.run (gatewayStep fun _ : Bool => ⟨true⟩) {}
    [.request false (.client "quota:caller:2025-12") 1765000000000,
      .other (.commit false 0 1765000000000000)]).map
        (fun s => quotaUsage s.table "caller" 1765000000000) = some (some 1) := by
  decide +kernel

/-! ## Accounts -/

/-- No client has the key of the quota for an address, the database commits no upsert of the quota
after the month of `now`, and the cleanup is not early. -/
def WithinMonth (keyId : String) (now : ℤ) (s : Cluster ι) : GatewayEvent ι → Prop
  | .request i call time => (GatewayEvent.request i call time).isClientAt
      (quotaWindow keyId now).counterKey = false
  | .other e => ∀ resetAt ∈ (quotaWindow keyId now).resetAt,
      s.WithinWindow (quotaWindow keyId now).counterKey resetAt e

instance (keyId : String) (now : ℤ) (s : Cluster ι) :
    (g : GatewayEvent ι) → Decidable (WithinMonth keyId now s g)
  | .request .. => inferInstanceAs (Decidable (_ = false))
  | .other e => inferInstanceAs (Decidable (∀ resetAt ∈ (quotaWindow keyId now).resetAt,
      s.WithinWindow (quotaWindow keyId now).counterKey resetAt e))

lemma gatewayStep_exact {keyId : String} {now resetAt : ℤ}
    (hreset : (quotaWindow keyId now).resetAt = some resetAt) (hs : s.Consistent)
    (h : s.Exact (quotaWindow keyId now).counterKey resetAt) (hmonth : WithinMonth keyId now s g)
    (hstep : gatewayStep o s g = some s') :
    s'.Exact (quotaWindow keyId now).counterKey resetAt := by
  rcases gatewayStep_cases hstep with ⟨i, call, at', e, rfl, hhit, hstep⟩ | ⟨e, rfl, -, hstep⟩
  · have hpins : s.WithinWindow (quotaWindow keyId now).counterKey resetAt (.act i e) :=
      pinsTo_hit i hhit hmonth hreset
    exact Cluster.clusterStep_exact hs h hpins hstep
  · exact Cluster.clusterStep_exact hs h (hmonth resetAt hreset) hstep

omit [Fintype ι] in
/-- Guarded steps count no client on the key of the quota. -/
lemma countP_isClientAt {gs : List (GatewayEvent ι)} {keyId : String} {now : ℤ}
    (hmonth : EventMachine.Along (gatewayStep o) (WithinMonth keyId now) s gs)
    (hrun : EventMachine.run (gatewayStep o) s gs = some s') :
    (gs.countP fun g => g.isClientAt (quotaWindow keyId now).counterKey) = 0 := by
  induction gs generalizing s with
  | nil => rfl
  | cons g gs ih =>
    obtain ⟨next, hnext, hrest⟩ := (EventMachine.run_cons_eq_some _).mp hrun
    have hfalse : g.isClientAt (quotaWindow keyId now).counterKey = false := by
      cases g with
      | request i call time => exact hmonth.1
      | other e => rfl
    rw [List.countP_cons, ih (hmonth.2 next hnext) hrest, hfalse]
    rfl

/-- In every run within a month, what `quotaUsage` reads and the requests that are not saved yet are
the requests that the API key made in that month, replayed ones included. -/
theorem quota_accounting {gs : List (GatewayEvent ι)} {keyId : String} {now : ℤ} (hpos : 0 ≤ now)
    (hle : now ≤ 8640000000000000 - 31 * msPerDay)
    (hmonth : EventMachine.Along (gatewayStep o) (WithinMonth keyId now) {} gs)
    (hrun : EventMachine.run (gatewayStep o) {} gs = some s) :
    (quotaUsage s.table keyId now).getD 0 + s.unsaved (quotaWindow keyId now).counterKey =
      (gs.countP fun g => g.isQuotaCall keyId now) +
        s.replayed (quotaWindow keyId now).counterKey := by
  obtain ⟨hlt, hnext⟩ := next_month_bounds now
  have hreset := quotaWindow_end keyId hpos hle
  have hinv : s.Consistent ∧ s.Exact (quotaWindow keyId now).counterKey
      (monthTimes.start (monthTimes.index now + 1)) :=
    EventMachine.run_invariant_along (I := fun s => s.Consistent ∧
        s.Exact (quotaWindow keyId now).counterKey (monthTimes.start (monthTimes.index now + 1)))
      (fun _ _ _ h hg hstep => ⟨gatewayStep_consistent h.1 hstep,
        gatewayStep_exact hreset h.1 h.2 hg hstep⟩)
      ⟨Cluster.consistent_init, Cluster.exact_init⟩ hmonth hrun
  have hbalance := hinv.1.conservation (quotaWindow keyId now).counterKey
  have hhits := run_hits hrun keyId now
  rw [countP_isClientAt hmonth hrun] at hhits
  have hzero : ({} : Cluster ι).hits (quotaWindow keyId now).counterKey = 0 := rfl
  -- the row of the month has not ended
  have husage : (quotaUsage s.table keyId now).getD 0 =
      s.flushed (quotaWindow keyId now).counterKey := by
    unfold quotaUsage
    cases hrow : s.table (quotaWindow keyId now).counterKey with
    | none =>
      rw [hinv.2.absent hrow]
      rfl
    | some row =>
      obtain ⟨hend, hcount⟩ := hinv.2.row row hrow
      have hopen : 1000 * now < row.resetAt := by omega
      rw [Option.filter_some, if_pos (decide_eq_true hopen), ← hcount]
      rfl
  omega

theorem quota_accounting_december : ∃ s : Cluster Bool,
    EventMachine.run (gatewayStep fun _ => ⟨true⟩) {} decemberCalls = some s ∧
      (quotaUsage s.table "caller" 1765000000000).getD 0 +
          s.unsaved (quotaWindow "caller" 1765000000000).counterKey =
        (decemberCalls.countP fun g => g.isQuotaCall "caller" 1765000000000) +
          s.replayed (quotaWindow "caller" 1765000000000).counterKey := by
  obtain ⟨s, hs⟩ := Option.isSome_iff_exists.mp (show (EventMachine.run
    (gatewayStep fun _ => ⟨true⟩) {} decemberCalls).isSome = true by decide +kernel)
  have hmonth : EventMachine.Along (gatewayStep fun _ => ⟨true⟩)
    (WithinMonth "caller" 1765000000000) {} decemberCalls := by decide +kernel
  exact ⟨s, hs, quota_accounting (by decide) (by decide) hmonth hs⟩

end Quotas
end FirecrawlGateway
