import FirecrawlGateway.Admin.Credits
import FirecrawlGateway.Lib.Minima

/-!
# Three implementations of one selection rule

`RESERVE_SCRIPT`, `reserveLocally` and `nextUpPrefixes` each scan the keys for those with the
earliest renewal day and, among them, the most credits. The rule is stated once, as the elements
of least rank, and each scan is shown to end with them.
-/

namespace FirecrawlGateway
namespace KeySelection

open CreditLedger (Pool Selection Store selectFrom)
open CreditRouting (Best Candidate LocalPool Routing earlier)
open Minima

/-! ## The rule -/

/-- What is known of a key: its credits, and when it renews. -/
structure Known where
  credits : ℤ
  renewsAt : Option ℕ

/-- The UTC day of the renewal; an unknown one is after all others. -/
def Known.day (k : Known) : WithTop ℕ :=
  match k.renewsAt with
  | some renewsAt => ↑(renewsAt / CreditLedger.msPerDay)
  | none => ⊤

/-- A key with an earliest renewal day and, among the keys of that day, with the most credits. -/
def FirstInLine (known : String → Known) (cs : List Candidate) (c : Candidate) : Prop :=
  c ∈ cs ∧ (∀ c' ∈ cs, (known c.keyId).day ≤ (known c'.keyId).day) ∧
    ∀ c' ∈ cs, (known c'.keyId).day = (known c.keyId).day →
      (known c'.keyId).credits ≤ (known c.keyId).credits

/-- The order of the rule. -/
def Known.rank (k : Known) : WithTop ℕ ×ₗ ℤᵒᵈ := toLex (k.day, OrderDual.toDual k.credits)

lemma rank_lt {k k' : Known} :
    k.rank < k'.rank ↔ k.day < k'.day ∨ k.day = k'.day ∧ k'.credits < k.credits :=
  Prod.Lex.toLex_lt_toLex

lemma rank_eq {k k' : Known} : k.rank = k'.rank ↔ k.day = k'.day ∧ k.credits = k'.credits := by
  unfold Known.rank
  rw [toLex.injective.eq_iff, Prod.mk.injEq, OrderDual.toDual.injective.eq_iff]

lemma firstInLine_iff {known : String → Known} {cs : List Candidate} {c : Candidate} :
    FirstInLine known cs c ↔ c ∈ minima (fun c => (known c.keyId).rank) cs := by
  rw [mem_minima]
  have hle : ∀ k k' : Known, k.rank ≤ k'.rank ↔
      k.day ≤ k'.day ∧ (k'.day = k.day → k'.credits ≤ k.credits) := by
    intro k k'
    rw [← not_lt, rank_lt, not_or, not_lt, not_and, not_lt]
  simp only [hle]
  constructor
  · rintro ⟨hc, hday, hcredits⟩
    exact ⟨hc, fun c' hc' => ⟨hday c' hc', hcredits c' hc'⟩⟩
  · rintro ⟨hc, hboth⟩
    exact ⟨hc, fun c' hc' => (hboth c' hc').1, fun c' hc' => (hboth c' hc').2⟩

/-- The day as the scans in TypeScript have it. -/
def Known.jsDay (k : Known) : Option ℤ :=
  k.renewsAt.map fun renewsAt => ((renewsAt / CreditLedger.msPerDay : ℕ) : ℤ)

lemma earlier_jsDay (k k' : Known) : earlier k.jsDay k'.jsDay = true ↔ k.day < k'.day := by
  unfold Known.jsDay Known.day earlier
  cases k.renewsAt with
  | none => simp
  | some t =>
    cases k'.renewsAt with
    | none => simp
    | some t' =>
      show decide (_ < _) = true ↔ _
      rw [decide_eq_true_iff, Nat.cast_lt]
      exact WithTop.coe_lt_coe.symm

lemma jsDay_eq {k k' : Known} : k.jsDay = k'.jsDay ↔ k.day = k'.day := by
  unfold Known.jsDay Known.day
  cases k.renewsAt with
  | none => cases k'.renewsAt <;> simp
  | some t =>
    cases k'.renewsAt with
    | none => simp
    | some t' =>
      show some _ = some _ ↔ _
      rw [Option.some_inj, Nat.cast_inj]
      exact WithTop.coe_inj.symm

/-! ## The keys of the rule -/

variable {ρ : Type*}

/-- A key that can be charged, with the same data in Redis and in the local pools. -/
structure Chargeable (store : Store String ρ) (r : Routing) (now : ℕ) (later : ℤ) (amount : ℕ)
    (keyId : String) (k : Known) : Prop where
  enough : (amount : ℤ) ≤ k.credits
  positive : ∀ renewsAt ∈ k.renewsAt, 0 < renewsAt
  credits : (store.pool keyId).credits = some (k.credits : ℚ)
  disabled : (store.pool keyId).disabled = false
  cooldownUntil : (store.pool keyId).cooldownUntil ≤ now
  renewsAt : (store.pool keyId).renewsAt = k.renewsAt.getD 0
  usable : r.usable later keyId = true
  localPool : r.localPools keyId = some ⟨k.renewsAt.map Nat.cast, some (k.credits : ℚ)⟩

/-- A credit usage item of a key without an error, with the same data. -/
structure Reports (parseDate : String → Option ℤ) (item : Admin.CreditUsageItem) (key : String)
    (k : Known) : Prop where
  keyPrefix : item.keyPrefix = Admin.creditKeyPrefix key
  error : item.error.getD "" = ""
  remainingCredits : item.remainingCredits = some (k.credits : ℚ)
  billingPeriodEnd : Admin.renewsAt parseDate item = k.renewsAt.map Nat.cast

variable {store : Store String ρ} {r : Routing} {now : ℕ} {later : ℤ} {amount : ℕ}
  {known : String → Known}

/-! ## `RESERVE_SCRIPT` -/

lemma renewalDay_eq {keyId : String} {k : Known}
    (h : Chargeable store r now later amount keyId k) :
    CreditLedger.renewalDay (store.pool keyId).renewsAt = k.day := by
  rw [h.renewsAt]
  have hpositive := h.positive
  unfold CreditLedger.renewalDay Known.day
  cases hrenewsAt : k.renewsAt with
  | none => rfl
  | some t => exact if_pos (hpositive t hrenewsAt)

/-- What the loop of the script has of the best candidates so far. -/
structure ScriptTies (known : String → Known) (sel : Selection) (ties : List (Candidate × ℕ)) :
    Prop where
  listed : sel.ties = ties.map Prod.snd
  first : ties = [] → sel.bestDay = none
  best : ∀ t ∈ ties.head?, sel.bestDay = some (known t.1.keyId).day ∧
    sel.bestCredits = (known t.1.keyId).credits

/-- The rank of a numbered candidate. -/
def rankOf (known : String → Known) (x : Candidate × ℕ) : WithTop ℕ ×ₗ ℤᵒᵈ :=
  (known x.1.keyId).rank

lemma scriptTies_consider {sel : Selection} {ties : List (Candidate × ℕ)}
    (h : ScriptTies known sel ties) {c : Candidate}
    (hc : Chargeable store r now later amount c.keyId (known c.keyId)) (i : ℕ) :
    ScriptTies known (CreditLedger.consider now amount sel i (store.pool c.keyId))
      (keep (rankOf known) ties (c, i)) := by
  have heligible : CreditLedger.eligible (store.pool c.keyId) ((known c.keyId).credits : ℚ) now
      amount = true := by
    have henough : (amount : ℚ) ≤ (known c.keyId).credits := by exact_mod_cast hc.enough
    unfold CreditLedger.eligible
    simp [hc.disabled, hc.cooldownUntil, henough]
  unfold CreditLedger.consider
  rw [hc.credits]
  dsimp only
  rw [if_pos heligible, renewalDay_eq hc]
  cases ties with
  | nil =>
    have hbeaten : ({ sel with initialized := true } : Selection).beatenBy (known c.keyId).day
        ((known c.keyId).credits : ℚ) = true := by
      unfold Selection.beatenBy
      rw [h.first rfl]
    rw [if_pos hbeaten]
    refine ⟨rfl, fun hnil => absurd hnil (List.cons_ne_nil _ _), ?_⟩
    rintro t ht
    cases ht
    exact ⟨rfl, rfl⟩
  | cons t ts =>
    obtain ⟨hday, hcredits⟩ := h.best t rfl
    have hbeaten : ({ sel with initialized := true } : Selection).beatenBy (known c.keyId).day
        ((known c.keyId).credits : ℚ) = true ↔ rankOf known (c, i) < rankOf known t := by
      unfold Selection.beatenBy rankOf
      dsimp only
      rw [hday, hcredits, rank_lt]
      simp
    have htie : sel.bestDay = some (known c.keyId).day ∧
        ((known c.keyId).credits : ℚ) = sel.bestCredits ↔
          rankOf known (c, i) = rankOf known t := by
      unfold rankOf
      rw [hday, hcredits, rank_eq, Option.some_inj, Int.cast_inj, eq_comm]
    unfold keep
    dsimp only
    simp only [hbeaten, htie]
    split_ifs
    · refine ⟨rfl, fun hnil => absurd hnil (List.cons_ne_nil _ _), ?_⟩
      rintro t ht
      cases ht
      exact ⟨rfl, rfl⟩
    · refine ⟨?_, fun hnil => absurd hnil (by simp), ?_⟩
      · dsimp only
        rw [h.listed, List.map_append]
        rfl
      · rintro t' ht
        cases ht
        exact ⟨hday, hcredits⟩
    · refine ⟨h.listed, fun hnil => absurd hnil (List.cons_ne_nil _ _), ?_⟩
      rintro t' ht
      cases ht
      exact ⟨hday, hcredits⟩

/-- The loop of the script is the scan, by the numbers of the candidates. -/
lemma scriptTies_selectFrom {cs : List Candidate}
    (hcs : ∀ c ∈ cs, Chargeable store r now later amount c.keyId (known c.keyId)) {sel : Selection}
    {i : ℕ} {ties : List (Candidate × ℕ)} (h : ScriptTies known sel ties) :
    ScriptTies known (selectFrom now amount sel i (cs.map fun c => store.pool c.keyId))
      ((cs.zipIdx i).foldl (keep (rankOf known)) ties) := by
  induction cs generalizing sel i ties with
  | nil => exact h
  | cons c cs ih =>
    obtain ⟨hc, hcs⟩ := List.forall_mem_cons.mp hcs
    exact ih hcs (scriptTies_consider h hc i)

/-! ## `reserveLocally` -/

lemma localDay_eq {keyId : String} {k : Known} (h : Chargeable store r now later amount keyId k) :
    CreditRouting.renewalDay (r.localPools keyId) = k.jsDay := by
  have hpositive := h.positive
  rw [h.localPool]
  unfold CreditRouting.renewalDay Known.jsDay
  cases hrenewsAt : k.renewsAt with
  | none => rfl
  | some t =>
    have ht : ((t : ℕ) : ℤ) ≠ 0 := by
      have := hpositive t hrenewsAt
      omega
    show (if ((t : ℕ) : ℤ) ≠ 0 then _ else _) = _
    rw [if_pos ht]
    rfl

/-- What the local loop has of the best candidates so far. -/
structure LocalTies (known : String → Known) (b : Best) (ties : List (Candidate × ℕ)) : Prop where
  listed : b.best = ties.map Prod.fst
  best : ∀ t ∈ ties.head?, b.bestDay = (known t.1.keyId).jsDay ∧
    b.bestCredits = (known t.1.keyId).credits

lemma localTies_consider {b : Best} {ties : List (Candidate × ℕ)} (h : LocalTies known b ties)
    {c : Candidate} (hc : Chargeable store r now later amount c.keyId (known c.keyId)) (i : ℕ) :
    LocalTies known (CreditRouting.consider r later b c) (keep (rankOf known) ties (c, i)) := by
  have hcredits : CreditRouting.poolCredits (r.localPools c.keyId) = (known c.keyId).credits := by
    rw [hc.localPool]
    rfl
  unfold CreditRouting.consider
  rw [hc.usable, localDay_eq hc, hcredits]
  simp only [Bool.not_true, Bool.false_eq_true, if_false]
  cases ties with
  | nil =>
    have hempty : b.best = [] := h.listed
    rw [if_pos (Or.inl hempty)]
    refine ⟨rfl, ?_⟩
    rintro t ht
    cases ht
    exact ⟨rfl, rfl⟩
  | cons t ts =>
    obtain ⟨hday, hcredits⟩ := h.best t rfl
    have hne : b.best ≠ [] := by
      rw [h.listed]
      exact List.cons_ne_nil _ _
    have hbetter : b.best = [] ∨ earlier (known c.keyId).jsDay b.bestDay = true ∨
        (known c.keyId).jsDay = b.bestDay ∧ ((known c.keyId).credits : ℚ) > b.bestCredits ↔
          rankOf known (c, i) < rankOf known t := by
      unfold rankOf
      rw [hday, hcredits, rank_lt, earlier_jsDay, jsDay_eq, or_iff_right hne, gt_iff_lt,
        Int.cast_lt]
    have htie : (known c.keyId).jsDay = b.bestDay ∧
        ((known c.keyId).credits : ℚ) = b.bestCredits ↔
          rankOf known (c, i) = rankOf known t := by
      unfold rankOf
      rw [hday, hcredits, rank_eq, jsDay_eq, Int.cast_inj]
    unfold keep
    dsimp only
    simp only [hbetter, htie]
    split_ifs
    · refine ⟨rfl, ?_⟩
      rintro t ht
      cases ht
      exact ⟨rfl, rfl⟩
    · refine ⟨?_, ?_⟩
      · dsimp only
        rw [h.listed, List.map_append]
        rfl
      · rintro t' ht
        cases ht
        exact ⟨hday, hcredits⟩
    · refine ⟨h.listed, ?_⟩
      rintro t' ht
      cases ht
      exact ⟨hday, hcredits⟩

/-- The local loop is the same scan, by the candidates themselves. -/
lemma localTies_foldl {cs : List Candidate}
    (hcs : ∀ c ∈ cs, Chargeable store r now later amount c.keyId (known c.keyId)) {b : Best}
    {i : ℕ} {ties : List (Candidate × ℕ)} (h : LocalTies known b ties) :
    LocalTies known (cs.foldl (CreditRouting.consider r later) b)
      ((cs.zipIdx i).foldl (keep (rankOf known)) ties) := by
  induction cs generalizing b i ties with
  | nil => exact h
  | cons c cs ih =>
    obtain ⟨hc, hcs⟩ := List.forall_mem_cons.mp hcs
    exact ih hcs (localTies_consider h hc i)

/-! ## The same choice -/

/-- The candidates that are first in line, with their numbers. -/
lemma mem_minima_zipIdx {cs : List Candidate} {c : Candidate} {i : ℕ} :
    (c, i) ∈ minima (rankOf known) cs.zipIdx ↔ cs[i]? = some c ∧ FirstInLine known cs c := by
  rw [firstInLine_iff, mem_minima, mem_minima, List.mk_mem_zipIdx_iff_getElem?]
  constructor
  · rintro ⟨hi, hle⟩
    refine ⟨hi, List.mem_of_getElem? hi, fun c' hc' => ?_⟩
    obtain ⟨j, hj⟩ := List.mem_iff_getElem?.mp hc'
    exact hle (c', j) (List.mk_mem_zipIdx_iff_getElem?.mpr hj)
  · rintro ⟨hi, -, hle⟩
    exact ⟨hi, fun y hy => hle y.1 (List.mem_of_getElem? (List.mem_zipIdx_iff_getElem?.mp hy))⟩

/-- The script selects the candidate of that number, and the local scan the candidate itself. -/
def SelectBoth [DecidableEq ρ] (store : Store String ρ) (r : Routing) (now : ℕ) (later : ℤ)
    (amount : ℕ) (cs : List Candidate) (keys : List (String × ρ)) (random : ℚ) (i : ℕ)
    (c : Candidate) : Prop :=
  (CreditLedger.selected store keys now amount random).map Prod.fst = some i ∧
    (CreditRouting.reserveLocally r later random cs amount).2 =
      some { c with amount := amount, source := .local }

/-- The script and the local scan choose by the same place in the same ties. -/
lemma both_select [DecidableEq ρ] {cs : List Candidate}
    (hcs : ∀ c ∈ cs, Chargeable store r now later amount c.keyId (known c.keyId))
    {keys : List (String × ρ)} (hkeys : keys.map Prod.fst = cs.map Candidate.keyId) {random : ℚ}
    {j i : ℕ} {c : Candidate} (hj : (minima (rankOf known) cs.zipIdx)[j]? = some (c, i))
    (hrandom : ⌊random * (minima (rankOf known) cs.zipIdx).length⌋ = j) :
    SelectBoth store r now later amount cs keys random i c := by
  have hi : cs[i]? = some c := (mem_minima_zipIdx.mp (List.mem_of_getElem? hj)).1
  constructor
  · have hpools : keys.map (fun k => store.pool k.1) = cs.map fun c => store.pool c.keyId := by
      have hmap := congrArg (List.map store.pool) hkeys
      rwa [List.map_map, List.map_map] at hmap
    have hscan : ScriptTies known
        (selectFrom now amount {} 0 (cs.map fun c => store.pool c.keyId))
        (minima (rankOf known) cs.zipIdx) := by
      rw [← foldl_keep]
      exact scriptTies_selectFrom hcs ⟨rfl, fun _ => rfl, fun t ht => by cases ht⟩
    obtain ⟨key, hkey⟩ : ∃ key, keys[i]? = some key := by
      have hlength := congrArg List.length hkeys
      rw [List.length_map, List.length_map] at hlength
      have hlt := (List.getElem?_eq_some_iff.mp hi).1
      exact ⟨_, List.getElem?_eq_getElem (hlength ▸ hlt)⟩
    unfold CreditLedger.selected CreditLedger.pick CreditLedger.luaIndex
    dsimp only
    rw [hpools, hscan.listed, List.length_map, hrandom, if_pos (Int.natCast_nonneg j), Int.toNat_natCast,
      List.getElem?_map, hj]
    simp [hkey]
  · have hscan : LocalTies known (cs.foldl (CreditRouting.consider r later) {})
        (minima (rankOf known) cs.zipIdx) := by
      rw [← foldl_keep]
      exact localTies_foldl hcs ⟨rfl, fun t ht => by cases ht⟩
    unfold CreditRouting.reserveLocally CreditRouting.pickBest
    dsimp only
    rw [hscan.listed, List.length_map, hrandom, Int.toNat_natCast, List.getElem?_map, hj]
    rfl

/-! ## `nextUpPrefixes` -/

/-- The rank as the admin app has it. -/
def Known.jsRank (k : Known) : Option ℤ × ℚ := (k.jsDay, k.credits)

lemma better_jsRank (k k' : Known) : Admin.better k.jsRank k'.jsRank = decide (k.rank < k'.rank) := by
  rw [Bool.eq_iff_iff, decide_eq_true_iff, rank_lt]
  unfold Admin.better Known.jsRank
  simp only [Bool.or_eq_true, Bool.and_eq_true, decide_eq_true_eq, earlier_jsDay, jsDay_eq, gt_iff_lt,
    Int.cast_lt]

lemma jsRank_eq {k k' : Known} : k.jsRank = k'.jsRank ↔ k.rank = k'.rank := by
  unfold Known.jsRank
  rw [rank_eq, Prod.mk.injEq, jsDay_eq, Int.cast_inj]

variable {parseDate : String → Option ℤ}

lemma Reports.rank {item : Admin.CreditUsageItem} {key : String} {k : Known}
    (h : Reports parseDate item key k) : Admin.rank parseDate item = k.jsRank := by
  unfold Admin.rank Known.jsRank Known.jsDay
  rw [h.billingPeriodEnd, h.remainingCredits, Option.map_map]
  rfl

lemma Reports.usable {item : Admin.CreditUsageItem} {key : String} {k : Known}
    (h : Reports parseDate item key k) (hpositive : 1 ≤ k.credits) : Admin.usable item = true := by
  have hcredits : (0 : ℚ) < k.credits := by exact_mod_cast hpositive
  unfold Admin.usable
  rw [h.error, h.remainingCredits]
  simpa using hcredits

/-- The items of some candidates, in order. -/
def ReportsAll (parseDate : String → Option ℤ) (known : String → Known)
    (items : List Admin.CreditUsageItem) (cs : List Candidate) : Prop :=
  List.Forall₂ (fun item c => Reports parseDate item c.key (known c.keyId)) items cs

/-- The first pass finds the rank of a candidate that is first in line. -/
lemma bestRank_eq {items : List Admin.CreditUsageItem} {cs : List Candidate}
    (h : ReportsAll parseDate known items cs) {first : Admin.CreditUsageItem} {c : Candidate}
    (hfirst : Reports parseDate first c.key (known c.keyId)) :
    Admin.bestRank parseDate first items =
      (known (cs.foldl (better fun c => (known c.keyId).rank) c).keyId).jsRank := by
  have hfold : ∀ c : Candidate, items.foldl (fun best item =>
      if Admin.better (Admin.rank parseDate item) best then Admin.rank parseDate item else best)
        (known c.keyId).jsRank =
      (known (cs.foldl (better fun c => (known c.keyId).rank) c).keyId).jsRank := by
    unfold ReportsAll at h
    induction h with
    | nil => exact fun _ => rfl
    | cons hitem _ ih =>
      intro c
      rw [List.foldl_cons, List.foldl_cons, hitem.rank, better_jsRank]
      unfold better
      split_ifs with hlt hlt' hlt'
      · exact ih _
      · exact absurd (of_decide_eq_true hlt) hlt'
      · exact absurd (decide_eq_true hlt') hlt
      · exact ih _
  unfold Admin.bestRank
  rw [hfirst.rank]
  exact hfold c

/-- Items and candidates belong together. -/
lemma ReportsAll.mem {items : List Admin.CreditUsageItem} {cs : List Candidate}
    (h : ReportsAll parseDate known items cs) :
    (∀ item ∈ items, ∃ c ∈ cs, Reports parseDate item c.key (known c.keyId)) ∧
      ∀ c ∈ cs, ∃ item ∈ items, Reports parseDate item c.key (known c.keyId) := by
  unfold ReportsAll at h
  induction h with
  | nil => exact ⟨fun _ hitem => absurd hitem List.not_mem_nil, fun _ hc => absurd hc List.not_mem_nil⟩
  | @cons item c items cs hitem _ ih =>
    constructor
    · refine List.forall_mem_cons.mpr ⟨⟨c, List.mem_cons_self, hitem⟩, fun item' hitem' => ?_⟩
      obtain ⟨c', hc', hreports⟩ := ih.1 item' hitem'
      exact ⟨c', List.mem_cons_of_mem c hc', hreports⟩
    · refine List.forall_mem_cons.mpr ⟨⟨item, List.mem_cons_self, hitem⟩, fun c' hc' => ?_⟩
      obtain ⟨item', hitem', hreports⟩ := ih.2 c' hc'
      exact ⟨item', List.mem_cons_of_mem item hitem', hreports⟩

/-- The second pass picks the prefixes of the candidates that are first in line. -/
lemma nextUpPrefixes_iff {items : List Admin.CreditUsageItem} {cs : List Candidate}
    (h : ReportsAll parseDate known items cs) (hpositive : ∀ c ∈ cs, 1 ≤ (known c.keyId).credits)
    (htwo : 2 ≤ cs.length) (keyPrefix : JsString) :
    keyPrefix ∈ Admin.nextUpPrefixes parseDate items ↔
      ∃ c, FirstInLine known cs c ∧ Admin.creditKeyPrefix c.key = keyPrefix := by
  obtain ⟨hitems, hcandidates⟩ := h.mem
  have husable : items.filter Admin.usable = items := by
    refine List.filter_eq_self.mpr fun item hitem => ?_
    obtain ⟨c, hc, hreports⟩ := hitems item hitem
    exact hreports.usable (hpositive c hc)
  obtain ⟨c₀, tail, rfl⟩ := List.exists_cons_of_length_pos (by omega : 0 < cs.length)
  rw [List.length_cons] at htwo
  obtain ⟨c₁, rest, rfl⟩ := List.exists_cons_of_length_pos (by omega : 0 < tail.length)
  obtain ⟨first, items', hfirst, hrest, rfl⟩ := List.forall₂_cons_right_iff.mp h
  obtain ⟨second, items'', -, -, rfl⟩ := List.forall₂_cons_right_iff.mp hrest
  -- the best candidate is found, and it is one of them
  have hbest := foldl_better (fun c : Candidate => (known c.keyId).rank) c₀ (c₀ :: c₁ :: rest)
  have hrank := bestRank_eq h hfirst
  generalize (c₀ :: c₁ :: rest).foldl (better fun c => (known c.keyId).rank) c₀ = t at hbest hrank
  have hmin : t ∈ minima (fun c : Candidate => (known c.keyId).rank) (c₀ :: c₁ :: rest) := by
    rw [mem_minima] at hbest ⊢
    refine ⟨?_, fun y hy => hbest.2 y (List.mem_cons_of_mem c₀ hy)⟩
    rcases List.mem_cons.mp hbest.1 with rfl | ht
    · exact List.mem_cons_self
    · exact ht
  have hfront : ∀ c ∈ c₀ :: c₁ :: rest, FirstInLine known (c₀ :: c₁ :: rest) c ↔
      (known c.keyId).jsRank = (known t.keyId).jsRank := by
    intro c hc
    rw [firstInLine_iff, minima_eq_filter _ hmin, List.mem_filter, jsRank_eq, decide_eq_true_iff]
    exact and_iff_right hc
  unfold Admin.nextUpPrefixes
  rw [husable]
  dsimp only
  rw [hrank, List.mem_toFinset, List.mem_map]
  constructor
  · rintro ⟨item, hitem, rfl⟩
    obtain ⟨hmem, hbest⟩ := List.mem_filter.mp hitem
    obtain ⟨c, hc, hreports⟩ := hitems item hmem
    rw [hreports.rank, decide_eq_true_iff] at hbest
    exact ⟨c, (hfront c hc).mpr hbest, hreports.keyPrefix.symm⟩
  · rintro ⟨c, hc, rfl⟩
    obtain ⟨item, hitem, hreports⟩ := hcandidates c hc.1
    refine ⟨item, List.mem_filter.mpr ⟨hitem, ?_⟩, hreports.keyPrefix⟩
    rw [hreports.rank, decide_eq_true_iff]
    exact (hfront c hc.1).mp hc

/-! ## The three together -/

/-- The three implementations agree on these candidates. -/
structure Agree [DecidableEq ρ] (known : String → Known) (store : Store String ρ) (r : Routing)
    (now : ℕ) (later : ℤ) (amount : ℕ) (cs : List Candidate) (keys : List (String × ρ)) : Prop where
  /-- For every random number the same candidate is selected, one that is first in line. -/
  same : ∀ random : ℚ, 0 ≤ random → random < 1 → ∃ i c, cs[i]? = some c ∧ FirstInLine known cs c ∧
    SelectBoth store r now later amount cs keys random i c
  /-- Every candidate that is first in line is selected for some random number. -/
  every : ∀ i c, cs[i]? = some c → FirstInLine known cs c → ∃ random : ℚ, 0 ≤ random ∧ random < 1 ∧
    SelectBoth store r now later amount cs keys random i c
  /-- The admin app shows the prefixes of just these candidates. -/
  admin : amount = 1 → 2 ≤ cs.length → ∀ parseDate items, ReportsAll parseDate known items cs →
    ∀ keyPrefix, keyPrefix ∈ Admin.nextUpPrefixes parseDate items ↔
      ∃ c, FirstInLine known cs c ∧ Admin.creditKeyPrefix c.key = keyPrefix

theorem key_selection_agrees [DecidableEq ρ] {cs : List Candidate} (hne : cs ≠ [])
    (hcs : ∀ c ∈ cs, Chargeable store r now later amount c.keyId (known c.keyId))
    {keys : List (String × ρ)} (hkeys : keys.map Prod.fst = cs.map Candidate.keyId) :
    Agree known store r now later amount cs keys := by
  refine ⟨fun random h0 h1 => ?_, fun i c hi hc => ?_, ?_⟩
  · have hpositive : 0 < (minima (rankOf known) cs.zipIdx).length := by
      refine List.length_pos_iff.mpr (minima_ne_nil _ ?_)
      exact fun hnil => hne (List.zipIdx_eq_nil_iff.mp hnil)
    obtain ⟨j, hj, hrandom⟩ := floor_mul_eq hpositive h0 h1
    have hget := List.getElem?_eq_getElem hj
    obtain ⟨hi, hc⟩ := mem_minima_zipIdx.mp (List.mem_of_getElem? hget)
    exact ⟨_, _, hi, hc, both_select hcs hkeys hget hrandom⟩
  · obtain ⟨j, hj⟩ := List.mem_iff_getElem?.mp (mem_minima_zipIdx.mpr ⟨hi, hc⟩)
    have hlt := (List.getElem?_eq_some_iff.mp hj).1
    obtain ⟨random, h0, h1, hrandom⟩ := exists_floor_mul hlt
    exact ⟨random, h0, h1, both_select hcs hkeys hj hrandom⟩
  · intro hone htwo parseDate items hitems keyPrefix
    refine nextUpPrefixes_iff hitems (fun c hc => ?_) htwo keyPrefix
    have henough := (hcs c hc).enough
    omega

/-- Two keys renew on the same day with the same credits, and a third at an unknown time. -/
def sampleKnown (keyId : String) : Known :=
  if keyId = "north" then ⟨120, some 1728000000005⟩
  else if keyId = "south" then ⟨120, some 1728003600000⟩
  else ⟨500, none⟩

def sampleCandidates : List Candidate :=
  [⟨"fc-one", "north"⟩, ⟨"fc-two", "south"⟩, ⟨"fc-three", "west"⟩]

def sampleStore : Store String String where
  pool keyId := { credits := some (sampleKnown keyId).credits,
                  renewsAt := (sampleKnown keyId).renewsAt.getD 0 }
  reservations _ := .empty
  reservation _ := none

def sampleRouting : Routing where
  localPools keyId :=
    some ⟨(sampleKnown keyId).renewsAt.map Nat.cast, some (sampleKnown keyId).credits⟩

/-- What the admin app is told of the three. -/
def sampleItems : List Admin.CreditUsageItem :=
  [{ keyIndex := 0, keyPrefix := Admin.creditKeyPrefix "fc-one", remainingCredits := some 120,
     billingPeriodEnd := some "noon" },
   { keyIndex := 1, keyPrefix := Admin.creditKeyPrefix "fc-two", remainingCredits := some 120,
     billingPeriodEnd := some "one" },
   { keyIndex := 2, keyPrefix := Admin.creditKeyPrefix "fc-three", remainingCredits := some 500 }]

def sampleParseDate (text : String) : Option ℤ :=
  if text = "noon" then some 1728000000005 else some 1728003600000

theorem key_selection_agrees_sample :
    Agree sampleKnown sampleStore sampleRouting 1000 2000 1 sampleCandidates
      [("north", "r1"), ("south", "r2"), ("west", "r3")] ∧
    ∀ keyPrefix, keyPrefix ∈ Admin.nextUpPrefixes sampleParseDate sampleItems ↔
      ∃ c, FirstInLine sampleKnown sampleCandidates c ∧
        Admin.creditKeyPrefix c.key = keyPrefix := by
  have hagree : Agree sampleKnown sampleStore sampleRouting 1000 2000 1 sampleCandidates
      [("north", "r1"), ("south", "r2"), ("west", "r3")] := by
    refine key_selection_agrees (List.cons_ne_nil _ _) (fun c hc => ?_) rfl
    have hknown : 1 ≤ (sampleKnown c.keyId).credits ∧
        ∀ renewsAt ∈ (sampleKnown c.keyId).renewsAt, 0 < renewsAt := by
      revert c
      decide
    exact ⟨hknown.1, hknown.2, rfl, rfl, Nat.zero_le _, rfl, rfl, rfl⟩
  refine ⟨hagree, hagree.admin rfl (by decide) sampleParseDate sampleItems ?_⟩
  exact .cons ⟨rfl, rfl, rfl, rfl⟩ (.cons ⟨rfl, rfl, rfl, rfl⟩ (.cons ⟨rfl, rfl, rfl, rfl⟩ .nil))

end KeySelection
end FirecrawlGateway
