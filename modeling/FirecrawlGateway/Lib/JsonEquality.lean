import FirecrawlGateway.Lib.JsonRoundTrip

/-!
# JSON values up to the order of members

Two JSON values are the same if they differ only in the order in which the members of their objects
stand, and in the signs of zeros. The value with sorted members stands for all that are the same. A
number that overflows has no text of its own in JSON, and is written as `null`.
-/

/-- The zeros are one number. -/
def JsNumber.unsignedZero : JsNumber → JsNumber
  | negativeZero => finite 0
  | n => n

namespace JsonValue

/-! ## The same value -/

mutual

def Same : JsonValue → JsonValue → Prop
  | null, other => other = null
  | bool b, other => other = bool b
  | number n, other => ∃ m, other = number m ∧ n.unsignedZero = m.unsignedZero
  | string s, other => other = string s
  | array items, other => ∃ others, other = array others ∧ SameItems items others
  | object members, other =>
    ∃ others, other = object others ∧ members.length = others.length ∧ SameMembers members others

/-- The items are the same, one after the other. -/
def SameItems : List JsonValue → List JsonValue → Prop
  | [], others => others = []
  | item :: items, others =>
    ∃ other rest, others = other :: rest ∧ Same item other ∧ SameItems items rest

/-- Each of the members is among the others, with the same value. -/
def SameMembers : List (JsString × JsonValue) → List (JsString × JsonValue) → Prop
  | [], _ => True
  | (name, value) :: members, others =>
    (∃ other, (name, other) ∈ others ∧ Same value other) ∧ SameMembers members others

end

/-! ## The value with sorted members -/

def byName (members : List (JsString × JsonValue)) : List (JsString × JsonValue) :=
  members.insertionSort fun left right => left.1 ≤ right.1

mutual

def canonical : JsonValue → JsonValue
  | number n => number n.unsignedZero
  | array items => array (canonicalItems items)
  | object members => object (byName (canonicalMembers members))
  | value => value

def canonicalItems : List JsonValue → List JsonValue
  | [] => []
  | item :: items => canonical item :: canonicalItems items

def canonicalMembers : List (JsString × JsonValue) → List (JsString × JsonValue)
  | [] => []
  | (name, value) :: members => (name, canonical value) :: canonicalMembers members

end

/-- An object has one member for each name. -/
def DistinctNames (value : JsonValue) : Prop :=
  ∀ members, object members ∈ value.walk → (members.map Prod.fst).Nodup

lemma self_mem_walk (value : JsonValue) : value ∈ value.walk := by
  cases value <;> exact List.mem_cons_self

lemma DistinctNames.item {items : List JsonValue} (h : DistinctNames (array items)) :
    ∀ item ∈ items, DistinctNames item := fun item hitem members hmem =>
  h members (List.mem_cons_of_mem _ (JsonReader.mem_walkItems.mpr ⟨item, hitem, hmem⟩))

lemma DistinctNames.member {members : List (JsString × JsonValue)}
    (h : DistinctNames (object members)) : ∀ m ∈ members, DistinctNames m.2 :=
  fun m hm members' hmem =>
    h members' (List.mem_cons_of_mem _ (JsonReader.mem_walkMembers.mpr ⟨m, hm, hmem⟩))

lemma canonicalMembers_eq (members : List (JsString × JsonValue)) :
    canonicalMembers members = members.map fun m => (m.1, canonical m.2) := by
  induction members with
  | nil => rfl
  | cons m members ih =>
    obtain ⟨name, value⟩ := m
    rw [canonicalMembers, ih, List.map_cons]

lemma mem_canonicalMembers {members : List (JsString × JsonValue)} {name : JsString}
    {value : JsonValue} : (name, value) ∈ canonicalMembers members ↔
      ∃ other, (name, other) ∈ members ∧ value = canonical other := by
  rw [canonicalMembers_eq, List.mem_map]
  constructor
  · rintro ⟨⟨name', other⟩, hmem, heq⟩
    cases heq
    exact ⟨other, hmem, rfl⟩
  · rintro ⟨other, hmem, rfl⟩
    exact ⟨_, hmem, rfl⟩

lemma canonicalMembers_names (members : List (JsString × JsonValue)) :
    (canonicalMembers members).map Prod.fst = members.map Prod.fst := by
  rw [canonicalMembers_eq, List.map_map]
  rfl

/-- Sorted members are the same when there are as many, and each of the ones is among the others. -/
lemma byName_eq_iff {members others : List (JsString × JsonValue)}
    (h : (members.map Prod.fst).Nodup) :
    byName members = byName others ↔
      members.length = others.length ∧ ∀ m ∈ members, m ∈ others := by
  have hperm := List.perm_insertionSort (fun left right : JsString × JsonValue => left.1 ≤ right.1)
  constructor
  · intro heq
    have hothers : (byName members).Perm others := by
      rw [heq]
      exact hperm others
    have hsame : members.Perm others := (hperm members).symm.trans hothers
    exact ⟨hsame.length_eq, fun m hm => hsame.mem_iff.mp hm⟩
  · rintro ⟨hlength, hsubset⟩
    have hsame : members.Perm others :=
      (List.subperm_of_subset h.of_map hsubset).perm_of_length_le hlength.ge
    have hsorted : ∀ ms : List (JsString × JsonValue),
        (byName ms).Pairwise fun left right => left.1 ≤ right.1 :=
      fun ms => List.pairwise_insertionSort _ ms
    refine List.Perm.eq_of_pairwise (fun m m' hm hm' hle hle' => ?_) (hsorted members)
      (hsorted others) ((hperm members).trans (hsame.trans (hperm others).symm))
    -- two members of one name are one
    have hmem : m ∈ members := (hperm members).mem_iff.mp hm
    have hmem' : m' ∈ members := hsame.mem_iff.mpr ((hperm others).mem_iff.mp hm')
    exact List.inj_on_of_nodup_map h hmem hmem' (List.le_antisymm hle hle')

mutual

/-- The value with sorted members stands for all that are the same. -/
theorem canonical_eq_iff (value other : JsonValue) (h : DistinctNames value)
    (h' : DistinctNames other) : canonical value = canonical other ↔ Same value other := by
  match value with
  | null => cases other <;> simp [canonical, Same]
  | bool b => cases other <;> simp [canonical, Same, eq_comm]
  | number n => cases other <;> simp [canonical, Same]
  | string s => cases other <;> simp [canonical, Same, eq_comm]
  | array items =>
    cases other with
    | array others =>
      simp only [canonical, Same, array.injEq]
      rw [canonicalItems_eq_iff items others h.item h'.item]
      simp
    | _ => simp [canonical, Same]
  | object members =>
    cases other with
    | object others =>
      have hnames := h members (self_mem_walk _)
      rw [← canonicalMembers_names] at hnames
      simp only [canonical, Same, object.injEq]
      rw [byName_eq_iff hnames, canonicalMembers_subset_iff members others h.member h'.member]
      simp [canonicalMembers_eq]
    | _ => simp [canonical, Same]

theorem canonicalItems_eq_iff (items others : List JsonValue) (h : ∀ item ∈ items, DistinctNames item)
    (h' : ∀ item ∈ others, DistinctNames item) :
    canonicalItems items = canonicalItems others ↔ SameItems items others := by
  match items with
  | [] => cases others <;> simp [canonicalItems, SameItems]
  | item :: items =>
    cases others with
    | nil => simp [canonicalItems, SameItems]
    | cons other others =>
      obtain ⟨hitem, hitems⟩ := List.forall_mem_cons.mp h
      obtain ⟨hother, hothers⟩ := List.forall_mem_cons.mp h'
      simp only [canonicalItems, SameItems, List.cons.injEq]
      rw [canonical_eq_iff item other hitem hother, canonicalItems_eq_iff items others hitems hothers]
      simp

theorem canonicalMembers_subset_iff (members others : List (JsString × JsonValue))
    (h : ∀ m ∈ members, DistinctNames m.2) (h' : ∀ m ∈ others, DistinctNames m.2) :
    (∀ m ∈ canonicalMembers members, m ∈ canonicalMembers others) ↔
      SameMembers members others := by
  match members with
  | [] => simp [canonicalMembers, SameMembers]
  | (name, value) :: members =>
    obtain ⟨hvalue, hmembers⟩ := List.forall_mem_cons.mp h
    rw [canonicalMembers, List.forall_mem_cons, SameMembers,
      canonicalMembers_subset_iff members others hmembers h', mem_canonicalMembers]
    refine and_congr_left' (exists_congr fun other => and_congr_right fun hother => ?_)
    exact canonical_eq_iff value other hvalue (h' _ hother)

end

/-! ## Numbers that overflow -/

mutual

/-- The value with `null` for every number that is infinite. -/
def nullOverflow : JsonValue → JsonValue
  | number (.infinite _) => null
  | array items => array (nullOverflowItems items)
  | object members => object (nullOverflowMembers members)
  | value => value

def nullOverflowItems : List JsonValue → List JsonValue
  | [] => []
  | item :: items => nullOverflow item :: nullOverflowItems items

def nullOverflowMembers : List (JsString × JsonValue) → List (JsString × JsonValue)
  | [] => []
  | (name, value) :: members => (name, nullOverflow value) :: nullOverflowMembers members

end

lemma nullOverflowItems_eq (items : List JsonValue) :
    nullOverflowItems items = items.map nullOverflow := by
  induction items with
  | nil => rfl
  | cons item items ih => rw [nullOverflowItems, ih, List.map_cons]

lemma nullOverflowMembers_eq (members : List (JsString × JsonValue)) :
    nullOverflowMembers members = members.map fun m => (m.1, nullOverflow m.2) := by
  induction members with
  | nil => rfl
  | cons m members ih =>
    obtain ⟨name, value⟩ := m
    rw [nullOverflowMembers, ih, List.map_cons]

lemma canonicalItems_eq (items : List JsonValue) :
    canonicalItems items = items.map canonical := by
  induction items with
  | nil => rfl
  | cons item items ih => rw [canonicalItems, ih, List.map_cons]

/-! ## What is in a value that is changed throughout -/

/-- A function that is applied throughout a value; the members of an object may be rearranged. -/
structure Throughout (f : JsonValue → JsonValue) : Prop where
  leaf : ∀ value, (∀ items, value ≠ array items) → (∀ members, value ≠ object members) →
    (f value).walk = [f value]
  array : ∀ items, f (array items) = array (items.map f)
  object : ∀ members, ∃ others, f (object members) = object others ∧
    others.Perm (members.map fun m => (m.1, f m.2))

mutual

/-- All that is in the new value comes from what is in the old one. -/
theorem Throughout.mem_walk {f : JsonValue → JsonValue} (hf : Throughout f) (value : JsonValue)
    {v : JsonValue} (h : v ∈ (f value).walk) : ∃ u ∈ value.walk, v = f u := by
  match value with
  | null | bool b | number n | string s =>
    rw [hf.leaf _ (fun _ => JsonValue.noConfusion) (fun _ => JsonValue.noConfusion)] at h
    exact ⟨_, self_mem_walk _, List.mem_singleton.mp h⟩
  | .array items =>
    rw [hf.array] at h
    rcases List.mem_cons.mp h with rfl | hmem
    · exact ⟨_, self_mem_walk _, (hf.array items).symm⟩
    · obtain ⟨u, hu, heq⟩ := hf.mem_walkItems items hmem
      exact ⟨u, List.mem_cons_of_mem _ hu, heq⟩
  | .object members =>
    obtain ⟨others, hothers, hperm⟩ := hf.object members
    rw [hothers] at h
    rcases List.mem_cons.mp h with rfl | hmem
    · exact ⟨_, self_mem_walk _, hothers.symm⟩
    · obtain ⟨m, hm, hv⟩ := JsonReader.mem_walkMembers.mp hmem
      obtain ⟨m', hm', rfl⟩ := List.mem_map.mp (hperm.mem_iff.mp hm)
      obtain ⟨u, hu, heq⟩ := hf.mem_walkMembers members m' hm' hv
      exact ⟨u, List.mem_cons_of_mem _ hu, heq⟩

theorem Throughout.mem_walkItems {f : JsonValue → JsonValue} (hf : Throughout f)
    (items : List JsonValue) {v : JsonValue} (h : v ∈ walkItems (items.map f)) :
    ∃ u ∈ walkItems items, v = f u := by
  match items with
  | [] => exact absurd h List.not_mem_nil
  | item :: items =>
    rcases List.mem_append.mp h with hmem | hmem
    · obtain ⟨u, hu, heq⟩ := hf.mem_walk item hmem
      exact ⟨u, List.mem_append_left _ hu, heq⟩
    · obtain ⟨u, hu, heq⟩ := hf.mem_walkItems items hmem
      exact ⟨u, List.mem_append_right _ hu, heq⟩

theorem Throughout.mem_walkMembers {f : JsonValue → JsonValue} (hf : Throughout f)
    (members : List (JsString × JsonValue)) (m : JsString × JsonValue) (hm : m ∈ members)
    {v : JsonValue} (h : v ∈ (f m.2).walk) : ∃ u ∈ walkMembers members, v = f u := by
  match members with
  | [] => exact absurd hm List.not_mem_nil
  | (name, value) :: members =>
    rcases List.mem_cons.mp hm with rfl | hmem
    · obtain ⟨u, hu, heq⟩ := hf.mem_walk value h
      exact ⟨u, List.mem_append_left _ hu, heq⟩
    · obtain ⟨u, hu, heq⟩ := hf.mem_walkMembers members m hmem h
      exact ⟨u, List.mem_append_right _ hu, heq⟩

end

lemma throughout_canonical : Throughout canonical where
  leaf value harray hobject := by
    cases value with
    | array items => exact absurd rfl (harray items)
    | object members => exact absurd rfl (hobject members)
    | _ => rfl
  array items := by rw [canonical, canonicalItems_eq]
  object members := by
    refine ⟨_, rfl, ?_⟩
    rw [← canonicalMembers_eq]
    exact List.perm_insertionSort ..

lemma throughout_nullOverflow : Throughout nullOverflow where
  leaf value harray hobject := by
    cases value with
    | array items => exact absurd rfl (harray items)
    | object members => exact absurd rfl (hobject members)
    | number n => cases n <;> rfl
    | _ => rfl
  array items := by rw [nullOverflow, nullOverflowItems_eq]
  object members := ⟨_, rfl, by rw [nullOverflowMembers_eq]⟩

/-- No number is left that is infinite. -/
lemma number_mem_nullOverflow {value : JsonValue} {n : JsNumber}
    (h : number n ∈ (nullOverflow value).walk) :
    number n ∈ value.walk ∧ ∀ negative, n ≠ .infinite negative := by
  obtain ⟨u, hu, heq⟩ := throughout_nullOverflow.mem_walk value h
  cases u with
  | number m =>
    cases m with
    | infinite negative => cases heq
    | _ =>
      cases heq
      exact ⟨hu, fun negative => JsNumber.noConfusion⟩
  | _ => cases heq

/-- The numbers of the value with sorted members. -/
lemma number_mem_canonical {value : JsonValue} {n : JsNumber}
    (h : number n ∈ (canonical value).walk) : ∃ m, number m ∈ value.walk ∧ n = m.unsignedZero := by
  obtain ⟨u, hu, heq⟩ := throughout_canonical.mem_walk value h
  cases u with
  | number m =>
    cases heq
    exact ⟨m, hu, rfl⟩
  | _ => cases heq

lemma DistinctNames.nullOverflow {value : JsonValue} (h : DistinctNames value) :
    DistinctNames (nullOverflow value) := by
  intro members hmem
  obtain ⟨u, hu, heq⟩ := throughout_nullOverflow.mem_walk value hmem
  cases u with
  | object members' =>
    cases heq
    rw [nullOverflowMembers_eq, List.map_map]
    exact h members' hu
  | number m => cases m <;> cases heq
  | _ => cases heq

/-! ## Overflows in values that are the same -/

mutual

theorem Same.nullOverflow (value other : JsonValue) (h : Same value other) :
    Same (nullOverflow value) (nullOverflow other) := by
  match value with
  | null =>
    obtain rfl : other = null := h
    rfl
  | bool b =>
    obtain rfl : other = bool b := h
    rfl
  | string s =>
    obtain rfl : other = string s := h
    rfl
  | number n =>
    obtain ⟨m, rfl, heq⟩ := h
    -- where one of them overflows, they are equal
    cases n <;> cases m <;> simp_all [JsNumber.unsignedZero, JsonValue.nullOverflow, Same]
  | array items =>
    obtain ⟨others, rfl, hsame⟩ := h
    exact ⟨_, rfl, SameItems.nullOverflow items others hsame⟩
  | object members =>
    obtain ⟨others, rfl, hlength, hsame⟩ := h
    refine ⟨_, rfl, ?_, SameMembers.nullOverflow members others hsame⟩
    rw [nullOverflowMembers_eq, nullOverflowMembers_eq, List.length_map, List.length_map, hlength]

theorem SameItems.nullOverflow (items others : List JsonValue) (h : SameItems items others) :
    SameItems (nullOverflowItems items) (nullOverflowItems others) := by
  match items with
  | [] =>
    obtain rfl : others = [] := h
    rfl
  | item :: items =>
    obtain ⟨other, rest, rfl, hitem, hitems⟩ := h
    exact ⟨_, _, rfl, Same.nullOverflow item other hitem, SameItems.nullOverflow items rest hitems⟩

theorem SameMembers.nullOverflow (members others : List (JsString × JsonValue))
    (h : SameMembers members others) :
    SameMembers (nullOverflowMembers members) (nullOverflowMembers others) := by
  match members with
  | [] => trivial
  | (name, value) :: members =>
    obtain ⟨⟨other, hmem, hvalue⟩, hmembers⟩ := h
    refine ⟨⟨_, ?_, Same.nullOverflow value other hvalue⟩,
      SameMembers.nullOverflow members others hmembers⟩
    rw [nullOverflowMembers_eq]
    exact List.mem_map_of_mem (f := fun m => (m.1, JsonValue.nullOverflow m.2)) hmem

end

/-! ## Members -/

/-- The members of an object. -/
def members : JsonValue → List (JsString × JsonValue)
  | object members => members
  | _ => []

def isNumber : JsonValue → Bool
  | number _ => true
  | _ => false

lemma SameMembers.exists_of_mem {members others : List (JsString × JsonValue)}
    (h : SameMembers members others) {m : JsString × JsonValue} (hm : m ∈ members) :
    ∃ other, (m.1, other) ∈ others ∧ Same m.2 other := by
  induction members with
  | nil => exact absurd hm List.not_mem_nil
  | cons first members ih =>
    obtain ⟨hfirst, hmembers⟩ := h
    rcases List.mem_cons.mp hm with rfl | hm
    · exact hfirst
    · exact ih hmembers hm

/-- Where the one object has a number, the other has one. -/
lemma Same.number_member {value other : JsonValue} (h : Same value other)
    (hnumber : value.members.any (fun m => m.2.isNumber) = true) :
    other.members.any (fun m => m.2.isNumber) = true := by
  obtain ⟨m, hm, hmnumber⟩ := List.any_eq_true.mp hnumber
  cases value with
  | object members =>
    obtain ⟨others, rfl, -, hmembers⟩ := h
    obtain ⟨w, hw, hsame⟩ := hmembers.exists_of_mem hm
    refine List.any_eq_true.mpr ⟨_, hw, ?_⟩
    obtain ⟨name, u⟩ := m
    cases u with
    | number n =>
      obtain ⟨k, rfl, -⟩ := hsame
      rfl
    | _ => cases hmnumber
  | _ => exact absurd hm List.not_mem_nil

end JsonValue
