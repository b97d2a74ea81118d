import FirecrawlGateway.Lib.JsonEquality

/-!
# What occurs in a JSON value

A value occurs in another one if it is that value, or occurs in one of its items or members. The
values that occur are those that `walk` gives, and they are the same, one for one, in values that
differ only in the order of their members.
-/

namespace JsonValue

/-! ## Occurrences -/

/-- The first value is the second one or is anywhere in it. -/
inductive Occurs (value : JsonValue) : JsonValue → Prop
  | here : Occurs value value
  | item {items : List JsonValue} {item : JsonValue} (hmem : item ∈ items)
      (h : Occurs value item) : Occurs value (array items)
  | member {members : List (JsString × JsonValue)} {m : JsString × JsonValue} (hmem : m ∈ members)
      (h : Occurs value m.2) : Occurs value (object members)

lemma Occurs.trans {u v w : JsonValue} (huv : Occurs u v) (hvw : Occurs v w) : Occurs u w := by
  induction hvw with
  | here => exact huv
  | item hmem _ ih => exact .item hmem ih
  | member hmem _ ih => exact .member hmem ih

lemma Occurs.mem_walk {value other : JsonValue} (h : Occurs value other) : value ∈ other.walk := by
  induction h with
  | here => exact self_mem_walk value
  | item hmem _ ih => exact List.mem_cons_of_mem _ (JsonReader.mem_walkItems.mpr ⟨_, hmem, ih⟩)
  | member hmem _ ih => exact List.mem_cons_of_mem _ (JsonReader.mem_walkMembers.mpr ⟨_, hmem, ih⟩)

mutual

theorem occurs_of_mem_walk {value : JsonValue} (other : JsonValue) (h : value ∈ other.walk) :
    Occurs value other := by
  match other with
  | null | bool b | number n | string s =>
    rw [List.mem_singleton.mp h]
    exact .here
  | array items =>
    rcases List.mem_cons.mp h with rfl | hmem
    · exact .here
    · obtain ⟨item, hitem, hoccurs⟩ := occurs_of_mem_walkItems items hmem
      exact .item hitem hoccurs
  | object members =>
    rcases List.mem_cons.mp h with rfl | hmem
    · exact .here
    · obtain ⟨m, hm, hoccurs⟩ := occurs_of_mem_walkMembers members hmem
      exact .member hm hoccurs

theorem occurs_of_mem_walkItems {value : JsonValue} (items : List JsonValue)
    (h : value ∈ walkItems items) : ∃ item ∈ items, Occurs value item := by
  match items with
  | [] => exact absurd h List.not_mem_nil
  | item :: items =>
    rcases List.mem_append.mp h with hmem | hmem
    · exact ⟨item, List.mem_cons_self, occurs_of_mem_walk item hmem⟩
    · obtain ⟨item', hitem, hoccurs⟩ := occurs_of_mem_walkItems items hmem
      exact ⟨item', List.mem_cons_of_mem _ hitem, hoccurs⟩

theorem occurs_of_mem_walkMembers {value : JsonValue} (members : List (JsString × JsonValue))
    (h : value ∈ walkMembers members) : ∃ m ∈ members, Occurs value m.2 := by
  match members with
  | [] => exact absurd h List.not_mem_nil
  | (name, first) :: members =>
    rcases List.mem_append.mp h with hmem | hmem
    · exact ⟨(name, first), List.mem_cons_self, occurs_of_mem_walk first hmem⟩
    · obtain ⟨m, hm, hoccurs⟩ := occurs_of_mem_walkMembers members hmem
      exact ⟨m, List.mem_cons_of_mem _ hm, hoccurs⟩

end

/-- The traversal visits all that occurs, and nothing else. -/
lemma mem_walk_iff {value other : JsonValue} : value ∈ other.walk ↔ Occurs value other :=
  ⟨occurs_of_mem_walk other, Occurs.mem_walk⟩

/-- What holds of something in a value holds of something in every value around it. -/
lemma Occurs.any_walk {p : JsonValue → Bool} {value other : JsonValue} (h : Occurs value other)
    (hany : value.walk.any p = true) : other.walk.any p = true := by
  obtain ⟨u, hu, hpu⟩ := List.any_eq_true.mp hany
  exact List.any_eq_true.mpr ⟨u, ((mem_walk_iff.mp hu).trans h).mem_walk, hpu⟩

lemma DistinctNames.of_occurs {value other : JsonValue} (h : DistinctNames other)
    (hoccurs : Occurs value other) : DistinctNames value := fun members hmem =>
  h members (((occurs_of_mem_walk value hmem).trans hoccurs).mem_walk)

/-! ## Values that are the same -/

mutual

theorem Same.refl (value : JsonValue) : Same value value := by
  match value with
  | null | bool b | string s => rfl
  | number n => exact ⟨n, rfl, rfl⟩
  | array items => exact ⟨items, rfl, SameItems.refl items⟩
  | object members => exact ⟨members, rfl, rfl, SameMembers.of_subset members members fun _ h => h⟩

theorem SameItems.refl (items : List JsonValue) : SameItems items items := by
  match items with
  | [] => rfl
  | item :: items => exact ⟨item, items, rfl, Same.refl item, SameItems.refl items⟩

theorem SameMembers.of_subset (members others : List (JsString × JsonValue))
    (h : ∀ m ∈ members, m ∈ others) : SameMembers members others := by
  match members with
  | [] => trivial
  | (name, value) :: members =>
    obtain ⟨hfirst, hrest⟩ := List.forall_mem_cons.mp h
    exact ⟨⟨value, hfirst, Same.refl value⟩, SameMembers.of_subset members others hrest⟩

end

/-- An object with its members in another order is the same. -/
lemma Same.of_perm {members others : List (JsString × JsonValue)} (h : members.Perm others) :
    Same (object members) (object others) :=
  ⟨others, rfl, h.length_eq, SameMembers.of_subset members others fun _ hm => h.mem_iff.mp hm⟩

lemma Same.symm {value other : JsonValue} (h : Same value other) (hvalue : DistinctNames value)
    (hother : DistinctNames other) : Same other value :=
  (canonical_eq_iff other value hother hvalue).mp
    ((canonical_eq_iff value other hvalue hother).mpr h).symm

lemma SameItems.exists_of_mem {items others : List JsonValue} (h : SameItems items others)
    {item : JsonValue} (hitem : item ∈ items) : ∃ other ∈ others, Same item other := by
  induction items generalizing others with
  | nil => exact absurd hitem List.not_mem_nil
  | cons first items ih =>
    obtain ⟨other, rest, rfl, hfirst, hitems⟩ := h
    rcases List.mem_cons.mp hitem with rfl | hmem
    · exact ⟨other, List.mem_cons_self, hfirst⟩
    · obtain ⟨other', hother, hsame⟩ := ih hitems hmem
      exact ⟨other', List.mem_cons_of_mem _ hother, hsame⟩

/-- All that occurs in a value has its like in a value that is the same. -/
theorem Same.exists_of_occurs {value w : JsonValue} (hoccurs : Occurs value w) {other : JsonValue}
    (h : Same w other) : ∃ like, Occurs like other ∧ Same value like := by
  induction hoccurs generalizing other with
  | here => exact ⟨other, .here, h⟩
  | item hmem _ ih =>
    obtain ⟨others, rfl, hitems⟩ := h
    obtain ⟨item', hitem, hsame⟩ := hitems.exists_of_mem hmem
    obtain ⟨like, hlike, hsame⟩ := ih hsame
    exact ⟨like, .item hitem hlike, hsame⟩
  | member hmem _ ih =>
    obtain ⟨others, rfl, -, hmembers⟩ := h
    obtain ⟨other', hother, hsame⟩ := hmembers.exists_of_mem hmem
    obtain ⟨like, hlike, hsame⟩ := ih hsame
    exact ⟨like, .member hother hlike, hsame⟩

/-- A condition that holds of something in a value, and of all that is the same, holds of something
in every value that is the same. -/
lemma Same.any_walk {p : JsonValue → Bool} {value other : JsonValue} (h : Same value other)
    (hother : DistinctNames other)
    (hp : ∀ u u', Same u u' → DistinctNames u' → p u = true → p u' = true)
    (hany : value.walk.any p = true) : other.walk.any p = true := by
  obtain ⟨u, hu, hpu⟩ := List.any_eq_true.mp hany
  obtain ⟨like, hlike, hsame⟩ := h.exists_of_occurs (occurs_of_mem_walk value hu)
  exact List.any_eq_true.mpr ⟨like, hlike.mem_walk, hp u like hsame (hother.of_occurs hlike) hpu⟩

/-! ## Members by their names -/

lemma lookup_eq_some_of_nodup {members : List (JsString × JsonValue)}
    (h : (members.map Prod.fst).Nodup) {name : JsString} {value : JsonValue}
    (hmem : (name, value) ∈ members) : members.lookup name = some value := by
  induction members with
  | nil => exact absurd hmem List.not_mem_nil
  | cons m members ih =>
    obtain ⟨hfirst, hrest⟩ := List.nodup_cons.mp h
    rcases List.mem_cons.mp hmem with rfl | hmem
    · exact List.lookup_cons_self
    · have hne : name ≠ m.1 := fun heq => hfirst (heq ▸ List.mem_map_of_mem (f := Prod.fst) hmem)
      rw [List.lookup_cons, beq_false_of_ne hne]
      exact ih hrest hmem

/-- The members of one name are the same. -/
lemma Same.member {value other : JsonValue} (h : Same value other) (hother : DistinctNames other)
    {name : String} {u : JsonValue} (hu : value.member name = some u) :
    ∃ u', other.member name = some u' ∧ Same u u' := by
  cases value with
  | object members =>
    obtain ⟨others, rfl, -, hmembers⟩ := h
    obtain ⟨front, rest, rfl, -⟩ := List.lookup_eq_some_iff.mp hu
    have hmem : (JsString.lit name, u) ∈ front ++ (JsString.lit name, u) :: rest := by simp
    obtain ⟨u', hu', hsame⟩ := hmembers.exists_of_mem hmem
    exact ⟨u', lookup_eq_some_of_nodup (hother others (self_mem_walk _)) hu', hsame⟩
  | _ => cases hu

end JsonValue
