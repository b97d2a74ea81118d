import Mathlib.Tactic

/-!
# JavaScript maps

A `Map` keeps its keys in insertion order: `set` on a key that is there replaces the value in
place, `set` on a new key appends it. A `JsMap` carries the proof that its keys are distinct,
and every operation is described by what it does to `get`.
-/

/-- A `Map` from `κ` to `ν`. -/
structure JsMap (κ ν : Type*) where
  entries : List (κ × ν)
  nodup : (entries.map Prod.fst).Nodup

namespace JsMap

variable {κ ν : Type*} [DecidableEq κ]

/-! ## Operations -/

/-- `new Map()`. -/
def empty : JsMap κ ν := ⟨[], List.nodup_nil⟩

instance : EmptyCollection (JsMap κ ν) := ⟨empty⟩

def get (m : JsMap κ ν) (k : κ) : Option ν := (m.entries.find? (·.1 = k)).map Prod.snd

def has (m : JsMap κ ν) (k : κ) : Bool := (m.get k).isSome

def size (m : JsMap κ ν) : ℕ := m.entries.length

/-- `keys().next().value`. -/
def firstKey (m : JsMap κ ν) : Option κ := m.entries.head?.map Prod.fst

/-- `[...values()]`. -/
def values (m : JsMap κ ν) : List ν := m.entries.map Prod.snd

def delete (m : JsMap κ ν) (k : κ) : JsMap κ ν where
  entries := m.entries.filter (·.1 ≠ k)
  nodup := m.nodup.sublist (List.filter_sublist.map Prod.fst)

/-- The entries after `set`. -/
def setEntries (m : JsMap κ ν) (k : κ) (v : ν) : List (κ × ν) :=
  if k ∈ m.entries.map Prod.fst then m.entries.map fun e => if e.1 = k then (k, v) else e
  else m.entries ++ [(k, v)]

lemma setEntries_nodup (m : JsMap κ ν) (k : κ) (v : ν) :
    ((m.setEntries k v).map Prod.fst).Nodup := by
  unfold setEntries
  split
  · have hkeys : (m.entries.map fun e => if e.1 = k then (k, v) else e).map Prod.fst =
        m.entries.map Prod.fst := by
      rw [List.map_map]
      refine List.map_congr_left fun e _ => ?_
      by_cases he : e.1 = k <;> simp [he]
    rw [hkeys]
    exact m.nodup
  · -- the new key is none of the old ones
    rename_i hk
    rw [List.map_append, List.nodup_append]
    exact ⟨m.nodup, by simp, by rintro a ha b hb rfl; simp at hb; exact hk (hb ▸ ha)⟩

def set (m : JsMap κ ν) (k : κ) (v : ν) : JsMap κ ν := ⟨m.setEntries k v, m.setEntries_nodup k v⟩

/-! ## Lookups -/

/-- The entries are the graph of `get`. -/
lemma mem_entries {m : JsMap κ ν} {k : κ} {v : ν} : (k, v) ∈ m.entries ↔ m.get k = some v := by
  unfold get
  rw [Option.map_eq_some_iff]
  constructor
  · intro hmem
    cases hfind : m.entries.find? (·.1 = k) with
    | none =>
      have := List.find?_eq_none.mp hfind _ hmem
      simp at this
    | some e =>
      have hk : e.1 = k := by simpa using List.find?_some hfind
      have := List.inj_on_of_nodup_map m.nodup (List.mem_of_find?_eq_some hfind) hmem hk
      exact ⟨e, rfl, by rw [this]⟩
  · rintro ⟨e, hfind, rfl⟩
    have hk : e.1 = k := by simpa using List.find?_some hfind
    exact hk ▸ List.mem_of_find?_eq_some hfind

/-- A map is determined by its entries, and a lookup by membership. -/
lemma get_eq_of_mem_iff {m m' : JsMap κ ν} {k k' : κ}
    (h : ∀ v, (k, v) ∈ m.entries ↔ (k', v) ∈ m'.entries) : m.get k = m'.get k' := by
  ext v
  rw [← mem_entries, ← mem_entries]
  exact h v

@[simp] lemma get_delete_self (m : JsMap κ ν) (k : κ) : (m.delete k).get k = none := by
  rw [Option.eq_none_iff_forall_ne_some]
  intro v hv
  rw [← mem_entries] at hv
  simp [delete] at hv

@[simp] lemma get_delete_of_ne {m : JsMap κ ν} {k k' : κ} (h : k' ≠ k) :
    (m.delete k).get k' = m.get k' :=
  get_eq_of_mem_iff fun v => by simp [delete, h]

lemma get_delete_some {m : JsMap κ ν} {k k' : κ} {v : ν} (h : (m.delete k).get k' = some v) :
    m.get k' = some v := by
  by_cases hk : k' = k
  · simp [hk] at h
  · rwa [get_delete_of_ne hk] at h

@[simp] lemma get_set_self (m : JsMap κ ν) (k : κ) (v : ν) : (m.set k v).get k = some v := by
  rw [← mem_entries]
  show (k, v) ∈ m.setEntries k v
  unfold setEntries
  split
  · rename_i hk
    obtain ⟨e, he, hek⟩ := List.mem_map.mp hk
    exact List.mem_map.mpr ⟨e, he, if_pos hek⟩
  · simp

@[simp] lemma get_set_of_ne {m : JsMap κ ν} {k k' : κ} (h : k' ≠ k) (v : ν) :
    (m.set k v).get k' = m.get k' := by
  refine get_eq_of_mem_iff fun w => ?_
  show (k', w) ∈ m.setEntries k v ↔ _
  unfold setEntries
  split
  · simp only [List.mem_map]
    constructor
    · rintro ⟨e, he, heq⟩
      by_cases hek : e.1 = k
      · rw [if_pos hek] at heq
        exact absurd (Prod.mk.inj heq).1.symm h
      · rw [if_neg hek] at heq
        exact heq ▸ he
    · intro hmem
      exact ⟨(k', w), hmem, if_neg h⟩
  · simp [h]

/-! ## Entries -/

omit [DecidableEq κ] in
lemma ext_entries {m m' : JsMap κ ν} (h : m.entries = m'.entries) : m = m' := by
  cases m
  cases m'
  cases h
  rfl

/-- A new key goes to the end. -/
lemma entries_set_of_not_mem {m : JsMap κ ν} {k : κ} (h : k ∉ m.entries.map Prod.fst) (v : ν) :
    (m.set k v).entries = m.entries ++ [(k, v)] := by
  show m.setEntries k v = _
  unfold setEntries
  rw [if_neg h]

/-- Every value is replaced by one made of it and its key. -/
def mapValues (f : κ → ν → ν) (m : JsMap κ ν) : JsMap κ ν where
  entries := m.entries.map fun e => (e.1, f e.1 e.2)
  nodup := by
    rw [List.map_map]
    exact m.nodup

omit [DecidableEq κ] in
lemma mapValues_keys (f : κ → ν → ν) (m : JsMap κ ν) :
    (m.mapValues f).entries.map Prod.fst = m.entries.map Prod.fst := List.map_map

lemma mapValues_set (f : κ → ν → ν) (m : JsMap κ ν) (k : κ) (v : ν) :
    (m.set k v).mapValues f = (m.mapValues f).set k (f k v) := by
  apply ext_entries
  show (m.setEntries k v).map _ = (m.mapValues f).setEntries k (f k v)
  unfold setEntries
  rw [mapValues_keys]
  split_ifs
  · show _ = (m.entries.map _).map _
    rw [List.map_map, List.map_map]
    refine List.map_congr_left fun e _ => ?_
    by_cases he : e.1 = k <;> simp [he]
  · rw [List.map_append]
    rfl

/-- What `set` overwrites makes no difference. -/
lemma set_mapValues {f : κ → ν → ν} {k : κ} (h : ∀ k' ≠ k, ∀ v, f k' v = v) (m : JsMap κ ν)
    (v : ν) : (m.mapValues f).set k v = m.set k v := by
  apply ext_entries
  show (m.mapValues f).setEntries k v = m.setEntries k v
  unfold setEntries
  rw [mapValues_keys]
  split_ifs with hk
  · show (m.entries.map _).map _ = _
    rw [List.map_map]
    refine List.map_congr_left fun e _ => ?_
    by_cases he : e.1 = k
    · simp [he]
    · simp [he, h e.1 he]
  · show m.entries.map _ ++ _ = _
    congr 1
    refine (List.map_congr_left fun e he => ?_).trans (List.map_id _)
    -- no key of the map is `k`
    have hne : e.1 ≠ k := fun heq => hk (heq ▸ List.mem_map_of_mem he)
    rw [h e.1 hne]
    rfl

end JsMap
