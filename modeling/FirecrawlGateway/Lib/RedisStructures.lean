import Mathlib.Tactic

/-!
# Redis counters and sorted sets

The two Redis structures whose commands have more to them than a record update: a counter, on
which `HINCRBY` fails unless it holds an integer, and a sorted set. A `SortedSet` carries its
own well-formedness: members are distinct, and `ZRANGE` order is the order of the entries.
-/

namespace Redis

/-! ## Counters -/

/-- `HINCRBY field increment`; a missing field counts as zero. The command fails on a field or
an increment that is not an integer, and then changes nothing. -/
def hincrby (field : Option ℚ) (increment : ℚ) : Option ℚ :=
  if (field.getD 0).isInt ∧ increment.isInt then some (field.getD 0 + increment) else none

lemma hincrby_eq_some {field : Option ℚ} {increment value : ℚ}
    (h : hincrby field increment = some value) : value = field.getD 0 + increment := by
  unfold hincrby at h
  split at h
  · exact (Option.some.inj h).symm
  · cases h

lemma isInt_iff {x : ℚ} : x.isInt = true ↔ ∃ n : ℤ, x = n := by
  refine ⟨fun h => ⟨x.num, Rat.eq_num_of_isInt h⟩, ?_⟩
  rintro ⟨n, rfl⟩
  simp [Rat.isInt]

/-- What `HINCRBY` leaves is an integer. -/
lemma hincrby_isInt {field : Option ℚ} {increment value : ℚ}
    (h : hincrby field increment = some value) : value.isInt = true := by
  unfold hincrby at h
  split at h
  · rename_i hint
    obtain ⟨⟨n, hn⟩, ⟨m, hm⟩⟩ := hint.imp isInt_iff.mp isInt_iff.mp
    rw [← Option.some.inj h]
    exact isInt_iff.mpr ⟨n + m, by rw [hn, hm]; push_cast; rfl⟩
  · cases h

/-- On integers the command succeeds. -/
lemma hincrby_int (field increment : ℤ) :
    hincrby (some (field : ℚ)) (increment : ℚ) = some ((field + increment : ℤ) : ℚ) := by
  unfold hincrby
  rw [if_pos ⟨isInt_iff.mpr ⟨field, rfl⟩, isInt_iff.mpr ⟨increment, rfl⟩⟩, Option.getD_some]
  push_cast
  rfl

/-! ## Sorted sets -/

/-- A sorted set of `α`: its members with their scores, in `ZRANGE` order. -/
structure SortedSet (α : Type*) where
  entries : List (α × ℕ)
  nodup : (entries.map Prod.fst).Nodup
  sorted : entries.Pairwise (fun a b => a.2 ≤ b.2)

namespace SortedSet

variable {α : Type*}

/-- A key that does not exist. -/
def empty : SortedSet α := ⟨[], List.nodup_nil, List.Pairwise.nil⟩

@[simp] lemma mem_empty {a : α} {q : ℕ} : (a, q) ∉ (empty : SortedSet α).entries := List.not_mem_nil

variable [DecidableEq α]

/-- The entries of other members. -/
def others (s : SortedSet α) (m : α) : List (α × ℕ) := s.entries.filter (·.1 ≠ m)

lemma mem_others {s : SortedSet α} {m a : α} {q : ℕ} :
    (a, q) ∈ s.others m ↔ (a, q) ∈ s.entries ∧ a ≠ m := by
  simp [others]

lemma others_nodup (s : SortedSet α) (m : α) : ((s.others m).map Prod.fst).Nodup :=
  s.nodup.sublist (List.filter_sublist.map Prod.fst)

lemma others_sorted (s : SortedSet α) (m : α) : (s.others m).Pairwise (fun a b => a.2 ≤ b.2) :=
  s.sorted.sublist List.filter_sublist

/-- `ZREM`. -/
def zrem (s : SortedSet α) (m : α) : SortedSet α :=
  ⟨s.others m, s.others_nodup m, s.others_sorted m⟩

/-- `ZADD score m`. -/
def zadd (s : SortedSet α) (score : ℕ) (m : α) : SortedSet α where
  entries := (s.others m).orderedInsert (fun a b => a.2 ≤ b.2) (m, score)
  nodup := by
    have hperm := (List.perm_orderedInsert (fun a b : α × ℕ => a.2 ≤ b.2) (m, score)
      (s.others m)).map Prod.fst
    rw [hperm.nodup_iff, List.map_cons, List.nodup_cons]
    refine ⟨fun hm => ?_, s.others_nodup m⟩
    obtain ⟨⟨a, q⟩, hmem, rfl⟩ := List.mem_map.mp hm
    exact (mem_others.mp hmem).2 rfl
  sorted := by
    have : Std.Total (fun a b : α × ℕ => a.2 ≤ b.2) := ⟨fun a b => le_total a.2 b.2⟩
    have : IsTrans (α × ℕ) (fun a b => a.2 ≤ b.2) := ⟨fun a b c => le_trans⟩
    exact (s.others_sorted m).orderedInsert (m, score) _

/-- `ZRANGE 0 -1`. -/
def zrange (s : SortedSet α) : List α := s.entries.map Prod.fst

/-- The members, as a set. -/
def members (s : SortedSet α) : Finset α := s.zrange.toFinset

@[simp] lemma members_empty : (empty : SortedSet α).members = ∅ := rfl

lemma mem_members {s : SortedSet α} {a : α} : a ∈ s.members ↔ ∃ q, (a, q) ∈ s.entries := by
  simp [members, zrange]

lemma mem_zrem {s : SortedSet α} {m a : α} {q : ℕ} :
    (a, q) ∈ (s.zrem m).entries ↔ (a, q) ∈ s.entries ∧ a ≠ m := mem_others

lemma mem_zadd {s : SortedSet α} {m a : α} {score q : ℕ} :
    (a, q) ∈ (s.zadd score m).entries ↔ (a = m ∧ q = score) ∨ ((a, q) ∈ s.entries ∧ a ≠ m) := by
  rw [zadd, List.mem_orderedInsert, Prod.mk.injEq, mem_others]

lemma members_zrem (s : SortedSet α) (m : α) : (s.zrem m).members = s.members.erase m := by
  ext a
  simp only [mem_members, mem_zrem, Finset.mem_erase]
  tauto

lemma members_zadd (s : SortedSet α) (score : ℕ) (m : α) :
    (s.zadd score m).members = insert m s.members := by
  ext a
  simp only [mem_members, mem_zadd, Finset.mem_insert]
  constructor
  · rintro ⟨q, ⟨ha, -⟩ | ⟨ha, -⟩⟩
    · exact Or.inl ha
    · exact Or.inr ⟨q, ha⟩
  · rintro (ha | ⟨q, hq⟩)
    · exact ⟨score, Or.inl ⟨ha, rfl⟩⟩
    · by_cases ha : a = m
      · exact ⟨score, Or.inl ⟨ha, rfl⟩⟩
      · exact ⟨q, Or.inr ⟨hq, ha⟩⟩

/-- A sum over `ZRANGE` is a sum over the members. -/
lemma sum_zrange {M : Type*} [AddCommMonoid M] (s : SortedSet α) (f : α → M) :
    (s.zrange.map f).sum = ∑ a ∈ s.members, f a :=
  (List.sum_toFinset f s.nodup).symm

end SortedSet

end Redis
