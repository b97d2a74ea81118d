import Mathlib.Tactic

/-!
# Caches filled by the lookups they miss

A service that caches what its lookups find, and lets readers join a lookup in flight, must
forget both when the data changes. What its readers can meet is a `View`: a value in the cache,
or a request, which has an answer sooner or later. `Coherent` says that for one key all of it is
good, `Step` lists what a step may do to the view, and `Coherent.step` is the induction step.
-/

namespace ReadThrough

variable {κ ν : Type*}

/-- The cached values, the request in flight for a key, and the requests by number: the key of
each, and its answer once there is one. -/
structure View (κ ν : Type*) where
  cached : κ → Option ν
  inflight : κ → Option ℕ
  key : ℕ → Option κ
  answer : ℕ → Option ν

/-- What a reader has to go on: a value, or a request that it waits for. -/
inductive Lookup (ν : Type*)
  | value (x : ν)
  | request (n : ℕ)
deriving DecidableEq, Repr

/-- Request `n` is for this key, and its answer is good if there is one. -/
structure Serves (v : View κ ν) (k : κ) (Good : ν → Prop) (n : ℕ) : Prop where
  key : v.key n = some k
  answer : ∀ x, v.answer n = some x → Good x

def LookupGood (v : View κ ν) (k : κ) (Good : ν → Prop) : Lookup ν → Prop
  | .value x => Good x
  | .request n => Serves v k Good n

/-- A reader that starts now meets good values only. -/
structure Coherent (v : View κ ν) (k : κ) (Good : ν → Prop) : Prop where
  cached : ∀ x, v.cached k = some x → Good x
  inflight : ∀ n, v.inflight k = some n → Serves v k Good n

/-- A step, for one key: requests stay and get good answers only, a value comes into the cache
from the request in flight, and a request that comes in flight has no answer yet. -/
structure Step (v v' : View κ ν) (k : κ) (Good : ν → Prop) : Prop where
  key : ∀ n, v.key n = some k → v'.key n = some k
  answer : ∀ n x, v.key n = some k → v'.answer n = some x → v.answer n = some x ∨ Good x
  cached : ∀ x, v'.cached k = some x →
    v.cached k = some x ∨ ∃ n, v.inflight k = some n ∧ v.answer n = some x
  inflight : ∀ n, v'.inflight k = some n →
    v.inflight k = some n ∨ v'.key n = some k ∧ v'.answer n = none

variable {v v' : View κ ν} {k : κ} {Good Good' : ν → Prop} {n : ℕ}

/-- A step that leaves the requests alone and at most forgets. -/
lemma Step.of_forget (hkey : v'.key = v.key) (hanswer : v'.answer = v.answer)
    (hcached : ∀ x, v'.cached k = some x → v.cached k = some x)
    (hinflight : ∀ n, v'.inflight k = some n → v.inflight k = some n) :
    Step v v' k Good where
  key _ h := hkey ▸ h
  answer _ _ _ h := Or.inl (hanswer ▸ h)
  cached x h := Or.inl (hcached x h)
  inflight n h := Or.inl (hinflight n h)

lemma Step.refl (v : View κ ν) (k : κ) (Good : ν → Prop) : Step v v k Good :=
  .of_forget rfl rfl (fun _ h => h) fun _ h => h

lemma Serves.step (h : Serves v k Good n) (hs : Step v v' k Good')
    (hgood : ∀ x, Good x → Good' x) : Serves v' k Good' n where
  key := hs.key n h.key
  answer x hx := (hs.answer n x h.key hx).elim (fun hold => hgood x (h.answer x hold)) id

lemma LookupGood.step {l : Lookup ν} (h : LookupGood v k Good l) (hs : Step v v' k Good')
    (hgood : ∀ x, Good x → Good' x) : LookupGood v' k Good' l := by
  cases l with
  | value x => exact hgood x h
  | request n => exact Serves.step h hs hgood

/-- What is in flight stays good, whatever is cached. -/
lemma Step.serves (hs : Step v v' k Good')
    (h : ∀ n, v.inflight k = some n → Serves v k Good n) (hgood : ∀ x, Good x → Good' x) :
    ∀ n, v'.inflight k = some n → Serves v' k Good' n := by
  intro n hn
  rcases hs.inflight n hn with hold | ⟨hkey, hnone⟩
  · exact (h n hold).step hs hgood
  · refine ⟨hkey, fun x hx => ?_⟩
    rw [hnone] at hx
    cases hx

theorem Coherent.step (h : Coherent v k Good) (hs : Step v v' k Good')
    (hgood : ∀ x, Good x → Good' x) : Coherent v' k Good' where
  cached x hx := by
    rcases hs.cached x hx with hold | ⟨n, hn, hanswer⟩
    · exact hgood x (h.cached x hold)
    · exact hgood x ((h.inflight n hn).answer x hanswer)
  inflight := hs.serves h.inflight hgood

/-- What a reader that starts now may be given without a new request: a cached value, or the answer
to the request in flight. -/
def Holds (v : View κ ν) (k : κ) (x : ν) : Prop :=
  v.cached k = some x ∨ ∃ n, v.inflight k = some n ∧ v.answer n = some x

/-- Nothing is cached or in flight. -/
lemma Coherent.of_forgotten (hcached : v.cached k = none) (hinflight : v.inflight k = none) :
    Coherent v k Good where
  cached x hx := by
    rw [hcached] at hx
    cases hx
  inflight n hn := by
    rw [hinflight] at hn
    cases hn

end ReadThrough
