import FirecrawlGateway.Credits.CreditRouting

/-!
# What `reserve` hands out

Whatever the ledger answers and however the fields change meanwhile, a reservation is for one of
the keys of the call, under its own id, and never for an excluded one.
-/

namespace FirecrawlGateway
namespace CreditRouting

/-- The loop keeps only candidates. -/
lemma foldl_consider_subset (r : Routing) (now : ℤ) (cs : List Candidate) {b : Best}
    {all : List Candidate} (hb : b.best ⊆ all) (hcs : cs ⊆ all) :
    (cs.foldl (consider r now) b).best ⊆ all := by
  induction cs generalizing b with
  | nil => exact hb
  | cons c cs ih =>
    obtain ⟨hc, hcs⟩ := List.cons_subset.mp hcs
    refine ih ?_ hcs
    unfold consider
    dsimp only
    split_ifs
    · exact hb
    · exact List.cons_subset.mpr ⟨hc, List.nil_subset all⟩
    · exact List.append_subset.mpr ⟨hb, List.cons_subset.mpr ⟨hc, List.nil_subset all⟩⟩
    · exact hb

lemma reserveLocally_mem {r : Routing} {now : ℤ} {random : ℚ} {cs : List Candidate} {amount : ℤ}
    {reservation : CreditReservation}
    (h : (reserveLocally r now random cs amount).2 = some reservation) :
    reservation.toCandidate ∈ cs := by
  unfold reserveLocally at h
  dsimp only at h
  split at h
  · cases h
  · rename_i selected hpick
    cases h
    exact foldl_consider_subset r now cs (List.nil_subset cs) (List.Subset.refl cs)
      (List.mem_of_getElem? hpick)

/-- A candidate is a key of the call with its own id, and is not excluded. -/
lemma mem_candidates {keyId : String → String} {r : Routing} {now : ℤ} {apiKeys : List String}
    {excludedKeyIds : Finset String} {c : Candidate}
    (h : c ∈ candidates keyId r now apiKeys excludedKeyIds) :
    c.key ∈ apiKeys ∧ c.keyId = keyId c.key ∧ c.keyId ∉ excludedKeyIds := by
  unfold candidates at h
  have hfiltered := (List.mem_filter.mp h).1
  obtain ⟨hmap, hexcluded⟩ := List.mem_filter.mp hfiltered
  obtain ⟨key, hkey, rfl⟩ := List.mem_map.mp hmap
  exact ⟨hkey, rfl, of_decide_eq_true hexcluded⟩

/-- What `reserve` hands out is a key of the call that was not excluded. -/
theorem reserve_mem {keyId : String → String} {call : Surroundings} {apiKeys : List String}
    {amount : ℚ} {excludedKeyIds : Finset String} {reservation : CreditReservation}
    (h : (reserve keyId call apiKeys amount excludedKeyIds).2 = some reservation) :
    reservation.key ∈ apiKeys ∧ reservation.keyId = keyId reservation.key ∧
      reservation.keyId ∉ excludedKeyIds := by
  have hmem : reservation.toCandidate ∈
      candidates keyId call.before call.now apiKeys excludedKeyIds := by
    unfold reserve at h
    dsimp only at h
    split_ifs at h
    · split at h
      · split at h
        · rename_i selected hselected
          cases h
          exact List.mem_of_getElem? hselected
        · exact reserveLocally_mem h
      · cases h
      · exact reserveLocally_mem h
    · exact reserveLocally_mem h
  exact mem_candidates hmem

end CreditRouting
end FirecrawlGateway
