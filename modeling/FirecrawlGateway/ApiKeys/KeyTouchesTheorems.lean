import FirecrawlGateway.ApiKeys.KeyTouches

/-!
# A key in use is not revoked for inactivity

A touch that returns either wrote the last use of its key or found one in the tracker that is less
than a minute old and was written. While the database takes touches in the order of their times,
`lastUsedAt` is never more than a minute behind, so that the inactivity step leaves a key alone that
was touched a minute past its threshold.
-/

namespace FirecrawlGateway
namespace KeyTouches

open CronService (ApiKeyRow inactive inactivityThreshold)

variable {ι : Type} [DecidableEq ι] {s s' : Fleet ι}

/-! ## The tracker -/

/-- What is recorded is the new time, or was there. -/
lemma recordTouch_get {tracker : JsMap String ℤ} {id key : String} {timestamp last : ℤ}
    (h : (recordTouch tracker id timestamp).get key = some last) :
    key = id ∧ last = timestamp ∨ tracker.get key = some last := by
  unfold recordTouch at h
  dsimp only at h
  by_cases hkey : key = id
  · rw [hkey, JsMap.get_set_self] at h
    cases h
    exact Or.inl ⟨hkey, rfl⟩
  · rw [JsMap.get_set_of_ne hkey] at h
    refine Or.inr ?_
    split_ifs at h
    · exact JsMap.get_delete_some h
    · split at h
      · split_ifs at h
        · exact JsMap.get_delete_some h
        · exact h
      · exact h
    · exact h

/-! ## Last uses -/

/-- The row of a key says that it was used at `t` or later. -/
def UsedSince (s : Fleet ι) (id : String) (t : ℤ) : Prop :=
  ∃ row last, s.rows id = some row ∧ row.lastUsedAt = some last ∧ t ≤ last

/-- No later use of the key was written yet. -/
def OnTime (s : Fleet ι) : Touch → Prop
  | .sent id now => ∀ row ∈ s.rows id, ∀ last ∈ row.lastUsedAt, last ≤ now
  | _ => True

instance (s : Fleet ι) : (touch : Touch) → Decidable (OnTime s touch)
  | .sent id now =>
    inferInstanceAs (Decidable (∀ row ∈ s.rows id, ∀ last ∈ row.lastUsedAt, last ≤ now))
  | .taken _ _ => isTrue trivial
  | .returned => isTrue trivial
  | .threw => isTrue trivial

/-- The database takes touches of a key in the order of their times. -/
def InOrder (s : Fleet ι) : Event ι → Prop
  | .takes i call => ∀ touch ∈ s.calls i call, OnTime s touch
  | _ => True

omit [DecidableEq ι] in
lemma UsedSince.mono {id : String} {t t' : ℤ} (h : UsedSince s id t) (hle : t' ≤ t) :
    UsedSince s id t' := by
  obtain ⟨row, last, hrow, hlast, ht⟩ := h
  exact ⟨row, last, hrow, hlast, hle.trans ht⟩

omit [DecidableEq ι] in
/-- A row is replaced by one that was used no earlier. -/
lemma UsedSince.setRow {id id' : String} {t : ℤ} {row : ApiKeyRow} (h : UsedSince s id t)
    (hrow : ∀ old ∈ s.rows id', ∀ last ∈ old.lastUsedAt, ∃ last', row.lastUsedAt = some last' ∧
      last ≤ last') : UsedSince (s.setRow id' row) id t := by
  obtain ⟨old, last, hold, hlast, ht⟩ := h
  by_cases hid : id = id'
  · obtain ⟨last', hlast', hle⟩ := hrow old (hid ▸ hold) last hlast
    refine ⟨row, last', ?_, hlast', ht.trans hle⟩
    rw [hid]
    exact Function.update_self ..
  · exact ⟨old, last, (Function.update_of_ne hid ..).trans hold, hlast, ht⟩

/-- No step makes the last use of a key earlier. -/
lemma step_used {e : Event ι} (horder : InOrder s e) (hstep : step s e = some s') {id : String}
    {t : ℤ} (h : UsedSince s id t) : UsedSince s' id t := by
  cases e with
  | touchApiKey i call id' now =>
    simp only [step] at hstep
    split_ifs at hstep
    cases hstep
    unfold touchApiKey
    split
    · split_ifs
      · exact h
      · exact h
    · exact h
  | takes i call =>
    simp only [step] at hstep
    split at hstep
    · rename_i id' now hcall
      obtain ⟨row, hrow, rfl⟩ := Option.map_eq_some_iff.mp hstep
      exact h.setRow fun old hold last hlast => ⟨now, rfl, horder _ hcall old hold last hlast⟩
    · cases hstep
  | returns i call =>
    simp only [step] at hstep
    split at hstep
    · cases hstep
      exact h
    · cases hstep
  | rejects i call =>
    simp only [step] at hstep
    split at hstep
    · cases hstep
      exact h
    · cases hstep
      exact h
    · cases hstep
  | createApiKey row =>
    simp only [step] at hstep
    split_ifs at hstep with hnone
    cases hstep
    refine h.setRow fun old hold => ?_
    rw [hnone] at hold
    cases hold
  | revokeApiKey id' =>
    obtain ⟨row, hrow, rfl⟩ := Option.map_eq_some_iff.mp hstep
    refine h.setRow fun old hold last hlast => ⟨last, ?_, le_rfl⟩
    rw [hrow] at hold
    cases hold
    exact hlast
  | revokeInactiveKeys now value =>
    simp only [step] at hstep
    split at hstep
    · rename_i threshold _
      cases hstep
      obtain ⟨row, last, hrow, hlast, ht⟩ := h
      refine ⟨sweepRow threshold row, last, ?_, ?_, ht⟩
      · dsimp only
        rw [hrow, Option.map_some]
      · unfold sweepRow
        split_ifs
        · exact hlast
        · exact hlast
    · cases hstep
      exact h

/-! ## Touches -/

/-- What the tracker has was written, and what returned was written or is less than a minute past
such a write. -/
structure Sound (s : Fleet ι) : Prop where
  tracked : ∀ i id last, (s.trackers i).get id = some last → UsedSince s id last
  taken : ∀ i call id now, s.calls i call = some (.taken id now) → UsedSince s id now
  uses : ∀ use ∈ s.uses, UsedSince s use.1 (use.2 - touchDebounceMs + 1)

omit [DecidableEq ι] in
lemma sound_start (rows : String → Option ApiKeyRow) : Sound ({ rows := rows } : Fleet ι) where
  tracked _ _ _ h := absurd h.symm (Option.some_ne_none _)
  taken _ _ _ _ h := absurd h.symm (Option.some_ne_none _)
  uses _ h := absurd h List.not_mem_nil

omit [DecidableEq ι] in
/-- A step that changes rows only. -/
lemma Sound.rows (h : Sound s) {rows : String → Option ApiKeyRow}
    (hused : ∀ id t, UsedSince s id t → UsedSince { s with rows := rows } id t) :
    Sound { s with rows := rows } where
  tracked i id last hget := hused id last (h.tracked i id last hget)
  taken i call id now hcall := hused id now (h.taken i call id now hcall)
  uses use huse := hused _ _ (h.uses use huse)

lemma Sound.setCall (h : Sound s) {i : ι} {call : ℕ} {touch : Touch}
    (htouch : ∀ id now, touch = .taken id now → UsedSince s id now) :
    Sound (s.setCall i call touch) where
  tracked := h.tracked
  taken j c id now hcall := by
    have hupdate : Function.update s.calls i (Function.update (s.calls i) call (some touch)) j c =
      some (.taken id now) := hcall
    by_cases hj : j = i
    · rw [hj, Function.update_self] at hupdate
      by_cases hc : c = call
      · rw [hc, Function.update_self] at hupdate
        exact htouch id now (Option.some.inj hupdate)
      · rw [Function.update_of_ne hc] at hupdate
        exact h.taken i c id now hupdate
    · rw [Function.update_of_ne hj] at hupdate
      exact h.taken j c id now hupdate
  uses := h.uses

lemma Sound.record (h : Sound s) (i : ι) (call : ℕ) {id : String} {last used : ℤ}
    (hlast : UsedSince s id last) (hrecent : used - last < touchDebounceMs) :
    Sound (s.record i call id last used) where
  tracked j key t hget := by
    have hupdate : (Function.update s.trackers i (recordTouch (s.trackers i) id last) j).get key =
      some t := hget
    by_cases hj : j = i
    · rw [hj, Function.update_self] at hupdate
      rcases recordTouch_get hupdate with ⟨rfl, rfl⟩ | hold
      · exact hlast
      · exact h.tracked i key t hold
    · rw [Function.update_of_ne hj] at hupdate
      exact h.tracked j key t hupdate
  taken := by
    have hcalls : Sound (s.setCall i call .returned) := h.setCall fun _ _ => Touch.noConfusion
    exact hcalls.taken
  uses use huse := by
    rcases List.mem_cons.mp huse with rfl | huse
    · have hlag : used - touchDebounceMs + 1 ≤ last := by omega
      exact hlast.mono hlag
    · exact h.uses use huse

lemma step_sound {e : Event ι} (h : Sound s) (horder : InOrder s e)
    (hstep : step s e = some s') : Sound s' := by
  have hused : ∀ id t, UsedSince s id t → UsedSince s' id t :=
    fun id t => step_used horder hstep
  cases e with
  | touchApiKey i call id now =>
    simp only [step] at hstep
    split_ifs at hstep
    cases hstep
    unfold touchApiKey
    have hsent : Sound (s.setCall i call (.sent id now)) := h.setCall fun _ _ => Touch.noConfusion
    split
    · rename_i last hlast
      split_ifs with hrecent
      · exact h.record i call (h.tracked i id last hlast) hrecent.2
      · exact hsent
    · exact hsent
  | takes i call =>
    simp only [step] at hstep
    split at hstep
    · rename_i id now hcall
      obtain ⟨row, hrow, rfl⟩ := Option.map_eq_some_iff.mp hstep
      have hrows : Sound (s.setRow id { row with lastUsedAt := some now }) := h.rows hused
      refine hrows.setCall fun id' now' htaken => ?_
      cases htaken
      exact ⟨_, now, Function.update_self .., rfl, le_rfl⟩
    · cases hstep
  | returns i call =>
    simp only [step] at hstep
    split at hstep
    · rename_i id now hcall
      cases hstep
      refine h.record i call (h.taken i call id now hcall) ?_
      rw [sub_self]
      exact (by decide : (0 : ℤ) < touchDebounceMs)
    · cases hstep
  | rejects i call =>
    have hthrew : Sound (s.setCall i call .threw) := h.setCall fun _ _ => Touch.noConfusion
    simp only [step] at hstep
    split at hstep
    · cases hstep
      exact hthrew
    · cases hstep
      exact hthrew
    · cases hstep
  | createApiKey row =>
    simp only [step] at hstep
    split_ifs at hstep
    cases hstep
    exact h.rows hused
  | revokeApiKey id =>
    obtain ⟨row, hrow, rfl⟩ := Option.map_eq_some_iff.mp hstep
    exact h.rows hused
  | revokeInactiveKeys now value =>
    simp only [step] at hstep
    split at hstep
    · cases hstep
      exact h.rows hused
    · cases hstep
      exact h

/-! ## Sweeps -/

/-- Nobody revokes the key, and at every inactivity step it was touched a minute past the threshold
or is younger than that. -/
def InUse (id : String) (s : Fleet ι) : Event ι → Prop
  | .revokeApiKey id' => id' ≠ id
  | .revokeInactiveKeys now value => ∀ threshold ∈ (inactivityThreshold now value).join,
      (∃ use ∈ s.uses, use.1 = id ∧ threshold + touchDebounceMs ≤ use.2) ∨
        ∃ row ∈ s.rows id, threshold ≤ row.createdAt
  | _ => True

instance (id : String) (s : Fleet ι) : (e : Event ι) → Decidable (InOrder s e ∧ InUse id s e)
  | .touchApiKey .. => isTrue ⟨trivial, trivial⟩
  | .takes i call =>
    inferInstanceAs (Decidable ((∀ touch ∈ s.calls i call, OnTime s touch) ∧ True))
  | .returns .. => isTrue ⟨trivial, trivial⟩
  | .rejects .. => isTrue ⟨trivial, trivial⟩
  | .createApiKey _ => isTrue ⟨trivial, trivial⟩
  | .revokeApiKey id' => inferInstanceAs (Decidable (True ∧ id' ≠ id))
  | .revokeInactiveKeys now value => inferInstanceAs (Decidable (True ∧
      ∀ threshold ∈ (inactivityThreshold now value).join, _))

/-- The key is there and not revoked. -/
def Live (s : Fleet ι) (id : String) : Prop := ∃ row, s.rows id = some row ∧ row.revoked = false

omit [DecidableEq ι] in
lemma Live.setRow {id id' : String} {row : ApiKeyRow} (h : Live s id)
    (hrow : id = id' → row.revoked = false) : Live (s.setRow id' row) id := by
  by_cases hid : id = id'
  · refine ⟨row, ?_, hrow hid⟩
    rw [hid]
    exact Function.update_self ..
  · obtain ⟨old, hold, hlive⟩ := h
    exact ⟨old, (Function.update_of_ne hid ..).trans hold, hlive⟩

lemma step_live {e : Event ι} {id : String} (hs : Sound s) (h : Live s id) (huse : InUse id s e)
    (hstep : step s e = some s') : Live s' id := by
  cases e with
  | touchApiKey i call id' now =>
    simp only [step] at hstep
    split_ifs at hstep
    cases hstep
    unfold touchApiKey
    split
    · split_ifs
      · exact h
      · exact h
    · exact h
  | takes i call =>
    simp only [step] at hstep
    split at hstep
    · obtain ⟨row, hrow, rfl⟩ := Option.map_eq_some_iff.mp hstep
      refine h.setRow fun hid => ?_
      obtain ⟨old, hold, hlive⟩ := h
      rw [hid, hrow] at hold
      cases hold
      exact hlive
    · cases hstep
  | returns i call =>
    simp only [step] at hstep
    split at hstep
    · cases hstep
      exact h
    · cases hstep
  | rejects i call =>
    simp only [step] at hstep
    split at hstep
    · cases hstep
      exact h
    · cases hstep
      exact h
    · cases hstep
  | createApiKey row =>
    simp only [step] at hstep
    split_ifs at hstep with hnone
    cases hstep
    refine h.setRow fun hid => ?_
    obtain ⟨old, hold, -⟩ := h
    rw [hid, hnone] at hold
    cases hold
  | revokeApiKey id' =>
    obtain ⟨row, hrow, rfl⟩ := Option.map_eq_some_iff.mp hstep
    exact h.setRow fun hid => absurd hid.symm huse
  | revokeInactiveKeys now value =>
    simp only [step] at hstep
    split at hstep
    · rename_i threshold hthreshold
      cases hstep
      obtain ⟨row, hrow, hlive⟩ := h
      have hactive : inactive threshold row = false := by
        have hjoin : threshold ∈ (inactivityThreshold now value).join := by
          rw [hthreshold]
          rfl
        rcases huse threshold hjoin with ⟨use, hused, hid, hlate⟩ | ⟨row', hrow', hyoung⟩
        · -- the last use is less than a minute before the touch
          obtain ⟨row', last, hrow', hlast, hle⟩ := hs.uses use hused
          rw [hid, hrow] at hrow'
          cases hrow'
          have hafter : ¬ last < threshold := by omega
          unfold inactive
          rw [hlast, Option.all_some, decide_eq_false hafter, Bool.and_false]
        · rw [hrow] at hrow'
          cases hrow'
          unfold inactive
          rw [decide_eq_false (not_lt.mpr hyoung), Bool.and_false, Bool.false_and]
      refine ⟨row, ?_, hlive⟩
      dsimp only
      rw [hrow, Option.map_some]
      unfold sweepRow
      rw [if_neg (by rw [hactive]; exact Bool.false_ne_true)]
    · cases hstep
      exact h

/-- A key is used twice within a minute, so that the second use is not written, and a day later the
inactivity step has a threshold of one day. -/
def usedTwice : List (Event Unit) :=
  [.touchApiKey () 0 "k" 1767312000000, .takes () 0, .returns () 0,
    .touchApiKey () 1 "k" 1767312059999, .revokeInactiveKeys 1767398399999 (some "1")]

def usedRow : ApiKeyRow := ⟨"k", false, 0, none⟩

end KeyTouches
end FirecrawlGateway
