import FirecrawlGateway.Credits.CreditsUsedJson

/-!
# The scanner agrees with the JSON grammar

The recursion over the derivation of a text. `deep_value`, `deep_elements` and `deep_members`
follow the grammar inside a `Deep` position and report nothing; `metadata_members` walks a
`metadata` object and `root_members` the root object, member by member in document order.
-/

namespace FirecrawlGateway
namespace CreditsUsedScanner

open JsonText

/-! ## Members -/

/-- Everything of a member up to its value. -/
def nameBytes (before : Space) (key : StringToken) (afterKey beforeValue : Space) : List ℕ :=
  before.bytes ++ key.bytes ++ afterKey.bytes ++ 58 :: beforeValue.bytes

lemma feed_memberBytes (s : Scanner) (before : Space) (key : StringToken)
    (afterKey beforeValue : Space) (value : List ℕ) (after : Space) :
    feed s (memberBytes before key afterKey beforeValue value after) =
      feed (feed (feed s (nameBytes before key afterKey beforeValue)) value) after.bytes := by
  rw [memberBytes, feed_append, feed_append, nameBytes]

/-- The first member of several, then a comma, then the others and the closing brace. -/
lemma feed_members_cons (s : Scanner) (before : Space) (key : StringToken)
    (afterKey beforeValue : Space) (v : Value) (after : Space) (rest : Members) :
    feed s ((Members.cons before key afterKey beforeValue v after rest).bytes ++ [125]) =
      feed (feedByte (feed (feed (feed s (nameBytes before key afterKey beforeValue)) v.bytes)
        after.bytes) 44) (rest.bytes ++ [125]) := by
  rw [Members.bytes, List.append_assoc, List.cons_append, feed_append, feed_memberBytes, feed_cons]

/-- After a name and its separator the scanner waits for the value of that name. -/
lemma Ready.feed_name {s : Scanner} {d : Depths} (h : Ready s d) (before : Space)
    (key : StringToken) (afterKey beforeValue : Space) :
    AtValue (feed s (nameBytes before key afterKey beforeValue)) d (scannedKey key) := by
  obtain ⟨hl, hs, hk⟩ := (h.feed_ws before).feed_string key
  rw [nameBytes, feed_append, feed_append, feed_append, feed_cons]
  set t := feed (feed s before.bytes) key.bytes with ht
  rw [CreditsUsedScanner.feed_ws hl.found (Or.inl hs)]
  have hcolon : CreditsUsedScanner.feedByte t 58 = { t with state := .afterColon } := by
    apply feedByte_once hl.found
    simp [processByte, hs, processAfterKey, isJsonWhitespace]
  rw [hcolon]
  have hat : AtValue { t with state := .afterColon } d (scannedKey key) :=
    ⟨⟨hl.found, hl.calls, hl.escaped, hl.depths⟩, Or.inr ⟨rfl, hk⟩⟩
  exact hat.feed_ws beforeValue

/-- An empty object closes at the depths its opening brace led to. -/
lemma AtValue.feed_emptyObject {s : Scanner} {d : Depths} {key : Option (List Char)}
    (h : AtValue s d key) (ws : Space) :
    Ready (feed s (Value.emptyObject ws).bytes) ((openedObject d key).update 125) := by
  rw [Value.bytes, List.cons_append, feed_cons, feed_append, feed_cons, feed_nil]
  exact (h.openObject.feed_ws ws).feedByte (by decide)

lemma AtValue.feed_emptyArray {s : Scanner} {d : Depths} {key : Option (List Char)}
    (h : AtValue s d key) (ws : Space) : Ready (feed s (Value.emptyArray ws).bytes) d := by
  rw [Value.bytes, List.cons_append, feed_cons, feed_append, feed_cons, feed_nil]
  have := (h.openArray.feed_ws ws).feedByte (show 93 ≠ 34 by decide)
  rwa [update_array] at this

/-! ## Deep inside -/

lemma Deep.not_reportsHere {d : Depths} (h : Deep d) (key : Option (List Char)) :
    ¬ ReportsHere d key := by
  rintro ⟨-, hobject, harray⟩
  rcases h with ⟨hmo, -, -⟩ | ⟨hmo, hma, htwo, hdepth⟩
  · rw [hmo] at hobject
    cases hobject
  · rw [hmo, Option.some.injEq] at hobject
    rw [hma, Option.some.injEq] at harray
    omega

/-- No `metadata` is marked deep inside. -/
lemma Deep.openedObject {d : Depths} (h : Deep d) (key : Option (List Char)) :
    openedObject d key = d.update 123 := by
  refine if_neg fun hmark => ?_
  rcases h with ⟨-, -, hdepth⟩ | ⟨-, -, htwo, -⟩ <;> omega

/-- A value that ends with nothing to report, then a comma. -/
lemma AfterValue.feed_comma {s : Scanner} {d : Depths} (h : AfterValue s d none) :
    Ready (CreditsUsedScanner.feedByte s 44) d :=
  h.feedByte 44 (Or.inl rfl)

mutual

/-- No value deep inside reports anything. -/
theorem deep_value {d : Depths} (hd : Deep d) {s : Scanner} {key : Option (List Char)}
    (h : AtValue s d key) : (v : Value) → AfterValue (feed s v.bytes) d none
  | .literal l => (h.feed_literal l).afterValue
  | .number n => by
    have hnone : reportedNumber d key n = none := if_neg (hd.not_reportsHere key)
    exact hnone ▸ h.feed_number n
  | .string token => h.feed_string token
  | .emptyArray ws => (h.feed_emptyArray ws).afterValue
  | .array es => by
    have hinner := deep_elements (hd.update_open (Or.inr rfl)) h.openArray es
    rw [update_array] at hinner
    rw [Value.bytes, List.cons_append, feed_cons]
    exact hinner.afterValue
  | .emptyObject ws => by
    have hclosed := h.feed_emptyObject ws
    rw [hd.openedObject, hd.update_close] at hclosed
    exact hclosed.afterValue
  | .object ms => by
    have hopen := h.openObject
    rw [hd.openedObject] at hopen
    have hinner := deep_members (hd.update_open (Or.inl rfl)) hopen ms
    rw [hd.update_close] at hinner
    rw [Value.bytes, List.cons_append, feed_cons]
    exact hinner.afterValue

/-- The elements of an array deep inside, up to its closing bracket. -/
theorem deep_elements {d : Depths} (hd : Deep d) {s : Scanner} (h : Ready s d) :
    (es : Elements) → Ready (feed s (es.bytes ++ [93])) (d.update 93)
  | .last before v after => by
    have hv := (deep_value hd (h.feed_ws before).atValue v).feed_ws after
    rw [Elements.bytes, feed_append, feed_append, feed_append]
    exact hv.feedByte 93 (Or.inr (Or.inl rfl))
  | .cons before v after rest => by
    have hv := (deep_value hd (h.feed_ws before).atValue v).feed_ws after
    rw [Elements.bytes, List.append_assoc, List.cons_append, feed_append, feed_append, feed_append,
      feed_cons]
    exact deep_elements hd hv.feed_comma rest

/-- The members of an object deep inside, up to its closing brace. -/
theorem deep_members {d : Depths} (hd : Deep d) {s : Scanner} (h : Ready s d) :
    (ms : Members) → Ready (feed s (ms.bytes ++ [125])) (d.update 125)
  | .last before key afterKey beforeValue v after => by
    have hv := (deep_value hd (h.feed_name before key afterKey beforeValue) v).feed_ws after
    rw [Members.bytes, feed_append, feed_memberBytes]
    exact hv.feedByte 125 (Or.inr (Or.inr rfl))
  | .cons before key afterKey beforeValue v after rest => by
    have hv := (deep_value hd (h.feed_name before key afterKey beforeValue) v).feed_ws after
    rw [feed_members_cons]
    exact deep_members hd hv.feed_comma rest

end

/-- A container that opens on a deep position is passed over as a whole. -/
lemma AtValue.feed_array {s : Scanner} {d : Depths} {key : Option (List Char)}
    (h : AtValue s d key) (hd : Deep (d.update 91)) (es : Elements) :
    Ready (feed s (Value.array es).bytes) d := by
  have hinner := deep_elements hd h.openArray es
  rw [update_array] at hinner
  rwa [Value.bytes, List.cons_append, feed_cons]

lemma AtValue.feed_object {s : Scanner} {d : Depths} {key : Option (List Char)}
    (h : AtValue s d key) (hd : Deep (openedObject d key)) (ms : Members) :
    Ready (feed s (Value.object ms).bytes) ((openedObject d key).update 125) := by
  rw [Value.bytes, List.cons_append, feed_cons]
  exact deep_members hd h.openObject ms

/-! ## The `metadata` object -/

/-- Directly inside the root object. -/
def rootDepths : Depths := ⟨1, 0, none, none⟩

/-- Directly inside a `metadata` object. -/
def metadataDepths : Depths := ⟨2, 0, some 2, some 0⟩

lemma metadataDepths_close : metadataDepths.update 125 = rootDepths := by
  simp [metadataDepths, rootDepths, Depths.update]

/-- At a member of `metadata`, exactly the numbers of `creditsUsed` members are reported. -/
lemma reportedNumber_metadata (key : StringToken) (n : Number) :
    reportedNumber metadataDepths (scannedKey key) n = memberCredits (key, .number n) := by
  unfold reportedNumber memberCredits ReportsHere isNamed
  simp [scannedKey_eq_iff recognisable_creditsUsedKey, metadataDepths]

/-- A member of `metadata` leaves its `memberCredits` to report. -/
lemma metadata_value {s : Scanner} {key : StringToken}
    (h : AtValue s metadataDepths (scannedKey key)) (v : Value) :
    AfterValue (feed s v.bytes) metadataDepths (memberCredits (key, v)) := by
  have hmark : ∀ k, openedObject metadataDepths k = metadataDepths.update 123 := fun k =>
    if_neg (by simp [metadataDepths])
  have hopen : Deep (metadataDepths.update 123) :=
    Or.inr ⟨rfl, rfl, by simp [metadataDepths, Depths.update], by simp [metadataDepths, Depths.update]⟩
  have hclose : (metadataDepths.update 123).update 125 = metadataDepths := by
    simp [metadataDepths, Depths.update]
  have hnone : ∀ v, (∀ n, v ≠ .number n) → memberCredits (key, v) = none := by
    intro v hv
    unfold memberCredits
    split
    · split
      · rename_i n hn
        exact absurd hn (hv n)
      · rfl
    · rfl
  cases v with
  | literal l => exact hnone (.literal l) (by simp) ▸ (h.feed_literal l).afterValue
  | number n => exact reportedNumber_metadata key n ▸ h.feed_number n
  | string token => exact hnone (.string token) (by simp) ▸ h.feed_string token
  | emptyArray ws => exact hnone (.emptyArray ws) (by simp) ▸ (h.feed_emptyArray ws).afterValue
  | array es =>
    have hdeep : Deep (metadataDepths.update 91) :=
      Or.inr ⟨rfl, rfl, by simp [metadataDepths, Depths.update], by simp [metadataDepths, Depths.update]⟩
    exact hnone (.array es) (by simp) ▸ (h.feed_array hdeep es).afterValue
  | emptyObject ws =>
    have hclosed := h.feed_emptyObject ws
    rw [hmark, hclose] at hclosed
    exact hnone (.emptyObject ws) (by simp) ▸ hclosed.afterValue
  | object ms =>
    have hclosed := h.feed_object (by rw [hmark]; exact hopen) ms
    rw [hmark, hclose] at hclosed
    exact hnone (.object ms) (by simp) ▸ hclosed.afterValue

/-- A `metadata` object reports its first member with credits, up to its closing brace. -/
theorem metadata_members {s : Scanner} (h : Ready s metadataDepths) : (ms : Members) →
    Delimited (feed s (ms.bytes ++ [125])) rootDepths (ms.toList.findSome? memberCredits)
  | .last before key afterKey beforeValue v after => by
    have hv := (metadata_value (h.feed_name before key afterKey beforeValue) v).feed_ws after
    have hclosed := hv.feedByte 125 (Or.inr (Or.inr rfl))
    rw [metadataDepths_close] at hclosed
    rw [Members.bytes, feed_append, feed_memberBytes, Members.toList, List.findSome?_singleton]
    exact hclosed
  | .cons before key afterKey beforeValue v after rest => by
    have hv := (metadata_value (h.feed_name before key afterKey beforeValue) v).feed_ws after
    have hcomma := hv.feedByte 44 (Or.inl rfl)
    rw [feed_members_cons, Members.toList, List.findSome?_cons]
    cases hm : memberCredits (key, v) with
    | some x =>
      -- the comma reported it, and nothing after it counts
      rw [hm] at hcomma
      exact hcomma.feed _
    | none =>
      rw [hm] at hcomma
      exact metadata_members hcomma rest

/-! ## The root object -/

/-- What a root member contributes: the credits of its members, if it is `metadata`. -/
def rootCredits (m : StringToken × Value) : Option ℕ :=
  if isNamed metadataKey m then m.2.members.findSome? memberCredits else none

lemma findSome?_metadataMembers (root : List (StringToken × Value)) :
    (metadataMembers root).findSome? memberCredits = root.findSome? rootCredits := by
  induction root with
  | nil => rfl
  | cons m root ih =>
    unfold metadataMembers at ih ⊢
    rw [List.filter_cons, List.findSome?_cons, rootCredits]
    by_cases hm : isNamed metadataKey m = true
    · rw [if_pos hm, if_pos hm, List.flatMap_cons, List.findSome?_append, ih]
      cases m.2.members.findSome? memberCredits <;> rfl
    · rw [if_neg hm, if_neg hm, ih]

/-- Where the scanner stands after a root member's value: either it has reported the member's
credits, or it goes on. -/
def Reported (s : Scanner) (d : Depths) : Option ℕ → Prop
  | some v => Done s v
  | none => AfterValue s d none

lemma AfterValue.reported {s : Scanner} {d : Depths} (h : AfterValue s d none) {e : Option ℕ}
    (he : e = none) : Reported s d e := he ▸ h

lemma Reported.feed_ws {s : Scanner} {d : Depths} {e : Option ℕ} (h : Reported s d e)
    (ws : Space) : Reported (feed s ws.bytes) d e := by
  cases e with
  | some v => exact Done.feed h _
  | none => exact AfterValue.feed_ws h ws

lemma Reported.feedByte {s : Scanner} {d : Depths} {e : Option ℕ} (h : Reported s d e)
    (byte : ℕ) (hb : byte = 44 ∨ byte = 93 ∨ byte = 125) :
    Delimited (CreditsUsedScanner.feedByte s byte) (d.update byte) e := by
  cases e with
  | some v => exact Done.feed h [byte]
  | none => exact AfterValue.feedByte h byte hb

lemma Delimited.reported {s : Scanner} {d : Depths} {e : Option ℕ} (h : Delimited s d e) :
    Reported s d e := by
  cases e with
  | some v => exact h
  | none => exact Ready.afterValue h

lemma rootDepths_not_reportsHere (key : Option (List Char)) : ¬ ReportsHere rootDepths key := by
  rintro ⟨-, hobject, -⟩
  cases hobject

/-- An object that is the value of a root member. -/
lemma root_object {s : Scanner} {key : StringToken} (h : AtValue s rootDepths (scannedKey key))
    (ms : Members) :
    Reported (feed s (Value.object ms).bytes) rootDepths (rootCredits (key, .object ms)) := by
  have hname := scannedKey_eq_iff recognisable_metadataKey key
  by_cases hm : scannedKey key = some metadataKey
  · have hopen := h.openObject
    have hmark : openedObject rootDepths (scannedKey key) = metadataDepths :=
      if_pos ⟨hm, rfl, rfl⟩
    have hcredits : rootCredits (key, .object ms) = ms.toList.findSome? memberCredits :=
      if_pos (by simpa [isNamed] using hname.mp hm)
    rw [hmark] at hopen
    rw [hcredits, Value.bytes, List.cons_append, feed_cons]
    exact (metadata_members hopen ms).reported
  · -- under any other name the object is deep inside
    have hmark : openedObject rootDepths (scannedKey key) = rootDepths.update 123 :=
      if_neg fun hc => hm hc.1
    have hdeep : Deep (openedObject rootDepths (scannedKey key)) := by
      rw [hmark]
      exact Or.inl ⟨rfl, rfl, by simp [rootDepths, Depths.update]⟩
    have hclosed := h.feed_object hdeep ms
    rw [hmark] at hclosed
    have hcredits : rootCredits (key, .object ms) = none :=
      if_neg (by simpa [isNamed] using fun hc => hm (hname.mpr hc))
    exact hclosed.afterValue.reported hcredits

/-- The value of a root member. -/
lemma root_value {s : Scanner} {key : StringToken} (h : AtValue s rootDepths (scannedKey key))
    (v : Value) : Reported (feed s v.bytes) rootDepths (rootCredits (key, v)) := by
  have hnone : ∀ v : Value, v.members = [] → rootCredits (key, v) = none := by
    intro v hv
    simp [rootCredits, hv]
  cases v with
  | literal l => exact (h.feed_literal l).afterValue.reported (hnone _ rfl)
  | number n =>
    have hn := h.feed_number n
    rw [reportedNumber, if_neg (rootDepths_not_reportsHere _)] at hn
    exact hn.reported (hnone _ rfl)
  | string token => exact (h.feed_string token).reported (hnone _ rfl)
  | emptyArray ws => exact (h.feed_emptyArray ws).afterValue.reported (hnone _ rfl)
  | array es =>
    have hdeep : Deep (rootDepths.update 91) := Or.inl ⟨rfl, rfl, by simp [Depths.update]⟩
    exact (h.feed_array hdeep es).afterValue.reported (hnone _ rfl)
  | emptyObject ws =>
    -- closing an empty `metadata` object takes its mark away
    have hclosed := h.feed_emptyObject ws
    have hback : (openedObject rootDepths (scannedKey key)).update 125 = rootDepths := by
      unfold openedObject
      split <;> simp [rootDepths, Depths.update]
    rw [hback] at hclosed
    exact hclosed.afterValue.reported (hnone _ rfl)
  | object ms => exact root_object h ms

/-- The root object reports the first credits among its members, up to its closing brace. -/
theorem root_members {s : Scanner} (h : Ready s rootDepths) : (ms : Members) →
    Delimited (feed s (ms.bytes ++ [125])) (rootDepths.update 125)
      (ms.toList.findSome? rootCredits)
  | .last before key afterKey beforeValue v after => by
    have hv := (root_value (h.feed_name before key afterKey beforeValue) v).feed_ws after
    rw [Members.bytes, feed_append, feed_memberBytes, Members.toList, List.findSome?_singleton]
    exact hv.feedByte 125 (Or.inr (Or.inr rfl))
  | .cons before key afterKey beforeValue v after rest => by
    have hv := (root_value (h.feed_name before key afterKey beforeValue) v).feed_ws after
    have hcomma := hv.feedByte 44 (Or.inl rfl)
    rw [feed_members_cons, Members.toList, List.findSome?_cons]
    cases hm : rootCredits (key, v) with
    | some x =>
      rw [hm] at hcomma
      exact hcomma.feed _
    | none =>
      rw [hm] at hcomma
      exact root_members hcomma rest

/-! ## The whole text -/

/-- Outside every container. -/
def startDepths : Depths := ⟨0, 0, none, none⟩

lemma start_ready : Ready {} startDepths := ⟨⟨rfl, rfl, rfl, rfl⟩, rfl⟩

/-- The root value of a text. -/
lemma start_value {s : Scanner} (h : Ready s startDepths) (v : Value) :
    Reported (feed s v.bytes) startDepths ((metadataMembers v.members).findSome? memberCredits) := by
  rw [findSome?_metadataMembers]
  have hat := h.atValue
  have hmark : openedObject startDepths none = rootDepths := if_neg (by simp)
  have hclose : rootDepths.update 125 = startDepths := by
    simp [rootDepths, startDepths, Depths.update]
  cases v with
  | literal l => exact (hat.feed_literal l).afterValue.reported rfl
  | number n =>
    have hn := hat.feed_number n
    rw [reportedNumber, if_neg (by simp [ReportsHere])] at hn
    exact hn.reported rfl
  | string token => exact (hat.feed_string token).reported rfl
  | emptyArray ws => exact (hat.feed_emptyArray ws).afterValue.reported rfl
  | array es =>
    have hdeep : Deep (startDepths.update 91) := Or.inl ⟨rfl, rfl, by simp [Depths.update]⟩
    exact (hat.feed_array hdeep es).afterValue.reported rfl
  | emptyObject ws =>
    have hclosed := hat.feed_emptyObject ws
    rw [hmark, hclose] at hclosed
    exact hclosed.afterValue.reported rfl
  | object ms =>
    have hopen := hat.openObject
    rw [hmark] at hopen
    have hclosed := root_members hopen ms
    rw [hclose] at hclosed
    rw [Value.bytes, List.cons_append, feed_cons]
    exact hclosed.reported

lemma Reported.calls {s : Scanner} {d : Depths} {e : Option ℕ} (h : Reported s d e) :
    s.calls = e.toList := by
  cases e with
  | some v => exact h.2
  | none => exact h.1.calls

/-- On every JSON text, `onFound` is called exactly once with the first plain natural number
among the `creditsUsed` members of the root-level `metadata` objects, and never if there is
none. -/
theorem push_text_calls (t : Text) (body : List UInt8) (hbody : body.map UInt8.toNat = t.bytes) :
    (push {} body).calls = (textCredits t).toList ∧ extractCreditsUsed body = textCredits t := by
  have hroot := (start_value (start_ready.feed_ws t.before) t.root).feed_ws t.after
  have hcalls : (push {} body).calls = (textCredits t).toList := by
    rw [push_eq_feed, hbody, Text.bytes, feed_append, feed_append]
    exact hroot.calls
  refine ⟨hcalls, ?_⟩
  rw [extractCreditsUsed, hcalls]
  cases textCredits t <;> rfl

/-- A response body with seven credits. -/
def sampleBody : List UInt8 :=
  "\x7b\"metadata\": \x7b\"creditsUsed\":7\x7d\x7d".toList.map fun c => c.toNat.toUInt8

/-- The derivation of `sampleBody`. -/
def sampleText : Text :=
  ⟨[], .object (.last [] (plainToken metadataKey) [] [.space]
    (.object (.last [] (plainToken creditsUsedKey) [] []
      (.number ⟨false, .nonzero 6 [], none, none⟩) [])) []), []⟩

theorem push_text_calls_sample :
    (push {} sampleBody).calls = [7] ∧ extractCreditsUsed sampleBody = some 7 :=
  push_text_calls sampleText sampleBody (by decide)

end CreditsUsedScanner
end FirecrawlGateway
