import FirecrawlGateway.Lib.Utf8Text

/-!
# ASCII text as a JavaScript string

A text is a list of characters, and a JavaScript string one of code units. A string is in the units
of an ASCII text exactly when its characters are in the text.
-/

namespace JsString

open JsonReader (utf16)

def IsAsciiText (t : List Char) : Prop := ∀ c ∈ t, c.toNat < 128

instance (t : List Char) : Decidable (IsAsciiText t) :=
  List.decidableBAll (fun c : Char => c.toNat < 128) t

/-! ## Characters of a string -/

/-- Units that are no pair are characters of their own. -/
lemma toChars_cons {u : UInt16} {s : JsString}
    (h : ∀ v ∈ s.head?, ¬(0xD800 ≤ u ∧ u ≤ 0xDBFF ∧ 0xDC00 ≤ v ∧ v ≤ 0xDFFF)) :
    toChars (u :: s) = single u :: toChars s := by
  cases s with
  | nil => rfl
  | cons v s => rw [toChars, if_neg (h v rfl)]

/-- A unit below the surrogates is a character of its own. -/
lemma toChars_cons_of_lt {u : UInt16} (hu : u < 0xD800) (s : JsString) :
    toChars (u :: s) = single u :: toChars s :=
  toChars_cons fun _ _ h => absurd h.1 (UInt16.not_le.mpr hu)

lemma toChars_append {s : JsString} {v : UInt16} (hv : v < 0xD800) (r : JsString) :
    toChars (s ++ v :: r) = toChars s ++ toChars (v :: r) := by
  have hlow : ¬(0xDC00 ≤ v) := fun h => absurd (UInt16.lt_of_le_of_lt h hv) (by decide)
  induction s using toChars.induct with
  | case1 => rfl
  | case2 u =>
    rw [List.singleton_append, toChars_cons]
    · rfl
    · rintro v' ⟨⟩ h
      exact hlow h.2.2.1
  | case3 u u' s hpair ih =>
    rw [List.cons_append, List.cons_append, toChars, if_pos hpair, ih, toChars, if_pos hpair]
    rfl
  | case4 u u' s hpair ih =>
    rw [List.cons_append, List.cons_append, toChars, if_neg hpair, toChars, if_neg hpair,
      List.cons_append, ← ih]
    rfl

/-! ## ASCII -/

lemma utf16_of_lt {c : Char} (h : c.toNat < 128) : utf16 c = [c.toNat.toUInt16] :=
  if_pos (by omega)

lemma toNat_unit {c : Char} (h : c.toNat < 128) : c.toNat.toUInt16.toNat = c.toNat := by
  rw [Nat.toUInt16, UInt16.toNat_ofNat']
  exact Nat.mod_eq_of_lt (by omega)

lemma isAscii_unit {c : Char} (h : c.toNat < 128) : isAscii c.toNat.toUInt16 = true := by
  refine decide_eq_true (UInt16.lt_iff_toNat_lt.mpr ?_)
  rw [toNat_unit h]
  exact h

lemma single_unit {c : Char} (h : c.toNat < 128) : single c.toNat.toUInt16 = c := by
  have hnat := (toNat_single_of_isAscii (isAscii_unit h)).1
  rw [toNat_unit h] at hnat
  exact Char.toNat_inj.mp hnat

/-- What the first 128 units have, every ASCII unit has. -/
lemma forall_ascii {p : UInt16 → Prop} (h : ∀ n < 128, p n.toUInt16) {u : UInt16}
    (hu : u < 0x80) : p u := by
  have hnat : u.toNat.toUInt16 = u := UInt16.toNat_inj.mp (by simp)
  exact hnat ▸ h u.toNat (UInt16.lt_iff_toNat_lt.mp hu)

lemma isDigit_lt {u : UInt16} (h : isDigit u = true) : u < 0x80 := by
  obtain ⟨-, hle⟩ := Bool.and_eq_true_iff.mp h
  exact UInt16.lt_of_le_of_lt (of_decide_eq_true hle) (by decide)

/-- An ASCII character is that of one unit. -/
lemma single_eq_iff {u : UInt16} {c : Char} (h : c.toNat < 128) :
    single u = c ↔ u = c.toNat.toUInt16 := by
  constructor
  · rintro rfl
    have hascii : isAscii u = true := by
      by_contra hnot
      have := le_toNat_single (Bool.not_eq_true _ ▸ hnot)
      omega
    rw [(toNat_single_of_isAscii hascii).1]
    exact UInt16.toNat_inj.mp (by simp)
  · rintro rfl
    exact single_unit h

lemma isAscii_lt {u : UInt16} (h : isAscii u = true) : u < 0xD800 :=
  UInt16.lt_trans (of_decide_eq_true h) (by decide)

lemma units_of_ascii {t : List Char} (h : IsAsciiText t) :
    t.flatMap utf16 = t.map fun c => c.toNat.toUInt16 := by
  induction t with
  | nil => rfl
  | cons c t ih =>
    rw [List.flatMap_cons, utf16_of_lt (h c List.mem_cons_self),
      ih fun d hd => h d (List.mem_cons_of_mem _ hd)]
    rfl

lemma all_isAscii_units {t : List Char} (h : IsAsciiText t) :
    (t.flatMap utf16).all isAscii = true := by
  rw [units_of_ascii h, List.all_map, List.all_eq_true]
  exact fun c hc => isAscii_unit (h c hc)

/-- An ASCII text is read back from its units. -/
lemma toChars_units {t : List Char} (h : IsAsciiText t) : toChars (t.flatMap utf16) = t := by
  rw [units_of_ascii h]
  induction t with
  | nil => rfl
  | cons c t ih =>
    have hc := h c List.mem_cons_self
    rw [List.map_cons, toChars_cons_of_lt (isAscii_lt (isAscii_unit hc)), single_unit hc,
      ih fun d hd => h d (List.mem_cons_of_mem _ hd)]

lemma utf16_single {u : UInt16} (h : (single u).toNat < 128) : utf16 (single u) = [u] := by
  rw [utf16_of_lt h, ← (single_eq_iff h).mp rfl]

/-- A string with ASCII characters is their units. -/
lemma units_toChars {s : JsString} (h : IsAsciiText (toChars s)) :
    (toChars s).flatMap utf16 = s := by
  induction s using toChars.induct with
  | case1 => rfl
  | case2 u =>
    rw [toChars, List.flatMap_singleton]
    exact utf16_single (h _ List.mem_cons_self)
  | case3 u v s hpair _ =>
    rw [toChars, if_pos hpair] at h
    have hlarge := (JsonReader.utf16_pair hpair).1
    have := h _ List.mem_cons_self
    omega
  | case4 u v s hpair ih =>
    rw [toChars, if_neg hpair] at h ⊢
    rw [List.flatMap_cons, utf16_single (h _ List.mem_cons_self),
      ih fun c hc => h c (List.mem_cons_of_mem _ hc)]
    rfl

lemma toChars_eq_iff {s : JsString} {t : List Char} (h : IsAsciiText t) :
    toChars s = t ↔ s = t.flatMap utf16 := by
  constructor
  · rintro rfl
    exact (units_toChars h).symm
  · rintro rfl
    exact toChars_units h

/-- A string is found in the units of an ASCII text where its characters are found in the text. -/
theorem infix_units_iff {s : JsString} {t : List Char} (h : IsAsciiText t) :
    s <:+: t.flatMap utf16 ↔ toChars s <:+: t := by
  constructor
  · rintro ⟨a, b, heq⟩
    rw [units_of_ascii h] at heq
    obtain ⟨as, bs, rfl, has, -⟩ := List.map_eq_append_iff.mp heq.symm
    obtain ⟨as', ss, rfl, -, rfl⟩ := List.map_eq_append_iff.mp has
    have hss : IsAsciiText ss := fun c hc => h c (by simp [hc])
    rw [← units_of_ascii hss, toChars_units hss]
    exact ⟨as', bs, rfl⟩
  · intro hin
    have hs : IsAsciiText (toChars s) := fun c hc => h c (hin.subset hc)
    obtain ⟨a, b, rfl⟩ := hin
    refine ⟨a.flatMap utf16, b.flatMap utf16, ?_⟩
    rw [List.flatMap_append, List.flatMap_append, units_toChars hs]

/-! ## Joined texts -/

section

variable {α β : Type*} {separator : List α} {texts : List (List α)}

lemma forall_mem_intercalate {p : α → Prop} (hseparator : ∀ a ∈ separator, p a)
    (h : ∀ text ∈ texts, ∀ a ∈ text, p a) : ∀ a ∈ List.intercalate separator texts, p a := by
  induction texts with
  | nil => exact fun _ ha => absurd ha List.not_mem_nil
  | cons text texts ih =>
    have htail := ih fun t ht => h t (List.mem_cons_of_mem _ ht)
    intro a ha
    cases texts with
    | nil =>
      rw [List.intercalate_singleton] at ha
      exact h text List.mem_cons_self a ha
    | cons text' texts =>
      rw [List.intercalate_cons_cons, List.mem_append, List.mem_append] at ha
      rcases ha with (ha | ha) | ha
      · exact h text List.mem_cons_self a ha
      · exact hseparator a ha
      · exact htail a ha

/-- What keeps texts in a row keeps joined ones. -/
lemma map_intercalate {f : List α → List β} (hnil : f [] = [])
    (happend : ∀ l l', f (l ++ l') = f l ++ f l') :
    f (List.intercalate separator texts) = List.intercalate (f separator) (texts.map f) := by
  induction texts with
  | nil => exact hnil
  | cons text texts ih =>
    cases texts with
    | nil => rw [List.intercalate_singleton, List.map_singleton, List.intercalate_singleton]
    | cons text' texts =>
      rw [List.map_cons] at ih
      rw [List.intercalate_cons_cons, happend, happend, ih, List.map_cons, List.map_cons,
        List.intercalate_cons_cons]

end

/-! ## Lower case -/

lemma toLower_ascii {c : Char} (h : c.toNat < 128) :
    c.toLower.toNat < 128 ∧ c.toLower.toNat.toUInt16 = asciiLower c.toNat.toUInt16 ∧
      (c.toLower.toNat = 0 → c.toNat = 0) := by
  have hall : ∀ n < 128, (Char.ofNat n).toLower.toNat < 128 ∧
      (Char.ofNat n).toLower.toNat.toUInt16 = asciiLower (Char.ofNat n).toNat.toUInt16 ∧
      ((Char.ofNat n).toLower.toNat = 0 → (Char.ofNat n).toNat = 0) := by decide
  simpa [Char.ofNat_toNat] using hall c.toNat h

lemma IsAsciiText.toLower {t : List Char} (h : IsAsciiText t) :
    IsAsciiText (t.map Char.toLower) := by
  intro c hc
  obtain ⟨d, hd, rfl⟩ := List.mem_map.mp hc
  exact (toLower_ascii (h d hd)).1

/-- The units of a text in lower case. -/
lemma units_toLower {t : List Char} (h : IsAsciiText t) :
    (t.map Char.toLower).flatMap utf16 = (t.flatMap utf16).map asciiLower := by
  rw [units_of_ascii h, units_of_ascii h.toLower, List.map_map, List.map_map]
  exact List.map_congr_left fun c hc => (toLower_ascii (h c hc)).2.1

lemma toLowerCase_of_ascii {s : JsString} (h : s.all isAscii = true) :
    toLowerCase s = s.map asciiLower := by
  rw [toLowerCase, List.map_eq_flatMap]
  refine List.flatMap_congr fun u hu => ?_
  have hlt : u < 0x80 := of_decide_eq_true (List.all_eq_true.mp h u hu)
  have hkelvin : u ≠ 0x212A := by
    rintro rfl
    exact absurd hlt (by decide)
  have hdotted : u ≠ 0x0130 := by
    rintro rfl
    exact absurd hlt (by decide)
  rw [if_neg hkelvin, if_neg hdotted]

end JsString
