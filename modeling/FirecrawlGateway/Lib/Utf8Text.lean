import FirecrawlGateway.Lib.JsonRoundTrip

/-!
# JavaScript strings in UTF-8

The bytes of a string, as `Buffer.from` has them: a lone surrogate is written as U+FFFD. There are at
least as many bytes as code units, and as many only where the string is ASCII.
-/

namespace JsString

/-- `Buffer.from(s)`. -/
def toUtf8 (s : JsString) : List UInt8 := (toChars s).flatMap String.utf8EncodeChar

def isAscii (u : UInt16) : Bool := u < 0x80

/-! ## Characters -/

lemma toNat_single_of_isAscii {u : UInt16} (h : isAscii u = true) :
    (single u).toNat = u.toNat ∧ u.toNat < 128 := by
  have hlt : u.toNat < 128 := UInt16.lt_iff_toNat_lt.mp (of_decide_eq_true h)
  have hsurrogate : ¬(0xD800 ≤ u ∧ u ≤ 0xDFFF) := fun hu => by
    have hle : 55296 ≤ u.toNat := UInt16.le_iff_toNat_le.mp hu.1
    omega
  rw [single, if_neg hsurrogate]
  exact ⟨(JsonReader.utf16_ofNat hsurrogate).1, hlt⟩

lemma le_toNat_single {u : UInt16} (h : isAscii u = false) : 128 ≤ (single u).toNat := by
  have hle : 128 ≤ u.toNat := by
    have hnot : ¬u < 0x80 := of_decide_eq_false h
    rw [UInt16.lt_iff_toNat_lt] at hnot
    exact not_lt.mp hnot
  by_cases hsurrogate : 0xD800 ≤ u ∧ u ≤ 0xDFFF
  · rw [single, if_pos hsurrogate]
    decide
  · rw [single, if_neg hsurrogate, (JsonReader.utf16_ofNat hsurrogate).1]
    exact hle

/-- The number of bytes of a character, by its number. -/
lemma utf8Size_eq (c : Char) : c.utf8Size =
    if c.toNat ≤ 127 then 1 else if c.toNat ≤ 2047 then 2 else if c.toNat ≤ 65535 then 3 else 4 := by
  simp only [Char.utf8Size, UInt32.le_iff_toNat_le]
  rfl

/-- A unit of its own has one byte where it is ASCII, and more where it is not. -/
lemma encode_single {u : UInt16} (h : isAscii u = true) :
    String.utf8EncodeChar (single u) = [u.toUInt8] := by
  obtain ⟨hnat, hlt⟩ := toNat_single_of_isAscii h
  have hval : (single u).val.toNat = u.toNat := hnat
  rw [String.utf8EncodeChar, hval, if_pos (Nat.le_of_lt_succ hlt)]
  rfl

lemma two_le_length_single {u : UInt16} (h : isAscii u = false) :
    2 ≤ (String.utf8EncodeChar (single u)).length := by
  have hle := le_toNat_single h
  rw [String.length_utf8EncodeChar, utf8Size_eq, if_neg (by omega)]
  split_ifs <;> omega

lemma length_pair {u v : UInt16} (h : 0xD800 ≤ u ∧ u ≤ 0xDBFF ∧ 0xDC00 ≤ v ∧ v ≤ 0xDFFF) :
    (String.utf8EncodeChar (pair u v)).length = 4 ∧ isAscii u = false := by
  have hlarge := (JsonReader.utf16_pair h).1
  refine ⟨?_, decide_eq_false fun hlt => ?_⟩
  · rw [String.length_utf8EncodeChar, utf8Size_eq, if_neg (by omega), if_neg (by omega),
      if_neg (by omega)]
  · have hu : 55296 ≤ u.toNat := UInt16.le_iff_toNat_le.mp h.1
    have hlt' : u.toNat < 128 := UInt16.lt_iff_toNat_lt.mp hlt
    omega

/-! ## Strings -/

/-- A string has as many bytes as code units where it is ASCII, and more where it is not. -/
theorem length_toUtf8 (s : JsString) :
    s.length ≤ (toUtf8 s).length ∧ ((toUtf8 s).length = s.length ↔ s.all isAscii = true) := by
  induction s using toChars.induct with
  | case1 => simp [toUtf8, toChars]
  | case2 u =>
    rw [toUtf8, toChars, List.flatMap_singleton, List.all_cons, List.all_nil, Bool.and_true,
      List.length_singleton]
    cases hascii : isAscii u with
    | true =>
      rw [encode_single hascii]
      exact ⟨le_rfl, fun _ => rfl, fun _ => rfl⟩
    | false =>
      have hu := two_le_length_single hascii
      exact ⟨by omega, fun h => by omega, fun h => absurd h Bool.false_ne_true⟩
  | case3 u v s hpair ih =>
    obtain ⟨hfour, hascii⟩ := length_pair hpair
    obtain ⟨hle, -⟩ := ih
    rw [toUtf8] at hle ⊢
    rw [toChars, if_pos hpair, List.flatMap_cons, List.length_append, hfour, List.all_cons, hascii,
      Bool.false_and, List.length_cons, List.length_cons]
    exact ⟨by omega, fun h => by omega, fun h => absurd h Bool.false_ne_true⟩
  | case4 u v s hpair ih =>
    obtain ⟨hle, hiff⟩ := ih
    rw [toUtf8] at hle hiff ⊢
    rw [toChars, if_neg hpair, List.flatMap_cons, List.length_append, List.all_cons,
      Bool.and_eq_true, List.length_cons, ← hiff]
    cases hascii : isAscii u with
    | true =>
      rw [encode_single hascii, List.length_singleton]
      exact ⟨by omega, fun h => ⟨rfl, by omega⟩, fun h => by omega⟩
    | false =>
      have hu := two_le_length_single hascii
      exact ⟨by omega, fun h => by omega, fun h => absurd h.1 Bool.false_ne_true⟩

/-- The bytes of an ASCII string are its units. -/
lemma toUtf8_of_ascii {s : JsString} (h : s.all isAscii = true) :
    toUtf8 s = s.map UInt16.toUInt8 := by
  induction s using toChars.induct with
  | case1 => rfl
  | case2 u =>
    rw [toUtf8, toChars, List.flatMap_singleton, encode_single (by simpa using h)]
    rfl
  | case3 u v s hpair _ =>
    rw [List.all_cons, (length_pair hpair).2] at h
    exact absurd h Bool.false_ne_true
  | case4 u v s hpair ih =>
    rw [List.all_cons, Bool.and_eq_true] at h
    rw [toUtf8] at ih ⊢
    rw [toChars, if_neg hpair, List.flatMap_cons, encode_single h.1, ih h.2]
    rfl

/-- ASCII strings with the same bytes are equal. -/
lemma toUtf8_inj {s t : JsString} (hs : s.all isAscii = true) (ht : t.all isAscii = true)
    (h : toUtf8 s = toUtf8 t) : s = t := by
  have hback : ∀ r : JsString, r.all isAscii = true →
      (r.map UInt16.toUInt8).map UInt8.toUInt16 = r := by
    intro r hr
    rw [List.map_map]
    refine (List.map_congr_left fun u hu => ?_).trans (List.map_id r)
    have hlt : u.toNat < 128 :=
      UInt16.lt_iff_toNat_lt.mp (of_decide_eq_true (List.all_eq_true.mp hr u hu))
    refine UInt16.toNat_inj.mp ?_
    simp only [Function.comp_apply, UInt16.toUInt16_toUInt8, UInt16.toNat_mod, UInt16.reduceToNat,
      id_eq]
    omega
  rw [toUtf8_of_ascii hs, toUtf8_of_ascii ht] at h
  rw [← hback s hs, h, hback t ht]

end JsString
