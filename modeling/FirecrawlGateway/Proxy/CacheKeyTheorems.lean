import FirecrawlGateway.Proxy.ResponseCache

/-!
# The text of a cache key

The three parts of the text that is hashed are separated by line breaks. The last one is JSON, which
is written on one line, and the first one is an id: so the text determines its parts.
-/

/-! ## Text on one line -/

def OneLine (text : List Char) : Prop := '\n' ∉ text

namespace OneLine

instance (text : List Char) : Decidable (OneLine text) := inferInstanceAs (Decidable (_ ∉ _))

lemma nil : OneLine [] := List.not_mem_nil

lemma cons {c : Char} {text : List Char} (hc : c ≠ '\n') (h : OneLine text) :
    OneLine (c :: text) := List.not_mem_cons_of_ne_of_not_mem hc.symm h

lemma append {s t : List Char} (hs : OneLine s) (ht : OneLine t) : OneLine (s ++ t) := by
  unfold OneLine at *
  rw [List.mem_append, not_or]
  exact ⟨hs, ht⟩

/-- What stands before the first line break. -/
lemma append_inj {s s' t t' : List Char} (hs : OneLine s) (hs' : OneLine s')
    (h : s ++ '\n' :: t = s' ++ '\n' :: t') : s = s' ∧ t = t' := by
  induction s generalizing s' with
  | nil =>
    cases s' with
    | nil => exact ⟨rfl, List.cons.inj h |>.2⟩
    | cons c s' =>
      have hc : '\n' = c := (List.cons.inj h).1
      exact absurd (hc ▸ List.mem_cons_self) hs'
  | cons c s ih =>
    cases s' with
    | nil =>
      have hc : c = '\n' := (List.cons.inj h).1
      exact absurd (hc ▸ List.mem_cons_self) hs
    | cons c' s' =>
      obtain ⟨hc, hrest⟩ := List.cons.inj h
      obtain ⟨hsame, htail⟩ := ih (fun hmem => hs (List.mem_cons_of_mem _ hmem))
        (fun hmem => hs' (List.mem_cons_of_mem _ hmem)) hrest
      rw [hc, hsame]
      exact ⟨rfl, htail⟩

lemma reverse {text : List Char} (h : OneLine text) : OneLine text.reverse := by
  unfold OneLine at *
  rwa [List.mem_reverse]

/-- What stands after the last line break. -/
lemma append_inj_right {s s' t t' : List Char} (ht : OneLine t) (ht' : OneLine t')
    (h : s ++ '\n' :: t = s' ++ '\n' :: t') : s = s' ∧ t = t' := by
  have hreverse := congrArg List.reverse h
  rw [List.reverse_append, List.reverse_append, List.reverse_cons, List.reverse_cons,
    List.append_assoc, List.append_assoc] at hreverse
  obtain ⟨htail, hrest⟩ := ht.reverse.append_inj ht'.reverse hreverse
  exact ⟨List.reverse_injective hrest, List.reverse_injective htail⟩

lemma intercalate {separator : List Char} {texts : List (List Char)} (hs : OneLine separator)
    (h : ∀ text ∈ texts, OneLine text) : OneLine (separator.intercalate texts) := by
  induction texts with
  | nil => exact nil
  | cons text texts ih =>
    have ih := ih fun t ht => h t (List.mem_cons_of_mem _ ht)
    have htext := h text List.mem_cons_self
    cases texts with
    | nil =>
      rw [List.intercalate_singleton]
      exact htext
    | cons next texts =>
      rw [List.intercalate_cons_cons]
      exact (htext.append hs).append ih

end OneLine

/-! ## JSON is on one line -/

namespace JsString

lemma digitChar_ne_newline {n : ℕ} (h : n < 16) : Nat.digitChar n ≠ '\n' := by
  have hall : ∀ n < 16, Nat.digitChar n ≠ '\n' := by decide
  exact hall n h

lemma oneLine_unicodeEscape (u : UInt16) : OneLine (unicodeEscape u) := by
  have hu := u.toNat_lt
  unfold unicodeEscape
  repeat' apply OneLine.cons
  · decide
  · decide
  · exact digitChar_ne_newline (by omega)
  · exact digitChar_ne_newline (by omega)
  · exact digitChar_ne_newline (by omega)
  · exact digitChar_ne_newline (by omega)
  · exact OneLine.nil

/-- Only the number of a line break is that of a line break. -/
lemma ofNat_ne_newline {n : ℕ} (h : n ≠ 10) : Char.ofNat n ≠ '\n' := by
  intro heq
  by_cases hvalid : n.isValidChar
  · rw [Char.ofNat, dif_pos hvalid] at heq
    have hnat : n = 10 := congrArg Char.toNat heq
    exact h hnat
  · rw [Char.ofNat, dif_neg hvalid] at heq
    exact absurd (congrArg Char.toNat heq) (by decide)

lemma oneLine_quoteUnit (u : UInt16) : OneLine (quoteUnit u) := by
  unfold quoteUnit
  split_ifs with _ _ hbreak
  -- the short escapes are closed texts
  all_goals first | decide | skip
  · exact oneLine_unicodeEscape u
  · apply OneLine.cons _ OneLine.nil
    apply ofNat_ne_newline
    intro hu
    apply hbreak
    exact UInt16.toNat_inj.mp hu

/-- A pair of surrogates is beyond the basic plane. -/
lemma pair_ne_newline (u v : UInt16) : pair u v ≠ '\n' := by
  apply ofNat_ne_newline
  omega

lemma oneLine_quoteUnits (s : JsString) : OneLine (quoteUnits s) := by
  induction s using quoteUnits.induct with
  | case1 => exact OneLine.nil
  | case2 u => exact oneLine_quoteUnit u
  | case3 u v s hpair ih =>
    rw [quoteUnits, if_pos hpair]
    exact OneLine.cons (pair_ne_newline u v) ih
  | case4 u v s hpair ih =>
    rw [quoteUnits, if_neg hpair]
    exact (oneLine_quoteUnit u).append ih

lemma oneLine_quote (s : JsString) : OneLine (quote s) := by
  unfold quote
  exact ((oneLine_quoteUnits s).append (by decide)).cons (by decide)

end JsString

namespace FirecrawlGateway
namespace Proxy

open JsString (oneLine_quote)

section CanonicalJson

variable {numberToString : ℚ → List Char}

lemma oneLine_stringifyNumber (h : ∀ q, OneLine (numberToString q)) (n : JsNumber) :
    OneLine (stringifyNumber numberToString n) := by
  cases n with
  | finite value => exact h value
  -- `-0` is written as `0`, and what is no JSON number as `null`
  | negativeZero =>
    show OneLine ['0']
    decide
  | infinite negative =>
    show OneLine "null".toList
    decide

lemma oneLine_canonicalMember {entry : JsString × List Char} (h : OneLine entry.2) :
    OneLine (canonicalMember entry) := by
  unfold canonicalMember
  exact (oneLine_quote _).append (h.cons (by decide))

mutual

/-- The text of a value is on one line if the texts of its numbers are. -/
lemma oneLine_canonicalJson : (value : JsonValue) →
    (h : ∀ n, .number n ∈ value.walk → OneLine (stringifyNumber numberToString n)) →
      OneLine (canonicalJson numberToString value)
  | .null, _ => by
    rw [canonicalJson]
    decide
  | .bool b, _ => by
    rw [canonicalJson]
    cases b <;> decide
  | .number n, h => by
    rw [canonicalJson]
    exact h n List.mem_cons_self
  | .string s, _ => by
    rw [canonicalJson]
    exact oneLine_quote s
  | .array items, h => by
    rw [canonicalJson]
    have hcomma : OneLine [','] := by decide
    have hitems := hcomma.intercalate
      (oneLine_canonicalItems items fun n hn => h n (List.mem_cons_of_mem _ hn))
    exact (hitems.append (by decide)).cons (by decide)
  | .object members, h => by
    rw [canonicalJson]
    have hmembers : ∀ text ∈ (sortMembers (canonicalMembers numberToString members)).map
        canonicalMember, OneLine text := by
      intro text htext
      obtain ⟨entry, hentry, rfl⟩ := List.mem_map.mp htext
      -- sorting keeps the members
      have hmem := (List.mem_insertionSort _).mp hentry
      exact oneLine_canonicalMember (oneLine_canonicalMembers members
        (fun n hn => h n (List.mem_cons_of_mem _ hn)) entry hmem)
    have hcomma : OneLine [','] := by decide
    have htexts := hcomma.intercalate hmembers
    exact (htexts.append (by decide)).cons (by decide)

lemma oneLine_canonicalItems : (items : List JsonValue) →
    (h : ∀ n, .number n ∈ JsonValue.walkItems items → OneLine (stringifyNumber numberToString n)) →
      ∀ text ∈ canonicalItems numberToString items, OneLine text
  | [], _ => by
    rw [canonicalItems]
    exact fun text htext => absurd htext List.not_mem_nil
  | item :: items, h => by
    rw [canonicalItems]
    exact List.forall_mem_cons.mpr
      ⟨oneLine_canonicalJson item fun n hn => h n (List.mem_append_left _ hn),
        oneLine_canonicalItems items fun n hn => h n (List.mem_append_right _ hn)⟩

lemma oneLine_canonicalMembers : (members : List (JsString × JsonValue)) →
    (h : ∀ n, .number n ∈ JsonValue.walkMembers members →
      OneLine (stringifyNumber numberToString n)) →
      ∀ entry ∈ canonicalMembers numberToString members, OneLine entry.2
  | [], _ => by
    rw [canonicalMembers]
    exact fun entry hentry => absurd hentry List.not_mem_nil
  | (key, item) :: members, h => by
    rw [canonicalMembers]
    exact List.forall_mem_cons.mpr
      ⟨oneLine_canonicalJson item fun n hn => h n (List.mem_append_left _ hn),
        oneLine_canonicalMembers members fun n hn => h n (List.mem_append_right _ hn)⟩

end

end CanonicalJson

/-! ## What a key stands for -/

/-- The text of a key has the JSON on its last line. -/
lemma keyText_eq_iff {numberToString : ℚ → List Char} {id id' url url' : String}
    {material material' : JsonValue} (hjson : OneLine (canonicalJson numberToString material))
    (hjson' : OneLine (canonicalJson numberToString material')) :
    keyText numberToString id url material = keyText numberToString id' url' material' ↔
      id.toList ++ '\n' :: url.toList = id'.toList ++ '\n' :: url'.toList ∧
        canonicalJson numberToString material = canonicalJson numberToString material' := by
  unfold keyText
  rw [← List.cons_append, ← List.append_assoc, ← List.cons_append, ← List.append_assoc]
  constructor
  · exact OneLine.append_inj_right hjson hjson'
  · rintro ⟨hlines, hsame⟩
    rw [hlines, hsame]

/-- The text of a key determines its parts. -/
lemma keyText_inj {numberToString : ℚ → List Char} (h : ∀ q, OneLine (numberToString q))
    {id id' url url' : String} (hid : OneLine id.toList) (hid' : OneLine id'.toList)
    {material material' : JsonValue}
    (heq : keyText numberToString id url material = keyText numberToString id' url' material') :
    id = id' ∧ url = url' ∧
      canonicalJson numberToString material = canonicalJson numberToString material' := by
  have hjson : ∀ value, OneLine (canonicalJson numberToString value) := fun value =>
    oneLine_canonicalJson value fun n _ => oneLine_stringifyNumber h n
  -- the id ends at the first line break
  obtain ⟨hlines, hsame⟩ := (keyText_eq_iff (hjson material) (hjson material')).mp heq
  obtain ⟨hids, hurls⟩ := hid.append_inj hid' hlines
  exact ⟨String.toList_injective hids, String.toList_injective hurls, hsame⟩

end Proxy
end FirecrawlGateway
