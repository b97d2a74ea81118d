import FirecrawlGateway.Lib.NumberText

/-!
# What is written is read back

A text of `stringify` is read back as the value it was made from, if that has no number that is
written as another one: then `stringify` is injective, and `parse` gives the value with its
properties.
-/

namespace JsonReader

open NumberText (IsJsNumber)

/-! ## Strings -/

lemma hexDigit_digitChar {n : ℕ} (h : n < 16) : hexDigit (Nat.digitChar n) = some n := by
  have hall : ∀ n : Fin 16, hexDigit (Nat.digitChar n) = some n.val := by decide
  exact hall ⟨n, h⟩

/-- The digits of an escape are those of the code unit. -/
lemma unicodeUnit_digits (u : UInt16) :
    unicodeUnit (Nat.digitChar (u.toNat / 0x1000)) (Nat.digitChar (u.toNat / 0x100 % 0x10))
      (Nat.digitChar (u.toNat / 0x10 % 0x10)) (Nat.digitChar (u.toNat % 0x10)) = some u := by
  have hu : u.toNat < 65536 := u.toNat_lt
  unfold unicodeUnit
  rw [hexDigit_digitChar (by omega), hexDigit_digitChar (by omega), hexDigit_digitChar (by omega),
    hexDigit_digitChar (by omega)]
  have hsum : u.toNat / 0x1000 * 0x1000 + u.toNat / 0x100 % 0x10 * 0x100 +
      u.toNat / 0x10 % 0x10 * 0x10 + u.toNat % 0x10 = u.toNat := by omega
  show some (UInt16.ofNat _) = some u
  rw [hsum, UInt16.ofNat_toNat]

lemma readString_escape {e : Char} {u : UInt16} (he : escapedUnit e = some u) (cs : List Char) :
    readString ('\\' :: e :: cs) = (readString cs).map fun r => (u :: r.1, r.2) := by
  have hu : e ≠ 'u' := by
    rintro rfl
    cases he
  rw [readString.eq_def]
  simp [hu, he]

lemma readString_unicodeEscape (u : UInt16) (cs : List Char) :
    readString (JsString.unicodeEscape u ++ cs) =
      (readString cs).map fun r => (u :: r.1, r.2) := by
  have hdigits := unicodeUnit_digits u
  unfold JsString.unicodeEscape
  rw [readString.eq_def]
  simp only [List.cons_append, List.nil_append]
  simp [hdigits]

lemma readString_plain {c : Char} (hquote : c ≠ '"') (hbackslash : c ≠ '\\')
    (hcontrol : 0x20 ≤ c.toNat) (cs : List Char) :
    readString (c :: cs) = (readString cs).map fun r => (utf16 c ++ r.1, r.2) := by
  rw [readString.eq_def]
  simp [hquote, hbackslash, hcontrol]

lemma toNat_ofNat {n : ℕ} (h : n.isValidChar) : (Char.ofNat n).toNat = n := by
  rw [Char.ofNat, dif_pos h]
  rfl

/-- A code unit that is a character on its own. -/
lemma utf16_ofNat {u : UInt16} (h : ¬(0xD800 ≤ u ∧ u ≤ 0xDFFF)) :
    (Char.ofNat u.toNat).toNat = u.toNat ∧ utf16 (Char.ofNat u.toNat) = [u] := by
  have hu : u.toNat < 65536 := u.toNat_lt
  have hvalid : u.toNat.isValidChar := by
    rw [UInt16.le_iff_toNat_le, UInt16.le_iff_toNat_le] at h
    change ¬(55296 ≤ u.toNat ∧ u.toNat ≤ 57343) at h
    unfold Nat.isValidChar
    omega
  have hnat : (Char.ofNat u.toNat).toNat = u.toNat := toNat_ofNat hvalid
  refine ⟨hnat, ?_⟩
  unfold utf16
  rw [hnat, if_pos (by omega)]
  exact congrArg (fun x => [x]) UInt16.ofNat_toNat

/-- A surrogate pair. -/
lemma utf16_pair {u v : UInt16}
    (h : 0xD800 ≤ u ∧ u ≤ 0xDBFF ∧ 0xDC00 ≤ v ∧ v ≤ 0xDFFF) :
    0x10000 ≤ (JsString.pair u v).toNat ∧ utf16 (JsString.pair u v) = [u, v] := by
  simp only [UInt16.le_iff_toNat_le] at h
  change 55296 ≤ u.toNat ∧ u.toNat ≤ 56319 ∧ 56320 ≤ v.toNat ∧ v.toNat ≤ 57343 at h
  have hvalid : (0x10000 + (u.toNat - 0xD800) * 0x400 + (v.toNat - 0xDC00)).isValidChar := by
    unfold Nat.isValidChar
    omega
  have hnat : (JsString.pair u v).toNat =
      0x10000 + (u.toNat - 0xD800) * 0x400 + (v.toNat - 0xDC00) := by
    exact toNat_ofNat hvalid
  refine ⟨by omega, ?_⟩
  have hhigh : 0xD800 + ((JsString.pair u v).toNat - 0x10000) / 0x400 = u.toNat := by omega
  have hlow : 0xDC00 + ((JsString.pair u v).toNat - 0x10000) % 0x400 = v.toNat := by omega
  unfold utf16
  rw [if_neg (by omega), hhigh, hlow]
  show [UInt16.ofNat _, UInt16.ofNat _] = _
  rw [UInt16.ofNat_toNat, UInt16.ofNat_toNat]

lemma readString_quoteUnit (u : UInt16) (cs : List Char) :
    readString (JsString.quoteUnit u ++ cs) = (readString cs).map fun r => (u :: r.1, r.2) := by
  unfold JsString.quoteUnit
  split_ifs with h₁ h₂ h₃ h₄ h₅ h₆ h₇ h₈
  · exact readString_escape (by rw [h₁]; rfl) cs
  · exact readString_escape (by rw [h₂]; rfl) cs
  · exact readString_escape (by rw [h₃]; rfl) cs
  · exact readString_escape (by rw [h₄]; rfl) cs
  · exact readString_escape (by rw [h₅]; rfl) cs
  · exact readString_escape (by rw [h₆]; rfl) cs
  · exact readString_escape (by rw [h₇]; rfl) cs
  · exact readString_unicodeEscape u cs
  · rw [not_or] at h₈
    obtain ⟨hnat, hunits⟩ := utf16_ofNat h₈.2
    have hne : ∀ c : Char, u.toNat ≠ c.toNat → Char.ofNat u.toNat ≠ c := by
      rintro c hc rfl
      exact hc hnat.symm
    have hcontrol : 0x20 ≤ u.toNat := by
      have := h₈.1
      rw [UInt16.lt_iff_toNat_lt] at this
      exact not_lt.mp this
    rw [List.singleton_append, readString_plain, hunits]
    · rfl
    · exact hne _ fun heq => h₆ (UInt16.toNat_inj.mp heq)
    · exact hne _ fun heq => h₇ (UInt16.toNat_inj.mp heq)
    · rw [hnat]
      exact hcontrol

lemma readString_quoteUnits (s : JsString) (rest : List Char) :
    readString (JsString.quoteUnits s ++ '"' :: rest) = some (s, rest) := by
  induction s using JsString.quoteUnits.induct with
  | case1 =>
    rw [readString.eq_def]
    rfl
  | case2 u =>
    show readString (JsString.quoteUnit u ++ _) = _
    rw [readString_quoteUnit, readString.eq_def]
    rfl
  | case3 u v s hpair ih =>
    obtain ⟨hlarge, hunits⟩ := utf16_pair hpair
    rw [JsString.quoteUnits, if_pos hpair, List.cons_append, readString_plain, ih, hunits]
    · rfl
    · rintro heq
      rw [heq] at hlarge
      exact absurd hlarge (by decide)
    · rintro heq
      rw [heq] at hlarge
      exact absurd hlarge (by decide)
    · omega
  | case4 u v s hpair ih =>
    rw [JsString.quoteUnits, if_neg hpair, List.append_assoc, readString_quoteUnit, ih]
    rfl

lemma readString_quote (s : JsString) (rest : List Char) :
    JsString.quote s ++ rest = '"' :: (JsString.quoteUnits s ++ '"' :: rest) := by
  unfold JsString.quote
  simp

/-! ## Numbers -/

variable {numberToString : ℚ → List Char} {number : List Char → JsNumber}

/-- The number is written as a token that has its value. -/
def WrittenBack (numberToString : ℚ → List Char) (number : List Char → JsNumber) :
    JsNumber → Prop
  | .finite q => isNumberToken (numberToString q) = true ∧ number (numberToString q) = .finite q
  | _ => False

/-- Every number in the value. -/
def AllNumbers (P : JsNumber → Prop) (value : JsonValue) : Prop :=
  ∀ n, .number n ∈ value.walk → P n

/-- What ends a number. -/
def Ends (rest : List Char) : Prop := ∀ c, rest.head? = some c → isNumberChar c = false

lemma ends_cons {c : Char} (h : isNumberChar c = false) (rest : List Char) : Ends (c :: rest) := by
  intro c' hc'
  cases hc'
  exact h

lemma isNumberToken_head {token : List Char} (h : isNumberToken token = true) :
    ∃ c cs, token = c :: cs ∧ (c = '-' ∨ c.isDigit = true) := by
  unfold isNumberToken at h
  cases token with
  | nil => simp at h
  | cons c cs =>
    refine ⟨c, cs, rfl, ?_⟩
    by_cases hminus : c = '-'
    · exact Or.inl hminus
    · simp only [List.head?_cons, Option.some.injEq, hminus, if_false, Bool.and_eq_true] at h
      refine Or.inr ?_
      split at h
      · rename_i heq
        cases heq
        decide
      · rename_i heq
        cases heq
        exact (Bool.and_eq_true_iff.mp h.2).1
      · rename_i heq
        cases heq

/-- A run of characters ends where one comes that has no place in it. -/
lemma span_append {p : Char → Bool} {run rest : List Char} (hrun : ∀ c ∈ run, p c = true)
    (hrest : ∀ c, rest.head? = some c → p c = false) :
    (run ++ rest).takeWhile p = run ∧ (run ++ rest).dropWhile p = rest := by
  rw [List.takeWhile_append_of_pos hrun, List.dropWhile_append_of_pos hrun]
  cases rest with
  | nil => simp
  | cons c rest => simp [hrest c rfl]

lemma readNumber_append {q : ℚ} (h : WrittenBack numberToString number (.finite q))
    {rest : List Char} (hrest : Ends rest) :
    readNumber number (numberToString q ++ rest) = some (.number (.finite q), rest) := by
  obtain ⟨htoken, hvalue⟩ := h
  have hall : (numberToString q).all isNumberChar = true := by
    unfold isNumberToken at htoken
    exact (Bool.and_eq_true_iff.mp htoken).1
  obtain ⟨htake, hdrop⟩ := span_append (List.all_eq_true.mp hall) hrest
  unfold readNumber
  simp only [htake, hdrop, htoken, if_true, hvalue]

/-! ## Values -/

lemma AllNumbers.items {P : JsNumber → Prop} {items : List JsonValue}
    (h : AllNumbers P (.array items)) : ∀ n, .number n ∈ JsonValue.walkItems items → P n :=
  fun n hn => h n (List.mem_cons_of_mem _ hn)

lemma AllNumbers.members {P : JsNumber → Prop} {members : List (JsString × JsonValue)}
    (h : AllNumbers P (.object members)) :
    ∀ n, .number n ∈ JsonValue.walkMembers members → P n :=
  fun n hn => h n (List.mem_cons_of_mem _ hn)

/-- A text begins with what the reader decides by. -/
lemma stringify_head {value : JsonValue} (h : AllNumbers (WrittenBack numberToString number) value) :
    ∃ c cs, stringify numberToString value = c :: cs ∧ isSpace c = false ∧ c ≠ ']' := by
  cases value with
  | null => exact ⟨_, _, rfl, by decide, by decide⟩
  | bool b => cases b <;> exact ⟨_, _, rfl, by decide, by decide⟩
  | number n =>
    have hn := h n (by simp [JsonValue.walk])
    cases n with
    | finite q =>
      obtain ⟨c, cs, htext, hc⟩ := isNumberToken_head hn.1
      refine ⟨c, cs, htext, ?_⟩
      rcases hc with rfl | hc
      · decide
      · unfold isSpace
        constructor
        · simp only [Bool.or_eq_false_iff, decide_eq_false_iff_not]
          refine ⟨⟨⟨?_, ?_⟩, ?_⟩, ?_⟩ <;> rintro rfl <;> exact absurd hc (by decide)
        · rintro rfl
          exact absurd hc (by decide)
    | negativeZero => exact absurd hn id
    | infinite negative => exact absurd hn id
  | string s => exact ⟨_, _, rfl, by decide, by decide⟩
  | array items => exact ⟨_, _, rfl, by decide, by decide⟩
  | object members => exact ⟨_, _, rfl, by decide, by decide⟩

lemma skipSpace_cons {c : Char} (h : isSpace c = false) (cs : List Char) :
    skipSpace (c :: cs) = c :: cs := by
  unfold skipSpace
  rw [List.dropWhile_cons, h]
  rfl

lemma readValue_number {q : ℚ} (h : WrittenBack numberToString number (.finite q)) (fuel : ℕ)
    {rest : List Char} (hrest : Ends rest) :
    readValue number (fuel + 1) (numberToString q ++ rest) = some (.number (.finite q), rest) := by
  obtain ⟨c, cs, htext, hc⟩ := isNumberToken_head h.1
  have hread := readNumber_append h hrest
  rw [htext, List.cons_append] at hread ⊢
  have hne : isSpace c = false ∧ c ≠ '"' ∧ c ≠ '[' ∧ c ≠ '{' ∧ c ≠ 'n' ∧ c ≠ 't' ∧ c ≠ 'f' := by
    rcases hc with rfl | hc
    · decide
    · refine ⟨?_, ?_⟩
      · unfold isSpace
        simp only [Bool.or_eq_false_iff, decide_eq_false_iff_not]
        refine ⟨⟨⟨?_, ?_⟩, ?_⟩, ?_⟩ <;> rintro rfl <;> exact absurd hc (by decide)
      · refine ⟨?_, ?_, ?_, ?_, ?_, ?_⟩ <;> rintro rfl <;> exact absurd hc (by decide)
  obtain ⟨hspace, h₁, h₂, h₃, h₄, h₅, h₆⟩ := hne
  unfold readValue
  simp only [skipSpace_cons hspace, h₁, h₂, h₃, h₄, h₅, h₆, if_false]
  exact hread

/-- The text of an array or an object that is not empty, up to its closing bracket. -/
lemma intercalate_cons_append (text next : List Char) (texts : List (List Char))
    (rest : List Char) : [','].intercalate (text :: next :: texts) ++ rest =
      text ++ ',' :: ([','].intercalate (next :: texts) ++ rest) := by
  rw [List.intercalate_cons_cons]
  simp

/-- It begins with the first of its texts. -/
lemma intercalate_append (text : List Char) (texts : List (List Char)) (rest : List Char) :
    ∃ tail, [','].intercalate (text :: texts) ++ rest = text ++ tail := by
  cases texts with
  | nil => exact ⟨rest, by rw [List.intercalate_singleton]⟩
  | cons next texts => exact ⟨_, intercalate_cons_append text next texts rest⟩

lemma memberText_append (key : JsString) (text rest : List Char) :
    (JsString.quote key ++ ':' :: text) ++ rest =
      '"' :: (JsString.quoteUnits key ++ '"' :: (':' :: (text ++ rest))) := by
  unfold JsString.quote
  simp

mutual

/-- A text is read back, whatever comes after it. -/
theorem readValue_stringify (value : JsonValue)
    (h : AllNumbers (WrittenBack numberToString number) value) (fuel : ℕ) (rest : List Char)
    (hfuel : (stringify numberToString value).length ≤ fuel) (hrest : Ends rest) :
    readValue number fuel (stringify numberToString value ++ rest) = some (value, rest) := by
  match value with
  | .null =>
    obtain ⟨fuel, rfl⟩ : ∃ n, fuel = n + 1 := ⟨fuel - 1, by simp [stringify] at hfuel; omega⟩
    rfl
  | .bool b =>
    obtain ⟨fuel, rfl⟩ : ∃ n, fuel = n + 1 :=
      ⟨fuel - 1, by cases b <;> simp [stringify] at hfuel <;> omega⟩
    cases b <;> rfl
  | .number n =>
    have hn := h n (by simp [JsonValue.walk])
    cases n with
    | finite q =>
      obtain ⟨c, cs, htext, -⟩ := isNumberToken_head hn.1
      obtain ⟨fuel, rfl⟩ : ∃ n, fuel = n + 1 := by
        refine ⟨fuel - 1, ?_⟩
        simp only [stringify, stringifyNumber, htext, List.length_cons] at hfuel
        omega
      exact readValue_number hn fuel hrest
    | negativeZero => exact absurd hn id
    | infinite negative => exact absurd hn id
  | .string s =>
    obtain ⟨fuel, rfl⟩ : ∃ n, fuel = n + 1 :=
      ⟨fuel - 1, by simp [stringify, JsString.quote] at hfuel; omega⟩
    show readValue number (fuel + 1) (JsString.quote s ++ rest) = _
    rw [readString_quote]
    unfold readValue
    simp only [skipSpace_cons (show isSpace '"' = false by decide), if_true,
      readString_quoteUnits, Option.map_some]
  | .array [] =>
    obtain ⟨fuel, rfl⟩ : ∃ n, fuel = n + 1 := ⟨fuel - 1, by simp [stringify] at hfuel; omega⟩
    rfl
  | .array (item :: items) =>
    obtain ⟨fuel, rfl⟩ : ∃ n, fuel = n + 1 := ⟨fuel - 1, by simp [stringify] at hfuel; omega⟩
    have hlength : ([','].intercalate (stringifyItems numberToString (item :: items))).length + 1 ≤
        fuel := by
      simp only [stringify, List.length_append, List.length_cons, List.length_nil] at hfuel
      omega
    have hitems := readItems_stringify (item :: items) (List.cons_ne_nil _ _) h.items fuel rest
      hlength
    -- the array is not empty: its text begins with that of its first item
    obtain ⟨c, cs, htext, hspace, hbracket⟩ : ∃ c cs,
        [','].intercalate (stringifyItems numberToString (item :: items)) ++ ']' :: rest = c :: cs ∧
          isSpace c = false ∧ c ≠ ']' := by
      have hitem : AllNumbers (WrittenBack numberToString number) item := fun n hn =>
        h.items n (List.mem_append_left _ hn)
      obtain ⟨c, cs, htext, hc⟩ := stringify_head hitem
      obtain ⟨tail, htail⟩ := intercalate_append (stringify numberToString item)
        (stringifyItems numberToString items) (']' :: rest)
      refine ⟨c, cs ++ tail, ?_, hc⟩
      simp only [stringifyItems]
      rw [htail, htext, List.cons_append]
    show readValue number (fuel + 1) (('[' :: _ ++ [']']) ++ rest) = _
    rw [List.cons_append, List.cons_append, List.append_assoc, List.singleton_append]
    unfold readValue
    simp only [skipSpace_cons (show isSpace '[' = false by decide), htext, skipSpace_cons hspace,
      List.head?_cons, Option.some.injEq, hbracket, if_false, if_true,
      show ('[' = '"') = False by simp]
    rw [← htext, hitems]
    rfl
  | .object [] =>
    obtain ⟨fuel, rfl⟩ : ∃ n, fuel = n + 1 := ⟨fuel - 1, by simp [stringify] at hfuel; omega⟩
    rfl
  | .object ((key, item) :: members) =>
    obtain ⟨fuel, rfl⟩ : ∃ n, fuel = n + 1 := ⟨fuel - 1, by simp [stringify] at hfuel; omega⟩
    have hlength : ([','].intercalate
        (stringifyMembers numberToString ((key, item) :: members))).length + 1 ≤ fuel := by
      simp only [stringify, List.length_append, List.length_cons, List.length_nil] at hfuel
      omega
    have hmembers := readMembers_stringify ((key, item) :: members) (List.cons_ne_nil _ _)
      h.members fuel rest hlength
    obtain ⟨cs, htext⟩ : ∃ cs, [','].intercalate
        (stringifyMembers numberToString ((key, item) :: members)) ++ '}' :: rest = '"' :: cs := by
      obtain ⟨tail, htail⟩ := intercalate_append
        (JsString.quote key ++ ':' :: stringify numberToString item)
        (stringifyMembers numberToString members) ('}' :: rest)
      exact ⟨_, htail.trans (memberText_append _ _ _)⟩
    show readValue number (fuel + 1) (('{' :: _ ++ ['}']) ++ rest) = _
    rw [List.cons_append, List.cons_append, List.append_assoc, List.singleton_append]
    unfold readValue
    simp only [skipSpace_cons (show isSpace '{' = false by decide), htext,
      skipSpace_cons (show isSpace '"' = false by decide), List.head?_cons, Option.some.injEq,
      if_true, show ('{' = '"') = False by simp, show ('{' = '[') = False by simp,
      show ('"' = '}') = False by simp, if_false]
    rw [← htext, hmembers]
    rfl

theorem readItems_stringify (items : List JsonValue) (hne : items ≠ [])
    (h : ∀ n, .number n ∈ JsonValue.walkItems items → WrittenBack numberToString number n)
    (fuel : ℕ) (rest : List Char)
    (hfuel : ([','].intercalate (stringifyItems numberToString items)).length + 1 ≤ fuel) :
    readItems number fuel ([','].intercalate (stringifyItems numberToString items) ++ ']' :: rest) =
      some (items, rest) := by
  match items with
  | [] => exact absurd rfl hne
  | [item] =>
    obtain ⟨fuel, rfl⟩ : ∃ n, fuel = n + 1 := ⟨fuel - 1, by omega⟩
    simp only [stringifyItems, List.intercalate_singleton] at hfuel ⊢
    have hitem := readValue_stringify item (fun n hn => h n (List.mem_append_left _ hn)) fuel
      (']' :: rest) (by omega) (ends_cons (by decide) rest)
    unfold readItems
    rw [hitem]
    rfl
  | item :: next :: items =>
    obtain ⟨fuel, rfl⟩ : ∃ n, fuel = n + 1 := ⟨fuel - 1, by omega⟩
    simp only [stringifyItems] at hfuel ⊢
    rw [List.intercalate_cons_cons] at hfuel
    simp only [List.length_append, List.length_singleton] at hfuel
    rw [intercalate_cons_append]
    have hitem := readValue_stringify item (fun n hn => h n (List.mem_append_left _ hn)) fuel
      (',' :: ([','].intercalate (stringify numberToString next ::
        stringifyItems numberToString items) ++ ']' :: rest)) (by omega) (ends_cons (by decide) _)
    have hitems := readItems_stringify (next :: items) (List.cons_ne_nil _ _)
      (fun n hn => h n (List.mem_append_right _ hn)) fuel rest (by
        simp only [stringifyItems]
        omega)
    simp only [stringifyItems] at hitems
    unfold readItems
    rw [hitem]
    simp only [Option.bind_some, skipSpace_cons (show isSpace ',' = false by decide), hitems]
    rfl

theorem readMembers_stringify (members : List (JsString × JsonValue)) (hne : members ≠ [])
    (h : ∀ n, .number n ∈ JsonValue.walkMembers members → WrittenBack numberToString number n)
    (fuel : ℕ) (rest : List Char)
    (hfuel : ([','].intercalate (stringifyMembers numberToString members)).length + 1 ≤ fuel) :
    readMembers number fuel
        ([','].intercalate (stringifyMembers numberToString members) ++ '}' :: rest) =
      some (members, rest) := by
  match members with
  | [] => exact absurd rfl hne
  | [(key, item)] =>
    obtain ⟨fuel, rfl⟩ : ∃ n, fuel = n + 1 := ⟨fuel - 1, by omega⟩
    simp only [stringifyMembers, List.intercalate_singleton, List.length_append,
      List.length_cons] at hfuel ⊢
    have hitem := readValue_stringify item (fun n hn => h n (List.mem_append_left _ hn)) fuel
      ('}' :: rest) (by omega) (ends_cons (by decide) rest)
    rw [memberText_append]
    unfold readMembers
    simp only [skipSpace_cons (show isSpace '"' = false by decide), readString_quoteUnits,
      Option.bind_some, skipSpace_cons (show isSpace ':' = false by decide), hitem,
      skipSpace_cons (show isSpace '}' = false by decide)]
  | (key, item) :: (key', next) :: members =>
    obtain ⟨fuel, rfl⟩ : ∃ n, fuel = n + 1 := ⟨fuel - 1, by omega⟩
    simp only [stringifyMembers] at hfuel ⊢
    rw [List.intercalate_cons_cons] at hfuel
    simp only [List.length_append, List.length_cons] at hfuel
    rw [intercalate_cons_append, memberText_append]
    have hitem := readValue_stringify item (fun n hn => h n (List.mem_append_left _ hn)) fuel
      (',' :: ([','].intercalate ((JsString.quote key' ++ ':' :: stringify numberToString next) ::
        stringifyMembers numberToString members) ++ '}' :: rest)) (by omega)
      (ends_cons (by decide) _)
    have hmembers := readMembers_stringify ((key', next) :: members) (List.cons_ne_nil _ _)
      (fun n hn => h n (List.mem_append_right _ hn)) fuel rest (by
        simp only [stringifyMembers]
        omega)
    simp only [stringifyMembers] at hmembers
    unfold readMembers
    simp only [skipSpace_cons (show isSpace '"' = false by decide), readString_quoteUnits,
      Option.bind_some, skipSpace_cons (show isSpace ':' = false by decide), hitem,
      skipSpace_cons (show isSpace ',' = false by decide), hmembers, Option.map_some]

end

/-- **Round trip**: what was written is read back. -/
theorem read_stringify {value : JsonValue}
    (h : AllNumbers (WrittenBack numberToString number) value) :
    read number (stringify numberToString value) = some value := by
  have hread := readValue_stringify value h ((stringify numberToString value).length + 1) []
    (by omega) (fun c hc => by cases hc)
  rw [List.append_nil] at hread
  unfold read
  rw [hread]
  rfl

/-- A text determines its value. -/
theorem stringify_inj {value value' : JsonValue}
    (h : AllNumbers (WrittenBack numberToString number) value)
    (h' : AllNumbers (WrittenBack numberToString number) value')
    (heq : stringify numberToString value = stringify numberToString value') : value = value' := by
  have hread := read_stringify h
  rw [heq, read_stringify h'] at hread
  exact (Option.some.inj hread).symm

/-! ## What a text can spell -/

/-- A value of JavaScript: an object has one property for each name. -/
structure WellFormed (value : JsonValue) : Prop where
  names : ∀ members, .object members ∈ value.walk → (members.map Prod.fst).Nodup
  numbers : AllNumbers IsJsNumber value

lemma setMember_keys (members : List (JsString × JsonValue)) (member : JsString × JsonValue) :
    (setMember members member).map Prod.fst =
      if member.1 ∈ members.map Prod.fst then members.map Prod.fst
      else members.map Prod.fst ++ [member.1] := by
  unfold setMember
  split_ifs
  · rw [List.map_map]
    refine List.map_congr_left fun m _ => ?_
    by_cases hm : m.1 = member.1 <;> simp [hm]
  · simp

lemma nodup_setMember {members : List (JsString × JsonValue)}
    (h : (members.map Prod.fst).Nodup) (member : JsString × JsonValue) :
    ((setMember members member).map Prod.fst).Nodup := by
  rw [setMember_keys]
  split_ifs with hmem
  · exact h
  · rw [List.nodup_append]
    refine ⟨h, List.nodup_singleton _, fun a ha b hb => ?_⟩
    rintro rfl
    exact hmem (List.mem_singleton.mp hb ▸ ha)

lemma nodup_foldl_setMember (members : List (JsString × JsonValue)) :
    ((members.foldl setMember []).map Prod.fst).Nodup := by
  have hall : ∀ before : List (JsString × JsonValue), (before.map Prod.fst).Nodup →
      ((members.foldl setMember before).map Prod.fst).Nodup := by
    induction members with
    | nil => exact fun before h => h
    | cons member members ih => exact fun before h => ih _ (nodup_setMember h member)
  exact hall [] List.nodup_nil

/-- The properties are members, in another order. -/
lemma ownMembers_perm (members : List (JsString × JsonValue)) :
    (ownMembers members).Perm (members.foldl setMember []) := by
  unfold ownMembers
  refine ((List.perm_insertionSort _ _).append_right _).trans ?_
  have hnone : ∀ m : JsString × JsonValue,
      (arrayIndex m.1).isNone = !(arrayIndex m.1).isSome := fun m => by
    cases arrayIndex m.1 <;> rfl
  simp only [hnone]
  exact List.filter_append_perm _ _

lemma mem_foldl_setMember {members : List (JsString × JsonValue)}
    {m : JsString × JsonValue} (h : m ∈ members.foldl setMember []) : m ∈ members := by
  have hall : ∀ before : List (JsString × JsonValue),
      m ∈ members.foldl setMember before → m ∈ before ∨ m ∈ members := by
    clear h
    induction members with
    | nil => exact fun before h => Or.inl h
    | cons member members ih =>
      intro before h
      rcases ih _ h with hset | hrest
      · unfold setMember at hset
        split_ifs at hset
        · obtain ⟨old, hold, heq⟩ := List.mem_map.mp hset
          split_ifs at heq
          · exact Or.inr (heq ▸ List.mem_cons_self)
          · exact Or.inl (heq ▸ hold)
        · rcases List.mem_append.mp hset with hold | hnew
          · exact Or.inl hold
          · exact Or.inr (List.mem_singleton.mp hnew ▸ List.mem_cons_self)
      · exact Or.inr (List.mem_cons_of_mem _ hrest)
  exact (hall [] h).resolve_left List.not_mem_nil

/-! ## What a text spells is well formed -/

lemma mem_walkItems {value : JsonValue} {items : List JsonValue} :
    value ∈ JsonValue.walkItems items ↔ ∃ item ∈ items, value ∈ item.walk := by
  induction items with
  | nil => simp [JsonValue.walkItems]
  | cons item items ih => simp [JsonValue.walkItems, ih]

lemma mem_walkMembers {value : JsonValue} {members : List (JsString × JsonValue)} :
    value ∈ JsonValue.walkMembers members ↔ ∃ m ∈ members, value ∈ m.2.walk := by
  induction members with
  | nil => simp [JsonValue.walkMembers]
  | cons m members ih => simp [JsonValue.walkMembers, ih]

/-- A word is no number. -/
lemma readWord_numbers {P : JsNumber → Prop} {word cs rest : List Char} {value r : JsonValue}
    (hvalue : AllNumbers P value) (h : readWord word value cs = some (r, rest)) :
    AllNumbers P r := by
  unfold readWord at h
  split_ifs at h
  cases h
  exact hvalue

/-- The numbers of a text are values of tokens. -/
theorem read_numbers {P : JsNumber → Prop} (hP : ∀ token, P (number token)) (fuel : ℕ) :
    (∀ cs value rest, readValue number fuel cs = some (value, rest) → AllNumbers P value) ∧
      (∀ cs items rest, readItems number fuel cs = some (items, rest) →
        ∀ n, .number n ∈ JsonValue.walkItems items → P n) ∧
      ∀ cs members rest, readMembers number fuel cs = some (members, rest) →
        ∀ n, .number n ∈ JsonValue.walkMembers members → P n := by
  have hleaf : ∀ value : JsonValue, value.walk = [value] → (∀ n, value ≠ .number n) →
      AllNumbers P value := by
    intro value hwalk hvalue n hn
    rw [hwalk, List.mem_singleton] at hn
    exact absurd hn.symm (hvalue n)
  induction fuel with
  | zero =>
    refine ⟨?_, ?_, ?_⟩
    · intro cs value rest h
      unfold readValue at h
      cases h
    · intro cs items rest h
      unfold readItems at h
      cases h
    · intro cs members rest h
      unfold readMembers at h
      cases h
  | succ fuel ih =>
    obtain ⟨ihvalue, ihitems, ihmembers⟩ := ih
    refine ⟨?_, ?_, ?_⟩
    · intro cs value rest h
      unfold readValue at h
      split at h
      · cases h
      · split_ifs at h
        · obtain ⟨r, -, heq⟩ := Option.map_eq_some_iff.mp h
          cases heq
          exact hleaf _ rfl (fun n => JsonValue.noConfusion)
        · cases h
          exact hleaf _ rfl (fun n => JsonValue.noConfusion)
        · obtain ⟨r, hr, heq⟩ := Option.map_eq_some_iff.mp h
          cases heq
          intro n hn
          rcases List.mem_cons.mp hn with heq | hn
          · cases heq
          · exact ihitems _ _ _ hr n hn
        · cases h
          exact hleaf _ rfl (fun n => JsonValue.noConfusion)
        · obtain ⟨r, hr, heq⟩ := Option.map_eq_some_iff.mp h
          cases heq
          intro n hn
          rcases List.mem_cons.mp hn with heq | hn
          · cases heq
          · exact ihmembers _ _ _ hr n hn
        · exact readWord_numbers (hleaf _ rfl (fun n => JsonValue.noConfusion)) h
        · exact readWord_numbers (hleaf _ rfl (fun n => JsonValue.noConfusion)) h
        · exact readWord_numbers (hleaf _ rfl (fun n => JsonValue.noConfusion)) h
        · unfold readNumber at h
          simp only at h
          split_ifs at h
          cases h
          intro n hn
          cases List.mem_singleton.mp hn
          exact hP _
    · intro cs items rest h
      unfold readItems at h
      obtain ⟨item, hitem, h⟩ := Option.bind_eq_some_iff.mp h
      have hfirst := ihvalue _ item.1 item.2 hitem
      split at h
      · obtain ⟨r, hr, heq⟩ := Option.map_eq_some_iff.mp h
        cases heq
        intro n hn
        rcases List.mem_append.mp hn with hn | hn
        · exact hfirst n hn
        · exact ihitems _ _ _ hr n hn
      · cases h
        intro n hn
        rcases List.mem_append.mp hn with hn | hn
        · exact hfirst n hn
        · exact absurd hn List.not_mem_nil
      · cases h
    · intro cs members rest h
      unfold readMembers at h
      split at h
      · obtain ⟨key, hkey, h⟩ := Option.bind_eq_some_iff.mp h
        split at h
        · obtain ⟨item, hitem, h⟩ := Option.bind_eq_some_iff.mp h
          have hfirst := ihvalue _ item.1 item.2 hitem
          split at h
          · obtain ⟨r, hr, heq⟩ := Option.map_eq_some_iff.mp h
            cases heq
            intro n hn
            rcases List.mem_append.mp hn with hn | hn
            · exact hfirst n hn
            · exact ihmembers _ _ _ hr n hn
          · cases h
            intro n hn
            rcases List.mem_append.mp hn with hn | hn
            · exact hfirst n hn
            · exact absurd hn List.not_mem_nil
          · cases h
        · cases h
      · cases h

mutual

/-- Properties have names of their own, and their numbers are those of the text. -/
theorem withProperties_walk (value : JsonValue) (v : JsonValue)
    (h : v ∈ (withProperties value).walk) :
    (∀ n, v = .number n → .number n ∈ value.walk) ∧
      ∀ members, v = .object members → (members.map Prod.fst).Nodup := by
  match value with
  | .null =>
    cases List.mem_singleton.mp h
    exact ⟨fun n => JsonValue.noConfusion, fun members => JsonValue.noConfusion⟩
  | .bool b =>
    cases List.mem_singleton.mp h
    exact ⟨fun n => JsonValue.noConfusion, fun members => JsonValue.noConfusion⟩
  | .number m =>
    cases List.mem_singleton.mp h
    exact ⟨fun n heq => heq ▸ h, fun members => JsonValue.noConfusion⟩
  | .string s =>
    cases List.mem_singleton.mp h
    exact ⟨fun n => JsonValue.noConfusion, fun members => JsonValue.noConfusion⟩
  | .array items =>
    rcases List.mem_cons.mp h with rfl | hmem
    · exact ⟨fun n => JsonValue.noConfusion, fun members => JsonValue.noConfusion⟩
    · obtain ⟨hnumber, hnames⟩ := withPropertiesItems_walk items v hmem
      exact ⟨fun n heq => List.mem_cons_of_mem _ (hnumber n heq), hnames⟩
  | .object members =>
    rcases List.mem_cons.mp h with rfl | hmem
    · refine ⟨fun n => JsonValue.noConfusion, fun members' heq => ?_⟩
      cases heq
      have hperm := (ownMembers_perm (withPropertiesMembers members)).map Prod.fst
      exact hperm.nodup_iff.mpr (nodup_foldl_setMember _)
    · obtain ⟨m, hm, hv⟩ := mem_walkMembers.mp hmem
      have hmem' := mem_walkMembers.mpr
        ⟨m, mem_foldl_setMember ((ownMembers_perm _).mem_iff.mp hm), hv⟩
      obtain ⟨hnumber, hnames⟩ := withPropertiesMembers_walk members v hmem'
      exact ⟨fun n heq => List.mem_cons_of_mem _ (hnumber n heq), hnames⟩

theorem withPropertiesItems_walk (items : List JsonValue) (v : JsonValue)
    (h : v ∈ JsonValue.walkItems (withPropertiesItems items)) :
    (∀ n, v = .number n → .number n ∈ JsonValue.walkItems items) ∧
      ∀ members, v = .object members → (members.map Prod.fst).Nodup := by
  match items with
  | [] => exact absurd h List.not_mem_nil
  | item :: items =>
    rcases List.mem_append.mp h with hmem | hmem
    · obtain ⟨hnumber, hnames⟩ := withProperties_walk item v hmem
      exact ⟨fun n heq => List.mem_append_left _ (hnumber n heq), hnames⟩
    · obtain ⟨hnumber, hnames⟩ := withPropertiesItems_walk items v hmem
      exact ⟨fun n heq => List.mem_append_right _ (hnumber n heq), hnames⟩

theorem withPropertiesMembers_walk (members : List (JsString × JsonValue)) (v : JsonValue)
    (h : v ∈ JsonValue.walkMembers (withPropertiesMembers members)) :
    (∀ n, v = .number n → .number n ∈ JsonValue.walkMembers members) ∧
      ∀ members, v = .object members → (members.map Prod.fst).Nodup := by
  match members with
  | [] => exact absurd h List.not_mem_nil
  | (key, value) :: members =>
    rcases List.mem_append.mp h with hmem | hmem
    · obtain ⟨hnumber, hnames⟩ := withProperties_walk value v hmem
      exact ⟨fun n heq => List.mem_append_left _ (hnumber n heq), hnames⟩
    · obtain ⟨hnumber, hnames⟩ := withPropertiesMembers_walk members v hmem
      exact ⟨fun n heq => List.mem_append_right _ (hnumber n heq), hnames⟩

end

/-- What `JSON.parse` gives is a value of JavaScript. -/
theorem wellFormed_parse (hnumber : ∀ token, IsJsNumber (number token)) {text : List Char}
    {value : JsonValue} (h : parse number text = some value) : WellFormed value := by
  unfold parse at h
  obtain ⟨spelled, hread, rfl⟩ := Option.map_eq_some_iff.mp h
  have hnumbers : AllNumbers IsJsNumber spelled := by
    unfold read at hread
    split at hread
    · rename_i r rest hvalue
      split_ifs at hread
      cases hread
      exact (read_numbers hnumber _).1 _ _ _ hvalue
    · cases hread
  exact
    { names := fun members hmem => (withProperties_walk spelled _ hmem).2 members rfl
      numbers := fun n hn => hnumbers n ((withProperties_walk spelled _ hn).1 n rfl) }

end JsonReader
