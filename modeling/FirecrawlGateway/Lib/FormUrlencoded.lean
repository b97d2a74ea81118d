import Mathlib.Data.Char
import Mathlib.Tactic

/-!
# Form encoded texts

Pairs of a name and a value as `application/x-www-form-urlencoded` has them: the bytes of each in
UTF-8, all but a few of them as `%XX`, with `=` and `&` between. Such a text can be read back,
whatever characters the names and the values have.
-/

namespace FormUrlencoded

/-! ## Bytes -/

/-- A byte that is written as the character it is. -/
def isPlain (b : UInt8) : Bool :=
  (0x30 ≤ b && b ≤ 0x39) || (0x41 ≤ b && b ≤ 0x5A) || (0x61 ≤ b && b ≤ 0x7A) || b = 0x2A ||
    b = 0x2D || b = 0x2E || b = 0x5F

/-- `0` to `9` and `A` to `F`. -/
def hexDigit (n : ℕ) : Char := if n < 10 then Char.ofNat (0x30 + n) else Char.ofNat (0x37 + n)

def hexValue (c : Char) : Option ℕ :=
  if '0' ≤ c ∧ c ≤ '9' then some (c.toNat - 0x30)
  else if 'A' ≤ c ∧ c ≤ 'F' then some (c.toNat - 0x37)
  else if 'a' ≤ c ∧ c ≤ 'f' then some (c.toNat - 0x57)
  else none

def encodeByte (b : UInt8) : List Char :=
  if b = 0x20 then ['+']
  else if isPlain b then [Char.ofNat b.toNat]
  else ['%', hexDigit (b.toNat / 16), hexDigit (b.toNat % 16)]

/-- The bytes that a text stands for; `none` where a `%` has no digits. -/
def decodeBytes : List Char → Option (List UInt8)
  | [] => some []
  | c :: rest =>
    if c = '%' then
      match rest with
      | high :: low :: rest =>
        (hexValue high).bind fun high => (hexValue low).bind fun low =>
          (decodeBytes rest).map (UInt8.ofNat (16 * high + low) :: ·)
      | _ => none
    else if c = '+' then (decodeBytes rest).map (0x20 :: ·)
    else (decodeBytes rest).map (String.utf8EncodeChar c ++ ·)

lemma hexValue_hexDigit {n : ℕ} (h : n < 16) : hexValue (hexDigit n) = some n := by
  interval_cases n <;> decide

/-- What a written byte looks like to the reader. -/
lemma encodeByte_spec (b : UInt8) :
    (b = 0x20 ∧ encodeByte b = ['+']) ∨
    (∃ c, encodeByte b = [c] ∧ c ≠ '%' ∧ c ≠ '+' ∧ String.utf8EncodeChar c = [b]) ∨
    ∃ high < 16, ∃ low < 16, encodeByte b = ['%', hexDigit high, hexDigit low] ∧
      UInt8.ofNat (16 * high + low) = b := by
  by_cases hspace : b = 0x20
  · exact Or.inl ⟨hspace, if_pos hspace⟩
  · unfold encodeByte
    rw [if_neg hspace]
    by_cases hplain : isPlain b = true
    · rw [if_pos hplain]
      refine Or.inr (Or.inl ⟨_, rfl, ?_⟩)
      have hall : ∀ b : Fin 256, isPlain (UInt8.ofFin b) = true →
          Char.ofNat b.val ≠ '%' ∧ Char.ofNat b.val ≠ '+' ∧
            String.utf8EncodeChar (Char.ofNat b.val) = [UInt8.ofFin b] := by
        decide +kernel
      exact hall b.toFin hplain
    · rw [if_neg hplain]
      refine Or.inr (Or.inr ⟨b.toNat / 16, ?_, b.toNat % 16, ?_, rfl, ?_⟩)
      · have hlt := b.toNat_lt
        omega
      · exact Nat.mod_lt _ (by decide)
      · rw [Nat.div_add_mod]
        exact UInt8.ofNat_toNat

lemma decodeBytes_plus (rest : List Char) :
    decodeBytes ('+' :: rest) = (decodeBytes rest).map (0x20 :: ·) := by
  rw [decodeBytes.eq_def]
  rfl

lemma decodeBytes_plain {c : Char} (hpercent : c ≠ '%') (hplus : c ≠ '+') (rest : List Char) :
    decodeBytes (c :: rest) = (decodeBytes rest).map (String.utf8EncodeChar c ++ ·) := by
  rw [decodeBytes.eq_def]
  dsimp only
  rw [if_neg hpercent, if_neg hplus]

lemma decodeBytes_encodeByte (b : UInt8) (rest : List Char) :
    decodeBytes (encodeByte b ++ rest) = (decodeBytes rest).map (b :: ·) := by
  rcases encodeByte_spec b with ⟨rfl, hcode⟩ | ⟨c, hcode, hpercent, hplus, hbyte⟩ |
    ⟨high, hhigh, low, hlow, hcode, hbyte⟩
  · rw [hcode]
    exact decodeBytes_plus rest
  · rw [hcode]
    show decodeBytes (c :: rest) = _
    rw [decodeBytes_plain hpercent hplus, hbyte]
    rfl
  · rw [hcode]
    show decodeBytes ('%' :: hexDigit high :: hexDigit low :: rest) = _
    rw [decodeBytes, if_pos rfl]
    simp only [hexValue_hexDigit hhigh, hexValue_hexDigit hlow, Option.bind_some, hbyte]

lemma decodeBytes_encodeBytes (bytes : List UInt8) :
    decodeBytes (bytes.flatMap encodeByte) = some bytes := by
  induction bytes with
  | nil => rfl
  | cons b bytes ih =>
    rw [List.flatMap_cons, decodeBytes_encodeByte, ih]
    rfl

/-! ## Texts -/

def encodeText (text : List Char) : List Char :=
  (text.flatMap String.utf8EncodeChar).flatMap encodeByte

/-- The text of bytes in UTF-8. -/
def decodeUtf8 (bytes : List UInt8) : Option (List Char) :=
  bytes.toByteArray.utf8Decode?.map Array.toList

/-- A text that cannot be decoded is left, but for its `+`. -/
def decodeText (text : List Char) : List Char :=
  ((decodeBytes text).bind decodeUtf8).getD (text.map fun c => if c = '+' then ' ' else c)

lemma decodeUtf8_encode (text : List Char) :
    decodeUtf8 (text.flatMap String.utf8EncodeChar) = some text := by
  have hdecode := List.utf8Decode?_utf8Encode (l := text)
  unfold List.utf8Encode at hdecode
  unfold decodeUtf8
  rw [hdecode]
  rfl

/-- A text is read back. -/
lemma decodeText_encodeText (text : List Char) : decodeText (encodeText text) = text := by
  unfold decodeText encodeText
  rw [decodeBytes_encodeBytes, Option.bind_some, decodeUtf8_encode]
  rfl

/-- No separator is in an encoded text. -/
lemma separator_not_mem_encodeText (text : List Char) :
    '&' ∉ encodeText text ∧ '=' ∉ encodeText text := by
  have hbyte : ∀ b : Fin 256, '&' ∉ encodeByte (UInt8.ofFin b) ∧ '=' ∉ encodeByte (UInt8.ofFin b) := by
    decide +kernel
  unfold encodeText
  constructor
  · intro hmem
    obtain ⟨b, -, hb⟩ := List.mem_flatMap.mp hmem
    exact (hbyte b.toFin).1 hb
  · intro hmem
    obtain ⟨b, -, hb⟩ := List.mem_flatMap.mp hmem
    exact (hbyte b.toFin).2 hb

/-! ## Pairs -/

def serializePair (pair : List Char × List Char) : List Char :=
  encodeText pair.1 ++ '=' :: encodeText pair.2

/-- `toString` of the parameters. -/
def serialize (pairs : List (List Char × List Char)) : List Char :=
  List.intercalate ['&'] (pairs.map serializePair)

/-- A part between two `&`; without a `=` it is a name. -/
def parsePair (part : List Char) : List Char × List Char :=
  (decodeText (part.takeWhile (· ≠ '=')), decodeText ((part.dropWhile (· ≠ '=')).drop 1))

def parse (text : List Char) : List (List Char × List Char) :=
  ((text.splitOn '&').filter (· ≠ [])).map parsePair

lemma parsePair_serializePair (pair : List Char × List Char) :
    parsePair (serializePair pair) = pair := by
  have hname : ∀ c ∈ encodeText pair.1, (c ≠ '=' : Bool) = true := by
    intro c hc
    apply decide_eq_true
    intro heq
    exact (separator_not_mem_encodeText pair.1).2 (heq ▸ hc)
  unfold parsePair serializePair
  rw [List.takeWhile_append_of_pos hname, List.dropWhile_append_of_pos hname,
    List.takeWhile_cons_of_neg (by decide), List.dropWhile_cons_of_neg (by decide), List.append_nil,
    decodeText_encodeText]
  show (pair.1, decodeText (encodeText pair.2)) = pair
  rw [decodeText_encodeText]

/-- **Pairs are read back**, whatever characters they have. -/
theorem parse_serialize (pairs : List (List Char × List Char)) : parse (serialize pairs) = pairs := by
  cases pairs with
  | nil => rfl
  | cons pair pairs =>
    have hparts : ∀ part ∈ (pair :: pairs).map serializePair, '&' ∉ part := by
      intro part hpart
      obtain ⟨p, -, rfl⟩ := List.mem_map.mp hpart
      unfold serializePair
      simp [separator_not_mem_encodeText]
    have hfull : ∀ part ∈ (pair :: pairs).map serializePair, (part ≠ [] : Bool) = true := by
      intro part hpart
      obtain ⟨p, -, rfl⟩ := List.mem_map.mp hpart
      apply decide_eq_true
      exact List.append_ne_nil_of_right_ne_nil _ (List.cons_ne_nil _ _)
    unfold parse serialize
    rw [List.splitOn_intercalate '&' hparts (List.cons_ne_nil _ _), List.filter_eq_self.mpr hfull,
      List.map_map]
    calc (pair :: pairs).map (parsePair ∘ serializePair)
        = (pair :: pairs).map id :=
          List.map_congr_left fun p _ => parsePair_serializePair p
      _ = pair :: pairs := List.map_id _

example : serialize [("search".toList, "a b&é".toList), ("slow".toList, "true".toList)] =
    "search=a+b%26%C3%A9&slow=true".toList := by decide +kernel

end FormUrlencoded
