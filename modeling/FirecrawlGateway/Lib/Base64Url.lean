import Mathlib.Tactic

/-!
# Base64 with the URL alphabet

Bytes are written three at a time as four digits of six bits, without padding. A reader takes the
digits of both alphabets and skips everything else, so that it reads back what was written.
-/

namespace Base64Url

/-- The character for six bits. -/
def digit (n : ℕ) : Char :=
  if n < 26 then Char.ofNat (65 + n)
  else if n < 52 then Char.ofNat (71 + n)
  else if n < 62 then Char.ofNat (n - 4)
  else if n = 62 then '-'
  else '_'

/-- The six bits of a character; `none` for one that is skipped. -/
def digitValue (c : Char) : Option ℕ :=
  if c.isUpper then some (c.toNat - 65)
  else if c.isLower then some (c.toNat - 71)
  else if c.isDigit then some (c.toNat + 4)
  else if c = '-' ∨ c = '+' then some 62
  else if c = '_' ∨ c = '/' then some 63
  else none

def encodeSextets : List UInt8 → List ℕ
  | [] => []
  | [a] => [a.toNat / 4, a.toNat % 4 * 16]
  | [a, b] => [a.toNat / 4, a.toNat % 4 * 16 + b.toNat / 16, b.toNat % 16 * 4]
  | a :: b :: c :: bytes =>
    a.toNat / 4 :: (a.toNat % 4 * 16 + b.toNat / 16) :: (b.toNat % 16 * 4 + c.toNat / 64) ::
      c.toNat % 64 :: encodeSextets bytes

/-- Bits that do not make up a byte are dropped. -/
def decodeSextets : List ℕ → List UInt8
  | p :: q :: r :: s :: sextets =>
    (p * 4 + q / 16).toUInt8 :: (q % 16 * 16 + r / 4).toUInt8 :: (r % 4 * 64 + s).toUInt8 ::
      decodeSextets sextets
  | [p, q, r] => [(p * 4 + q / 16).toUInt8, (q % 16 * 16 + r / 4).toUInt8]
  | [p, q] => [(p * 4 + q / 16).toUInt8]
  | _ => []

def encode (bytes : List UInt8) : List Char := (encodeSextets bytes).map digit

def decode (text : List Char) : List UInt8 := decodeSextets (text.filterMap digitValue)

/-! ## Reading back -/

lemma digitValue_digit {n : ℕ} (h : n < 64) : digitValue (digit n) = some n := by
  have hall : ∀ n : Fin 64, digitValue (digit n) = some n.val := by decide
  exact hall ⟨n, h⟩

lemma encodeSextets_lt (bytes : List UInt8) : ∀ n ∈ encodeSextets bytes, n < 64 := by
  have hbyte : ∀ a : UInt8, a.toNat < 256 := fun a => a.toNat_lt
  induction bytes using encodeSextets.induct with
  | case1 => simp [encodeSextets]
  | case2 a =>
    have := hbyte a
    simp only [encodeSextets, List.mem_cons, List.not_mem_nil, or_false]
    omega
  | case3 a b =>
    have := hbyte a
    have := hbyte b
    simp only [encodeSextets, List.mem_cons, List.not_mem_nil, or_false]
    omega
  | case4 a b c bytes ih =>
    have := hbyte a
    have := hbyte b
    have := hbyte c
    intro n hn
    simp only [encodeSextets, List.mem_cons] at hn
    rcases hn with h | h | h | h | h
    · omega
    · omega
    · omega
    · omega
    · exact ih n h

lemma toUInt8_eq {n : ℕ} {a : UInt8} (h : n = a.toNat) : n.toUInt8 = a := by
  rw [h]
  exact UInt8.ofNat_toNat

lemma decodeSextets_encodeSextets (bytes : List UInt8) :
    decodeSextets (encodeSextets bytes) = bytes := by
  have hbyte : ∀ a : UInt8, a.toNat < 256 := fun a => a.toNat_lt
  induction bytes using encodeSextets.induct with
  | case1 => rfl
  | case2 a =>
    have := hbyte a
    simp only [encodeSextets, decodeSextets]
    rw [toUInt8_eq (a := a) (by omega)]
  | case3 a b =>
    have := hbyte a
    have := hbyte b
    simp only [encodeSextets, decodeSextets]
    rw [toUInt8_eq (a := a) (by omega), toUInt8_eq (a := b) (by omega)]
  | case4 a b c bytes ih =>
    have := hbyte a
    have := hbyte b
    have := hbyte c
    simp only [encodeSextets, decodeSextets, ih]
    rw [toUInt8_eq (a := a) (by omega), toUInt8_eq (a := b) (by omega),
      toUInt8_eq (a := c) (by omega)]

/-- What was written is read back. -/
theorem decode_encode (bytes : List UInt8) : decode (encode bytes) = bytes := by
  have hdigits : ∀ sextets : List ℕ, (∀ n ∈ sextets, n < 64) →
      (sextets.map digit).filterMap digitValue = sextets := by
    intro sextets hlt
    induction sextets with
    | nil => rfl
    | cons n sextets ih =>
      obtain ⟨hn, hrest⟩ := List.forall_mem_cons.mp hlt
      rw [List.map_cons, List.filterMap_cons, digitValue_digit hn, ih hrest]
  unfold decode encode
  rw [hdigits _ (encodeSextets_lt bytes), decodeSextets_encodeSextets]

/-- Only digits are written. -/
lemma digitValue_of_mem_encode {bytes : List UInt8} {c : Char} (h : c ∈ encode bytes) :
    (digitValue c).isSome := by
  obtain ⟨n, hn, rfl⟩ := List.mem_map.mp h
  rw [digitValue_digit (encodeSextets_lt bytes n hn)]
  rfl

lemma toNat_lt_of_mem_encode {bytes : List UInt8} {c : Char} (h : c ∈ encode bytes) :
    c.toNat < 128 := by
  have hdigit : ∀ n < 64, (digit n).toNat < 128 := by decide
  obtain ⟨n, hn, rfl⟩ := List.mem_map.mp h
  exact hdigit n (encodeSextets_lt bytes n hn)

/-- Three bytes have four digits, and what is left over has one digit more than bytes. -/
lemma length_encode (bytes : List UInt8) : (encode bytes).length = (4 * bytes.length + 2) / 3 := by
  rw [encode, List.length_map]
  induction bytes using encodeSextets.induct with
  | case1 => rfl
  | case2 a => simp [encodeSextets]
  | case3 a b => simp [encodeSextets]
  | case4 a b c bytes ih =>
    simp only [encodeSextets, List.length_cons, ih]
    omega

end Base64Url
