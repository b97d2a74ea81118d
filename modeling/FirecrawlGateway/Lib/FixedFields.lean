import Mathlib.Data.Char
import Mathlib.Tactic

/-!
# Texts of decimal fields of fixed width

A layout lists the fields of a text, each with its width and the character after it, as in
`2026-01-31`. Such a text can be read back, it is read in one way only, and texts of one layout are
ordered as their numbers are.
-/

namespace FixedFields

/-! ## One field -/

/-- A number in `width` digits, with zeros in front. -/
def padded : ℕ → ℕ → List Char
  | 0, _ => []
  | width + 1, n => padded width (n / 10) ++ [Nat.digitChar (n % 10)]

/-- The number that digits are. -/
def readDigits (digits : List Char) : ℕ := Nat.ofDigitChars 10 digits 0

lemma length_padded (width n : ℕ) : (padded width n).length = width := by
  induction width generalizing n with
  | zero => rfl
  | succ width ih =>
    unfold padded
    rw [List.length_append, ih, List.length_singleton]

lemma digitChar_lt {m n : ℕ} (hm : m < 10) (hn : n < 10) :
    Nat.digitChar m < Nat.digitChar n ↔ m < n := by
  interval_cases m <;> interval_cases n <;> decide

lemma isDigit_digitChar {n : ℕ} (hn : n < 10) : (Nat.digitChar n).isDigit = true := by
  interval_cases n <;> decide

lemma isDigit_of_mem_padded {width n : ℕ} {c : Char} (h : c ∈ padded width n) :
    c.isDigit = true := by
  induction width generalizing n with
  | zero => exact absurd h List.not_mem_nil
  | succ width ih =>
    unfold padded at h
    rcases List.mem_append.mp h with hfront | hlast
    · exact ih hfront
    · rw [List.mem_singleton.mp hlast]
      exact isDigit_digitChar (Nat.mod_lt n (by decide))

lemma readDigits_append_digit (digits : List Char) {n : ℕ} (hn : n < 10) :
    readDigits (digits ++ [Nat.digitChar n]) = 10 * readDigits digits + n := by
  unfold readDigits
  rw [Nat.ofDigitChars_append]
  interval_cases n <;> rfl

lemma readDigits_padded {width n : ℕ} (h : n < 10 ^ width) : readDigits (padded width n) = n := by
  induction width generalizing n with
  | zero =>
    rw [pow_zero, Nat.lt_one_iff] at h
    rw [h]
    rfl
  | succ width ih =>
    have hdiv : n / 10 < 10 ^ width := by
      rw [pow_succ] at h
      omega
    unfold padded
    rw [readDigits_append_digit _ (Nat.mod_lt n (by decide)), ih hdiv]
    omega

/-! ## Order -/

/-- Texts of one length are compared by their fronts first. -/
lemma append_lt_append_iff {α : Type*} [LinearOrder α] {a a' b b' : List α}
    (h : a.length = a'.length) : a ++ b < a' ++ b' ↔ a < a' ∨ a = a' ∧ b < b' := by
  induction a generalizing a' with
  | nil =>
    rw [List.length_nil, eq_comm, List.length_eq_zero_iff] at h
    simp [h]
  | cons x a ih =>
    cases a' with
    | nil => simp at h
    | cons x' a' =>
      rw [List.length_cons, List.length_cons, Nat.succ_inj] at h
      rw [List.cons_append, List.cons_append, List.cons_lt_cons_iff, List.cons_lt_cons_iff, ih h]
      constructor
      · rintro (hlt | ⟨rfl, hlt | ⟨rfl, hlt⟩⟩)
        · exact Or.inl (Or.inl hlt)
        · exact Or.inl (Or.inr ⟨rfl, hlt⟩)
        · exact Or.inr ⟨rfl, hlt⟩
      · rintro ((hlt | ⟨rfl, hlt⟩) | ⟨heq, hlt⟩)
        · exact Or.inl hlt
        · exact Or.inr ⟨rfl, Or.inl hlt⟩
        · obtain ⟨rfl, rfl⟩ := List.cons.inj heq
          exact Or.inr ⟨rfl, Or.inr ⟨rfl, hlt⟩⟩

lemma padded_lt_iff {width m n : ℕ} (hm : m < 10 ^ width) (hn : n < 10 ^ width) :
    padded width m < padded width n ↔ m < n := by
  induction width generalizing m n with
  | zero =>
    rw [pow_zero, Nat.lt_one_iff] at hm hn
    rw [hm, hn]
    simp [padded]
  | succ width ih =>
    rw [pow_succ] at hm hn
    have hlength : (padded width (m / 10)).length = (padded width (n / 10)).length := by
      rw [length_padded, length_padded]
    unfold padded
    rw [append_lt_append_iff hlength, ih (by omega) (by omega)]
    have hsame : padded width (m / 10) = padded width (n / 10) ↔ m / 10 = n / 10 := by
      constructor
      · intro h
        rw [← readDigits_padded (show m / 10 < 10 ^ width by omega), h,
          readDigits_padded (show n / 10 < 10 ^ width by omega)]
      · intro h
        rw [h]
    have hlast : [Nat.digitChar (m % 10)] < [Nat.digitChar (n % 10)] ↔ m % 10 < n % 10 := by
      rw [List.cons_lt_cons_iff, digitChar_lt (Nat.mod_lt m (by decide)) (Nat.mod_lt n (by decide))]
      simp
    rw [hsame, hlast]
    omega

/-! ## Layouts -/

/-- A field: how many digits it has, and the character after them. -/
structure Field where
  width : ℕ
  after : Char
deriving DecidableEq, Repr

/-- The text of some numbers. -/
def write : List Field → List ℕ → List Char
  | field :: layout, n :: numbers => padded field.width n ++ field.after :: write layout numbers
  | _, _ => []

/-- The numbers of a text, if it is one of the layout. -/
def read : List Field → List Char → Option (List ℕ)
  | [], text => if text = [] then some [] else none
  | field :: layout, text =>
    let digits := text.take field.width
    if digits.length = field.width ∧ digits.all Char.isDigit then
      match text.drop field.width with
      | c :: rest =>
        if c = field.after then (read layout rest).map (readDigits digits :: ·) else none
      | [] => none
    else none

/-- The numbers fit their fields. -/
def Fits (layout : List Field) (numbers : List ℕ) : Prop :=
  List.Forall₂ (fun field n => n < 10 ^ field.width) layout numbers

variable {layout : List Field} {numbers numbers' : List ℕ}

/-- What was written is read back. -/
lemma read_write (h : Fits layout numbers) : read layout (write layout numbers) = some numbers := by
  induction h with
  | nil => rfl
  | @cons field n layout numbers hn _ ih =>
    have hlength := length_padded field.width n
    have htake : (write (field :: layout) (n :: numbers)).take field.width = padded field.width n :=
      List.take_left' hlength
    have hdrop : (write (field :: layout) (n :: numbers)).drop field.width =
      field.after :: write layout numbers := List.drop_left' hlength
    have hdigits : (padded field.width n).all Char.isDigit = true :=
      List.all_eq_true.mpr fun c hc => isDigit_of_mem_padded hc
    unfold read
    simp only [htake, hdrop, hlength, hdigits, and_self, if_true, ih, Option.map_some,
      readDigits_padded hn]

/-- Texts are ordered as the numbers are, the first field first. -/
lemma write_lt_iff (h : Fits layout numbers) (h' : Fits layout numbers') :
    write layout numbers < write layout numbers' ↔ numbers < numbers' := by
  induction h generalizing numbers' with
  | nil =>
    cases h'
    simp [write]
  | @cons field n layout numbers hn _ ih =>
    cases h' with
    | @cons _ n' _ numbers' hn' hrest' =>
      have hlength : (padded field.width n).length = (padded field.width n').length := by
        rw [length_padded, length_padded]
      have hsame : padded field.width n = padded field.width n' ↔ n = n' := by
        constructor
        · intro heq
          rw [← readDigits_padded hn, heq, readDigits_padded hn']
        · intro heq
          rw [heq]
      unfold write
      rw [append_lt_append_iff hlength, padded_lt_iff hn hn', hsame, List.cons_lt_cons_iff,
        List.cons_lt_cons_iff, ih hrest']
      simp

end FixedFields
