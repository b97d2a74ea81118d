import Mathlib.Tactic

/-!
# The concrete syntax of JSON

The grammar of RFC 8259 as a type of derivation trees: a `Text` is one way to derive a JSON
text, with its whitespace, escapes and number spelling, and `Text.bytes` is the UTF-8 text it
derives. A property of every valid JSON text is then a property of every `Text`, proved by
recursion over `Value`, `Elements` and `Members`.
-/

namespace JsonText

/-! ## Tokens -/

/-- `ws` characters. -/
inductive Ws
  | space
  | tab
  | lf
  | cr
deriving DecidableEq, Repr

def Ws.byte : Ws → ℕ
  | .space => 32
  | .tab => 9
  | .lf => 10
  | .cr => 13

/-- `ws = *( space / tab / lf / cr )`. -/
abbrev Space := List Ws

def Space.bytes (ws : Space) : List ℕ := ws.map Ws.byte

inductive Literal
  | false
  | null
  | true
deriving DecidableEq, Repr

def Literal.bytes : Literal → List ℕ
  | .false => [102, 97, 108, 115, 101]
  | .null => [110, 117, 108, 108]
  | .true => [116, 114, 117, 101]

/-- A hexadecimal digit of a `\u` escape. -/
structure HexDigit where
  byte : ℕ
  isHex : 48 ≤ byte ∧ byte ≤ 57 ∨ 65 ≤ byte ∧ byte ≤ 70 ∨ 97 ≤ byte ∧ byte ≤ 102

/-- What stands after the backslash of an escape. -/
inductive Escape
  | quote
  | backslash
  | slash
  | b
  | f
  | n
  | r
  | t
  | unicode (h₁ h₂ h₃ h₄ : HexDigit)

/-- The byte right after the backslash. -/
def Escape.head : Escape → ℕ
  | .quote => 34
  | .backslash => 92
  | .slash => 47
  | .b => 98
  | .f => 102
  | .n => 110
  | .r => 114
  | .t => 116
  | .unicode .. => 117

/-- The bytes after it: the four digits of a `\u` escape. -/
def Escape.tail : Escape → List ℕ
  | .unicode h₁ h₂ h₃ h₄ => [h₁.byte, h₂.byte, h₃.byte, h₄.byte]
  | _ => []

/-- `char = unescaped / escape ...`; an unescaped character is any scalar value from U+0020 on
but the quote and the backslash. -/
inductive StringChar
  | plain (c : Char) (unescaped : 32 ≤ c.toNat ∧ c.toNat ≠ 34 ∧ c.toNat ≠ 92)
  | escape (e : Escape)

/-- The UTF-8 encoding of a character. -/
def utf8 (c : Char) : List ℕ := (String.utf8EncodeChar c).map UInt8.toNat

def StringChar.bytes : StringChar → List ℕ
  | .plain c _ => utf8 c
  | .escape e => 92 :: e.head :: e.tail

/-- The characters between the quotes. -/
abbrev StringToken := List StringChar

def StringToken.bytes (s : StringToken) : List ℕ := 34 :: s.flatMap StringChar.bytes ++ [34]

/-- The string a token spells, when it spells it without escapes. -/
def StringToken.unescaped : StringToken → Option (List Char)
  | [] => some []
  | .plain c _ :: cs => (unescaped cs).map (c :: ·)
  | .escape _ :: _ => none

/-- A token that spells a name of plain characters. -/
def plainToken (name : List Char) : StringToken :=
  name.filterMap fun c =>
    if h : 32 ≤ c.toNat ∧ c.toNat ≠ 34 ∧ c.toNat ≠ 92 then some (.plain c h) else none

/-- `int = zero / ( digit1-9 *DIGIT )`. -/
inductive IntPart
  | zero
  | nonzero (d : Fin 9) (ds : List (Fin 10))

/-- The digits of the integer part, first and rest. -/
def IntPart.head : IntPart → ℕ
  | .zero => 0
  | .nonzero d _ => d + 1

def IntPart.tail : IntPart → List (Fin 10)
  | .zero => []
  | .nonzero _ ds => ds

def digitBytes (ds : List (Fin 10)) : List ℕ := ds.map fun d => 48 + d.val

/-- `number = [ minus ] int [ frac ] [ exp ]`. -/
structure Number where
  minus : Bool
  int : IntPart
  /-- `frac = decimal-point 1*DIGIT`. -/
  frac : Option (Fin 10 × List (Fin 10))
  /-- `exp = e [ minus / plus ] 1*DIGIT`: capital `E`, negative sign, digits. -/
  exp : Option (Bool × Option Bool × Fin 10 × List (Fin 10))

def Number.fracBytes (n : Number) : List ℕ :=
  match n.frac with
  | none => []
  | some (d, ds) => 46 :: digitBytes (d :: ds)

def Number.expBytes (n : Number) : List ℕ :=
  match n.exp with
  | none => []
  | some (capital, sign, d, ds) =>
    (if capital then 69 else 101) ::
      (match sign with
        | none => []
        | some true => [45]
        | some false => [43]) ++ digitBytes (d :: ds)

def Number.bytes (n : Number) : List ℕ :=
  (if n.minus then [45] else []) ++ (48 + n.int.head) :: digitBytes n.int.tail ++
    n.fracBytes ++ n.expBytes

/-- The number decimal digits denote after those read so far. -/
def digitsValue (value : ℕ) (ds : List (Fin 10)) : ℕ :=
  ds.foldl (fun value d => value * 10 + d.val) value

/-- The number a token denotes, when it consists of decimal digits only. -/
def Number.natural (n : Number) : Option ℕ :=
  if n.minus = false ∧ n.frac.isNone ∧ n.exp.isNone then
    some (digitsValue n.int.head n.int.tail)
  else none

/-! ## Values -/

mutual

/-- `value = false / null / true / object / array / number / string`. -/
inductive Value
  | literal (l : Literal)
  | number (n : Number)
  | string (s : StringToken)
  | emptyArray (ws : Space)
  | array (es : Elements)
  | emptyObject (ws : Space)
  | object (ms : Members)

/-- `value *( value-separator value )`, each with the whitespace around it. -/
inductive Elements
  | last (before : Space) (v : Value) (after : Space)
  | cons (before : Space) (v : Value) (after : Space) (rest : Elements)

/-- `member *( value-separator member )` with `member = string name-separator value`. -/
inductive Members
  | last (before : Space) (key : StringToken) (afterKey beforeValue : Space) (v : Value)
      (after : Space)
  | cons (before : Space) (key : StringToken) (afterKey beforeValue : Space) (v : Value)
      (after : Space) (rest : Members)

end

/-- `string ws name-separator ws value ws`, for the bytes of a value. -/
def memberBytes (before : Space) (key : StringToken) (afterKey beforeValue : Space)
    (value : List ℕ) (after : Space) : List ℕ :=
  before.bytes ++ key.bytes ++ afterKey.bytes ++ 58 :: beforeValue.bytes ++ value ++ after.bytes

mutual

def Value.bytes : Value → List ℕ
  | .literal l => l.bytes
  | .number n => n.bytes
  | .string s => s.bytes
  | .emptyArray ws => 91 :: ws.bytes ++ [93]
  | .array es => 91 :: es.bytes ++ [93]
  | .emptyObject ws => 123 :: ws.bytes ++ [125]
  | .object ms => 123 :: ms.bytes ++ [125]

def Elements.bytes : Elements → List ℕ
  | .last before v after => before.bytes ++ v.bytes ++ after.bytes
  | .cons before v after rest => before.bytes ++ v.bytes ++ after.bytes ++ 44 :: rest.bytes

def Members.bytes : Members → List ℕ
  | .last before key afterKey beforeValue v after =>
    memberBytes before key afterKey beforeValue v.bytes after
  | .cons before key afterKey beforeValue v after rest =>
    memberBytes before key afterKey beforeValue v.bytes after ++ 44 :: rest.bytes

end

/-- `JSON-text = ws value ws`. -/
structure Text where
  before : Space
  root : Value
  after : Space

def Text.bytes (t : Text) : List ℕ := t.before.bytes ++ t.root.bytes ++ t.after.bytes

/-- The members of an object in document order, with their names as spelled. -/
def Members.toList : Members → List (StringToken × Value)
  | .last _ key _ _ v _ => [(key, v)]
  | .cons _ key _ _ v _ rest => (key, v) :: rest.toList

/-- The direct members of a value; a value that is no object has none. -/
def Value.members : Value → List (StringToken × Value)
  | .object ms => ms.toList
  | _ => []

/-! ## UTF-8 -/

/-- A character of the ASCII range is one byte. -/
lemma utf8_of_ascii {c : Char} (h : c.toNat < 128) : utf8 c = [c.toNat] := by
  have hv : c.val.toNat ≤ 127 := Nat.lt_succ_iff.mp h
  simp only [utf8, String.utf8EncodeChar, hv, if_true, List.map_cons, List.map_nil]
  rw [UInt8.toNat_ofNat_of_lt' (by simp [UInt8.size]; omega)]
  rfl

/-- Every byte of a character beyond the ASCII range is at least 128. -/
lemma utf8_of_not_ascii {c : Char} (h : 128 ≤ c.toNat) : ∀ byte ∈ utf8 c, 128 ≤ byte := by
  have hv : ¬ c.val.toNat ≤ 127 := by
    have : c.toNat = c.val.toNat := rfl
    omega
  have hmax : c.val.toNat < 1114112 := by
    rcases c.valid with hlt | ⟨-, hlt⟩
    · have : c.val.toNat < 55296 := hlt
      omega
    · exact hlt
  intro byte hbyte
  simp only [utf8, String.utf8EncodeChar, hv, if_false] at hbyte
  split_ifs at hbyte <;>
    simp only [List.map_cons, List.map_nil, List.mem_cons, List.not_mem_nil, or_false] at hbyte <;>
    rcases hbyte with rfl | rfl | rfl | rfl <;>
    rw [UInt8.toNat_ofNat_of_lt' (by simp [UInt8.size]; omega)] <;> omega

lemma utf8_ne_nil (c : Char) : utf8 c ≠ [] := by
  simp only [utf8, String.utf8EncodeChar]
  split_ifs <;> simp

/-- The UTF-8 encodings of two strings agree only for equal strings, when one is ASCII. -/
lemma flatMap_utf8_eq_iff {cs name : List Char} (hname : ∀ c ∈ name, c.toNat < 128) :
    cs.flatMap utf8 = name.map Char.toNat ↔ cs = name := by
  induction cs generalizing name with
  | nil => cases name <;> simp
  | cons c cs ih =>
    cases name with
    | nil => simp [utf8_ne_nil]
    | cons a name =>
      obtain ⟨ha, hrest⟩ := List.forall_mem_cons.mp hname
      rw [List.flatMap_cons, List.map_cons, List.cons.injEq]
      by_cases hc : c.toNat < 128
      · rw [utf8_of_ascii hc, List.singleton_append, List.cons.injEq, ih hrest]
        exact and_congr_left' Char.toNat_inj
      · -- the first byte is too large for an ASCII character
        obtain ⟨byte, bytes, hbytes⟩ := List.exists_cons_of_ne_nil (utf8_ne_nil c)
        have hlarge : 128 ≤ byte :=
          utf8_of_not_ascii (not_lt.mp hc) byte (by rw [hbytes]; exact List.mem_cons_self)
        rw [hbytes, List.cons_append, List.cons.injEq]
        refine iff_of_false (fun h => ?_) (fun h => ?_)
        · omega
        · rw [h.1] at hc
          exact hc ha

end JsonText
