import FirecrawlGateway.Lib.JsonReader
import Mathlib.Data.Int.Log
import Mathlib.Algebra.Order.Floor.Semifield

/-!
# Numbers as text

`Number` of a string and `String` of a number: a literal is rounded to the nearest double, and a
double is written with the fewest digits that are rounded back to it.
-/

namespace NumberText

/-! ## Doubles -/

/-- The finite doubles. -/
def IsDouble (q : ℚ) : Prop :=
  ∃ m e : ℤ, |m| < 2 ^ 53 ∧ -1074 ≤ e ∧ e ≤ 971 ∧ q = m * (2 : ℚ) ^ e

/-- A number of JavaScript: a finite double, or one of those that are none. -/
def IsJsNumber : JsNumber → Prop
  | .finite q => IsDouble q
  | _ => True

/-- The nearest integer, and the even one of two. -/
def roundHalfEven (q : ℚ) : ℤ :=
  if q - ⌊q⌋ < 1 / 2 then ⌊q⌋
  else if 1 / 2 < q - ⌊q⌋ then ⌊q⌋ + 1
  else if Even ⌊q⌋ then ⌊q⌋
  else ⌊q⌋ + 1

/-- The exponent of the last place of a double of this size. -/
def lastPlace (q : ℚ) : ℤ := max (-1074) (Int.log 2 q - 52)

/-- The nearest double of a number that is not negative; `none` is an overflow. -/
def nearest (q : ℚ) : Option ℚ :=
  let rounded := roundHalfEven (q / 2 ^ lastPlace q) * (2 : ℚ) ^ lastPlace q
  if rounded < 2 ^ 1024 then some rounded else none

/-- The number that is written with a sign and without it. -/
def signed (negative : Bool) (q : ℚ) : JsNumber :=
  match nearest q with
  | none => .infinite negative
  | some rounded =>
    if negative then if rounded = 0 then .negativeZero else .finite (-rounded)
    else .finite rounded

/-! ## Reading -/

def isSpace (c : Char) : Bool := c.toNat < 0x10000 && JsString.isSpace c.toNat.toUInt16

def trim (cs : List Char) : List Char :=
  ((cs.dropWhile isSpace).reverse.dropWhile isSpace).reverse

/-- The value of an exponent, or of none. -/
def readExponent : List Char → Option ℤ
  | [] => some 0
  | c :: cs =>
    let digits := match cs with
      | '-' :: cs => cs
      | '+' :: cs => cs
      | cs => cs
    if (c = 'e' ∨ c = 'E') ∧ digits ≠ [] ∧ digits.all Char.isDigit then
      some (if cs.head? = some '-' then -(Nat.ofDigitChars 10 digits 0 : ℤ)
        else Nat.ofDigitChars 10 digits 0)
    else none

/-- The digits after a point, and the rest. -/
def splitFraction : List Char → List Char × List Char
  | '.' :: cs => (cs.takeWhile Char.isDigit, cs.dropWhile Char.isDigit)
  | cs => ([], cs)

/-- `StrUnsignedDecimalLiteral`, other than `Infinity`. -/
def readDecimal (cs : List Char) : Option ℚ :=
  let whole := cs.takeWhile Char.isDigit
  let fraction := (splitFraction (cs.dropWhile Char.isDigit)).1
  if whole = [] ∧ fraction = [] then none
  else (readExponent (splitFraction (cs.dropWhile Char.isDigit)).2).map fun e : ℤ =>
    (Nat.ofDigitChars 10 (whole ++ fraction) 0 : ℚ) * 10 ^ (e - fraction.length : ℤ)

def readUnsigned (negative : Bool) (cs : List Char) : Option JsNumber :=
  if cs = "Infinity".toList then some (.infinite negative)
  else (readDecimal cs).map (signed negative)

/-- What the letter after a zero says. -/
def radix (c : Char) : Option ℕ :=
  if c = 'x' ∨ c = 'X' then some 16
  else if c = 'o' ∨ c = 'O' then some 8
  else if c = 'b' ∨ c = 'B' then some 2
  else none

/-- `NonDecimalIntegerLiteral`, after its first two characters. -/
def readInteger (radix : ℕ) (cs : List Char) : Option ℕ :=
  let digits := cs.filterMap JsonReader.hexDigit
  if cs ≠ [] ∧ digits.length = cs.length ∧ digits.all (· < radix) then
    some (Nat.ofDigits radix digits.reverse)
  else none

/-- `Number(text)`; `none` is `NaN`. -/
def toNumber (text : String) : Option JsNumber :=
  match trim text.toList with
  | [] => some (.finite 0)
  | c :: cs =>
    if c = '-' then readUnsigned true cs
    else if c = '+' then readUnsigned false cs
    else match if c = '0' then cs.head?.bind radix else none with
      | some radix => (readInteger radix cs.tail).map fun n : ℕ => signed false n
      | none => readUnsigned false (c :: cs)

/-! ## Writing -/

/-- The decimals of `k` digits next to `x` that are rounded to it, as a whole number and the power
of ten of its last digit; of two the closer one. -/
def decimalOf (x : ℚ) (k : ℕ) : Option (ℕ × ℤ) :=
  let scale := Int.log 10 x + 1 - k
  let low := ⌊x / 10 ^ scale⌋₊
  if nearest (low * 10 ^ scale) = some x ∧
      (nearest ((low + 1 : ℕ) * 10 ^ scale) ≠ some x ∨ (low : ℤ) = roundHalfEven (x / 10 ^ scale))
  then some (low, scale)
  else if nearest ((low + 1 : ℕ) * 10 ^ scale) = some x then
    -- a power of ten has fewer digits
    if low + 1 = 10 ^ k then some (10 ^ (k - 1), scale + 1) else some (low + 1, scale)
  else none

/-- The decimal with the fewest digits. -/
def shortest (x : ℚ) : ℕ × ℤ :=
  ((List.range 1400).findSome? fun k => decimalOf x (k + 1)).getD (0, 0)

def exponentText (e : ℤ) : List Char :=
  'e' :: (if e < 0 then '-' else '+') :: Nat.toDigits 10 e.natAbs

/-- The digits, with the point before the place `n`. -/
def layout (digits : List Char) (n : ℤ) : List Char :=
  if digits.length ≤ n ∧ n ≤ 21 then digits ++ List.replicate (n - digits.length).toNat '0'
  else if 0 < n ∧ n ≤ 21 then digits.take n.toNat ++ '.' :: digits.drop n.toNat
  else if -6 < n ∧ n ≤ 0 then '0' :: '.' :: (List.replicate (-n).toNat '0' ++ digits)
  else if digits.length = 1 then digits ++ exponentText (n - 1)
  else digits.take 1 ++ '.' :: (digits.drop 1 ++ exponentText (n - 1))

def positiveText (x : ℚ) : List Char :=
  let digits := Nat.toDigits 10 (shortest x).1
  layout digits (digits.length + (shortest x).2)

/-- `String` of a number. -/
def numberToString (q : ℚ) : String :=
  String.ofList <|
    if q = 0 then ['0']
    else if q < 0 then '-' :: positiveText (-q)
    else positiveText q

end NumberText
