import Mathlib.Data.Rat.Defs
import Mathlib.Tactic

/-!
# JavaScript strings and JSON values

A JavaScript string is a list of UTF-16 code units, which need not pair up into characters. A JSON
value is what `JSON.parse` makes of a text: a number is a finite double, given by its value, or
one of the two that have none, and the members of an object stand in the order of its properties.
-/

/-! ## Strings -/

abbrev JsString := List UInt16

namespace JsString

instance : LawfulBEq JsString := inferInstanceAs (LawfulBEq (List UInt16))

/-- A string of characters below 2¹⁶. -/
def lit (s : String) : JsString := s.toList.map fun c => c.toNat.toUInt16

/-- An ASCII letter in lower case. -/
def asciiLower (u : UInt16) : UInt16 := if 0x41 ≤ u ∧ u ≤ 0x5A then u + 32 else u

/-- `toLowerCase`, as far as the result is compared with ASCII text: besides the ASCII letters only
the Kelvin sign and the dotted capital I have ASCII in their lower case. -/
def toLowerCase (s : JsString) : JsString :=
  s.flatMap fun u =>
    if u = 0x212A then [0x6B] else if u = 0x0130 then [0x69, 0x0307] else [asciiLower u]

/-- `includes`. -/
def includes (s : JsString) (word : String) : Bool := lit word <:+: s

/-- `endsWith`. -/
def endsWith (s : JsString) (word : String) : Bool := lit word <:+ s

def isDigit (u : UInt16) : Bool := 0x30 ≤ u && u ≤ 0x39

/-- The value of a hexadecimal digit. -/
def hexDigit (u : UInt16) : Option ℕ :=
  if isDigit u then some (u.toNat - 0x30)
  else if 0x61 ≤ asciiLower u ∧ asciiLower u ≤ 0x66 then some ((asciiLower u).toNat - 0x57)
  else none

/-- What white space is skipped before a number. -/
def isSpace (u : UInt16) : Bool :=
  u.toNat ∈ [9, 10, 11, 12, 13, 32, 160, 5760, 8232, 8233, 8239, 8287, 12288, 65279] ||
    (8192 ≤ u.toNat && u.toNat ≤ 8202)

/-- `trim`. -/
def trim (s : JsString) : JsString := ((s.dropWhile isSpace).reverse.dropWhile isSpace).reverse

/-- The value of the hexadecimal digits a string starts with; `none` where there is none. -/
def hexPrefix (s : JsString) : Option ℕ :=
  match s.map hexDigit |>.takeWhile Option.isSome |>.reduceOption with
  | [] => none
  | digits => some (Nat.ofDigits 16 digits.reverse)

/-- `parseInt(s, 16)`; `none` is `NaN`. -/
def parseHex (s : JsString) : Option ℤ :=
  let s := s.dropWhile isSpace
  let (negative, s) :=
    match s with
    | 0x2D :: s => (true, s)
    | 0x2B :: s => (false, s)
    | s => (false, s)
  let s := if (s.take 2).map asciiLower = lit "0x" then s.drop 2 else s
  (hexPrefix s).map fun n => if negative then -n else n

/-- The value of a string of decimal digits. -/
def decimal (s : JsString) : ℕ := Nat.ofDigits 10 (s.reverse.map fun u => u.toNat - 0x30)

/-- A surrogate pair, and a lone code unit as UTF-8 has it. -/
def pair (high low : UInt16) : Char :=
  Char.ofNat (0x10000 + (high.toNat - 0xD800) * 0x400 + (low.toNat - 0xDC00))

def single (u : UInt16) : Char :=
  if 0xD800 ≤ u ∧ u ≤ 0xDFFF then Char.ofNat 0xFFFD else Char.ofNat u.toNat

/-- The characters of a string, with a lone surrogate read as U+FFFD. -/
def toChars : JsString → List Char
  | [] => []
  | [u] => [single u]
  | u :: v :: s =>
    if 0xD800 ≤ u ∧ u ≤ 0xDBFF ∧ 0xDC00 ≤ v ∧ v ≤ 0xDFFF then pair u v :: toChars s
    else single u :: toChars (v :: s)

/-- The text of a string. -/
def toText (s : JsString) : String := String.ofList (toChars s)

lemma toText_eq_empty {s : JsString} : toText s = "" ↔ s = [] := by
  constructor
  · intro h
    have hchars : toChars s = [] := by
      have := congrArg String.toList h
      rwa [toText, String.toList_ofList] at this
    unfold toChars at hchars
    split at hchars
    · rfl
    · cases hchars
    · split_ifs at hchars
  · rintro rfl
    rfl

/-! ### Quoting -/

/-- `\u` and four hexadecimal digits. -/
def unicodeEscape (u : UInt16) : List Char :=
  ['\\', 'u', Nat.digitChar (u.toNat / 0x1000), Nat.digitChar (u.toNat / 0x100 % 0x10),
    Nat.digitChar (u.toNat / 0x10 % 0x10), Nat.digitChar (u.toNat % 0x10)]

/-- What `JSON.stringify` writes for a code unit that is not part of a pair. -/
def quoteUnit (u : UInt16) : List Char :=
  if u = 0x08 then ['\\', 'b']
  else if u = 0x09 then ['\\', 't']
  else if u = 0x0A then ['\\', 'n']
  else if u = 0x0C then ['\\', 'f']
  else if u = 0x0D then ['\\', 'r']
  else if u = 0x22 then ['\\', '"']
  else if u = 0x5C then ['\\', '\\']
  else if u < 0x20 ∨ (0xD800 ≤ u ∧ u ≤ 0xDFFF) then unicodeEscape u
  else [Char.ofNat u.toNat]

def quoteUnits : JsString → List Char
  | [] => []
  | [u] => quoteUnit u
  | u :: v :: s =>
    if 0xD800 ≤ u ∧ u ≤ 0xDBFF ∧ 0xDC00 ≤ v ∧ v ≤ 0xDFFF then pair u v :: quoteUnits s
    else quoteUnit u ++ quoteUnits (v :: s)

/-- `JSON.stringify` of a string. -/
def quote (s : JsString) : List Char := '"' :: quoteUnits s ++ ['"']

end JsString

/-! ## Values -/

/-- A number of JavaScript other than `NaN`. -/
inductive JsNumber
  | finite (value : ℚ)
  | negativeZero
  | infinite (negative : Bool)
deriving DecidableEq

inductive JsonValue
  | null
  | bool (b : Bool)
  | number (n : JsNumber)
  | string (s : JsString)
  | array (items : List JsonValue)
  | object (members : List (JsString × JsonValue))

namespace JsonValue

/-- Whether a condition holds of the value. -/
def truthy : JsonValue → Bool
  | null => false
  | bool b => b
  | number (.finite value) => value ≠ 0
  | number .negativeZero => false
  | number (.infinite _) => true
  | string s => s ≠ []
  | array _ => true
  | object _ => true

/-- A property of the value that no prototype has; `none` is `undefined`. -/
def member (value : JsonValue) (name : String) : Option JsonValue :=
  match value with
  | object members => members.lookup (JsString.lit name)
  | _ => none

/-- `Array.isArray(value) && value.length > 0`. -/
def isNonemptyArray : JsonValue → Bool
  | array items => items ≠ []
  | _ => false

mutual

/-- The value and every value in it, each before what it contains. -/
def walk : JsonValue → List JsonValue
  | array items => array items :: walkItems items
  | object members => object members :: walkMembers members
  | value => [value]

def walkItems : List JsonValue → List JsonValue
  | [] => []
  | item :: items => walk item ++ walkItems items

def walkMembers : List (JsString × JsonValue) → List JsonValue
  | [] => []
  | (_, value) :: members => walk value ++ walkMembers members

end

end JsonValue
