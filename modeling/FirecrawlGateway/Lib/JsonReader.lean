import FirecrawlGateway.Lib.JsonValue

/-!
# Reading and writing JSON

`JSON.stringify` and `JSON.parse`, on texts without lone surrogates. How a number is written and
read is a parameter. What `stringify` writes is read back by `readValue`, member by member;
`parse` then makes properties of the members, of which an object has one for each name.
-/

namespace JsonReader

/-! ## Strings -/

/-- The code units of a character. -/
def utf16 (c : Char) : JsString :=
  if c.toNat < 0x10000 then [c.toNat.toUInt16]
  else [(0xD800 + (c.toNat - 0x10000) / 0x400).toUInt16,
    (0xDC00 + (c.toNat - 0x10000) % 0x400).toUInt16]

/-- What a character after a backslash stands for, other than `u`. -/
def escapedUnit (c : Char) : Option UInt16 :=
  if c = '"' then some 0x22
  else if c = '\\' then some 0x5C
  else if c = '/' then some 0x2F
  else if c = 'b' then some 0x08
  else if c = 'f' then some 0x0C
  else if c = 'n' then some 0x0A
  else if c = 'r' then some 0x0D
  else if c = 't' then some 0x09
  else none

def hexDigit (c : Char) : Option ℕ :=
  if '0' ≤ c ∧ c ≤ '9' then some (c.toNat - 48)
  else if 'a' ≤ c ∧ c ≤ 'f' then some (c.toNat - 87)
  else if 'A' ≤ c ∧ c ≤ 'F' then some (c.toNat - 55)
  else none

/-- The code unit of a `\u` escape. -/
def unicodeUnit (h₁ h₂ h₃ h₄ : Char) : Option UInt16 := do
  let d₁ ← hexDigit h₁
  let d₂ ← hexDigit h₂
  let d₃ ← hexDigit h₃
  let d₄ ← hexDigit h₄
  pure (d₁ * 0x1000 + d₂ * 0x100 + d₃ * 0x10 + d₄).toUInt16

/-- The rest of a string, after its opening quote. -/
def readString : List Char → Option (JsString × List Char)
  | [] => none
  | c :: cs =>
    if c = '"' then some ([], cs)
    else if c = '\\' then
      match cs with
      | [] => none
      | e :: cs =>
        if e = 'u' then
          match cs with
          | h₁ :: h₂ :: h₃ :: h₄ :: cs =>
            (unicodeUnit h₁ h₂ h₃ h₄).bind fun u => (readString cs).map fun r => (u :: r.1, r.2)
          | _ => none
        else (escapedUnit e).bind fun u => (readString cs).map fun r => (u :: r.1, r.2)
    else if c.toNat < 0x20 then none
    else (readString cs).map fun r => (utf16 c ++ r.1, r.2)

/-! ## Values -/

def isSpace (c : Char) : Bool := c = ' ' || c = '\t' || c = '\n' || c = '\r'

def skipSpace (cs : List Char) : List Char := cs.dropWhile isSpace

/-- What a number can be made of. -/
def isNumberChar (c : Char) : Bool :=
  c.isDigit || c = '-' || c = '+' || c = '.' || c = 'e' || c = 'E'

/-- The rest after an exponent, or after none. -/
def dropExponent : List Char → List Char
  | c :: cs =>
    if c = 'e' ∨ c = 'E' then
      let digits := match cs with
        | '-' :: cs => cs
        | '+' :: cs => cs
        | cs => cs
      if (digits.head?.any Char.isDigit) then digits.dropWhile Char.isDigit else c :: cs
    else c :: cs
  | [] => []

/-- The rest after a fraction, or after none. -/
def dropFraction : List Char → List Char
  | '.' :: c :: cs => if c.isDigit then cs.dropWhile Char.isDigit else '.' :: c :: cs
  | cs => cs

/-- `-?(0|[1-9]\d*)(\.\d+)?([eE][-+]?\d+)?`. -/
def isNumberToken (token : List Char) : Bool :=
  token.all isNumberChar &&
  match if token.head? = some '-' then token.tail else token with
  | '0' :: cs => dropExponent (dropFraction cs) = []
  | c :: cs => c.isDigit && dropExponent (dropFraction (cs.dropWhile Char.isDigit)) = []
  | [] => false

section Reader

variable (number : List Char → JsNumber)

/-- A number; `number` gives the value of its token. -/
def readNumber (cs : List Char) : Option (JsonValue × List Char) :=
  let token := cs.takeWhile isNumberChar
  if isNumberToken token then some (.number (number token), cs.dropWhile isNumberChar) else none

/-- A word, if it comes next. -/
def readWord (word : List Char) (value : JsonValue) (cs : List Char) :
    Option (JsonValue × List Char) :=
  if word <+: cs then some (value, cs.drop word.length) else none

mutual

/-- A value, which is nested less deep than `fuel`. The members of an object are those of the
text. -/
def readValue : ℕ → List Char → Option (JsonValue × List Char)
  | 0, _ => none
  | fuel + 1, cs =>
    match skipSpace cs with
    | [] => none
    | c :: cs =>
      if c = '"' then (readString cs).map fun r => (.string r.1, r.2)
      else if c = '[' then
        if (skipSpace cs).head? = some ']' then some (.array [], (skipSpace cs).tail)
        else (readItems fuel cs).map fun r => (.array r.1, r.2)
      else if c = '{' then
        if (skipSpace cs).head? = some '}' then some (.object [], (skipSpace cs).tail)
        else (readMembers fuel cs).map fun r => (.object r.1, r.2)
      else if c = 'n' then readWord "null".toList .null (c :: cs)
      else if c = 't' then readWord "true".toList (.bool true) (c :: cs)
      else if c = 'f' then readWord "false".toList (.bool false) (c :: cs)
      else readNumber number (c :: cs)

/-- The items of an array that has some, with its closing bracket. -/
def readItems : ℕ → List Char → Option (List JsonValue × List Char)
  | 0, _ => none
  | fuel + 1, cs =>
    (readValue fuel cs).bind fun item =>
      match skipSpace item.2 with
      | ',' :: rest => (readItems fuel rest).map fun r => (item.1 :: r.1, r.2)
      | ']' :: rest => some ([item.1], rest)
      | _ => none

/-- The members of an object that has some, with its closing brace. -/
def readMembers : ℕ → List Char → Option (List (JsString × JsonValue) × List Char)
  | 0, _ => none
  | fuel + 1, cs =>
    match skipSpace cs with
    | '"' :: cs =>
      (readString cs).bind fun key =>
        match skipSpace key.2 with
        | ':' :: cs =>
          (readValue fuel cs).bind fun item =>
            match skipSpace item.2 with
            | ',' :: rest => (readMembers fuel rest).map fun r => ((key.1, item.1) :: r.1, r.2)
            | '}' :: rest => some ([(key.1, item.1)], rest)
            | _ => none
        | _ => none
    | _ => none

end

/-- The value a whole text spells; what is nested in it ends before the text does. -/
def read (text : List Char) : Option JsonValue :=
  match readValue number (text.length + 1) text with
  | some (value, rest) => if skipSpace rest = [] then some value else none
  | none => none

end Reader

/-! ## Properties -/

/-- The index that a name is, if it is one. -/
def arrayIndex (name : JsString) : Option ℕ :=
  if name ≠ [] ∧ name.all JsString.isDigit ∧ (name = JsString.lit "0" ∨ name.head? ≠ some 0x30) ∧
      JsString.decimal name < 2 ^ 32 - 1 then some (JsString.decimal name)
  else none

/-- A property is set: one that is there keeps its place. -/
def setMember (members : List (JsString × JsonValue)) (member : JsString × JsonValue) :
    List (JsString × JsonValue) :=
  if member.1 ∈ members.map Prod.fst then
    members.map fun m => if m.1 = member.1 then member else m
  else members ++ [member]

/-- The properties in their order: indices first, by their size. -/
def ownMembers (members : List (JsString × JsonValue)) : List (JsString × JsonValue) :=
  let members := members.foldl setMember []
  (members.filter fun m => (arrayIndex m.1).isSome).insertionSort
      (fun m m' => (arrayIndex m.1).getD 0 ≤ (arrayIndex m'.1).getD 0) ++
    members.filter fun m => (arrayIndex m.1).isNone

mutual

/-- The value with its properties, for one with the members of a text. -/
def withProperties : JsonValue → JsonValue
  | .array items => .array (withPropertiesItems items)
  | .object members => .object (ownMembers (withPropertiesMembers members))
  | value => value

def withPropertiesItems : List JsonValue → List JsonValue
  | [] => []
  | item :: items => withProperties item :: withPropertiesItems items

def withPropertiesMembers :
    List (JsString × JsonValue) → List (JsString × JsonValue)
  | [] => []
  | (key, value) :: members => (key, withProperties value) :: withPropertiesMembers members

end

/-- `JSON.parse`; `none` where it throws. -/
def parse (number : List Char → JsNumber) (text : List Char) : Option JsonValue :=
  (read number text).map withProperties

/-! ## Writing -/

section Writer

variable (numberToString : ℚ → List Char)

/-- `JSON.stringify` of a number. -/
def stringifyNumber : JsNumber → List Char
  | .finite value => numberToString value
  | .negativeZero => ['0']
  | .infinite _ => "null".toList

mutual

/-- `JSON.stringify`. -/
def stringify : JsonValue → List Char
  | .null => "null".toList
  | .bool b => (if b then "true" else "false").toList
  | .number n => stringifyNumber numberToString n
  | .string s => JsString.quote s
  | .array items => '[' :: [','].intercalate (stringifyItems items) ++ [']']
  | .object members => '{' :: [','].intercalate (stringifyMembers members) ++ ['}']

def stringifyItems : List JsonValue → List (List Char)
  | [] => []
  | item :: items => stringify item :: stringifyItems items

def stringifyMembers : List (JsString × JsonValue) → List (List Char)
  | [] => []
  | (key, value) :: members =>
    (JsString.quote key ++ ':' :: stringify value) :: stringifyMembers members

end

end Writer

end JsonReader
