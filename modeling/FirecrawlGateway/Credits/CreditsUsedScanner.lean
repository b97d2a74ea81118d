import Mathlib.Tactic

/-!
# The `creditsUsed` scanner

Model of `CreditsUsedScanner`, `extractCreditsUsed` and `observeCreditsUsedStream` in
`apps/api/src/credits/credit-routing.service.ts`. The scanner is a byte automaton;
`processByte` follows the source branch by branch, and `push` is its chunk loop with the
cached quote and backslash positions. Bytes are the numbers a `Uint8Array` yields.
-/

namespace FirecrawlGateway
namespace CreditsUsedScanner

/-! ## Constants and byte classes -/

/-- `CREDITS_USED_KEY`. -/
def creditsUsedKey : List Char := "creditsUsed".toList

/-- `METADATA_KEY`. -/
def metadataKey : List Char := "metadata".toList

/-- `MAX_SAFE_CREDITS_USED`, which is `Number.MAX_SAFE_INTEGER`. -/
def maxSafeCreditsUsed : ℕ := 2 ^ 53 - 1

/-- `MAX_SCANNED_KEY_LENGTH`. -/
def maxScannedKeyLength : ℕ := max creditsUsedKey.length metadataKey.length

def isJsonWhitespace (byte : ℕ) : Bool :=
  byte = 9 || byte = 10 || byte = 13 || byte = 32

def isJsonDelimiter (byte : ℕ) : Bool :=
  byte = 44 || byte = 93 || byte = 125

/-! ## The scanner state -/

/-- `CreditsUsedScanState`. -/
inductive ScanState
  | outside
  | string
  | afterKey
  | afterColon
  | digits
  | afterDigits
deriving DecidableEq, Repr

/-- The private fields of `CreditsUsedScanner`, and the values `onFound` was called with. -/
structure Scanner where
  state : ScanState := .outside
  escaped : Bool := false
  candidate : List Char := []
  hasEscape : Bool := false
  pendingKey : Option (List Char) := none
  value : ℕ := 0
  overflow : Bool := false
  found : Bool := false
  objectDepth : ℕ := 0
  arrayDepth : ℕ := 0
  metadataObjectDepth : Option ℕ := none
  metadataArrayDepth : Option ℕ := none
  calls : List ℕ := []
deriving DecidableEq, Repr

/-! ## One byte -/

/-- What one string byte adds to `candidate`: itself when printable, else `\0` in two
characters (the source writes `"\\0"`). -/
def candidateChars (byte : ℕ) : List Char :=
  if byte ≥ 32 ∧ byte ≤ 126 then [Char.ofNat byte] else ['\\', '0']

/-- The closing-brace part of `updateContainerDepth`: `Math.max(0, depth - 1)` is `-` on `ℕ`. -/
def closeObject (s : Scanner) : Scanner :=
  if s.metadataObjectDepth = some s.objectDepth then
    { s with metadataObjectDepth := none, metadataArrayDepth := none,
             objectDepth := s.objectDepth - 1 }
  else { s with objectDepth := s.objectDepth - 1 }

def updateContainerDepth (s : Scanner) (byte : ℕ) : Scanner :=
  if byte = 123 then { s with objectDepth := s.objectDepth + 1 }
  else if byte = 91 then { s with arrayDepth := s.arrayDepth + 1 }
  else if byte = 125 then closeObject s
  else if byte = 93 then { s with arrayDepth := s.arrayDepth - 1 }
  else s

def emitValue (s : Scanner) : Scanner :=
  -- a number that is too large is passed over, and a later member may still be found
  if s.overflow then s else { s with found := true, calls := s.calls ++ [s.value] }

/-- `processByte` in state `outside`. -/
def processOutside (s : Scanner) (byte : ℕ) : Scanner × Bool :=
  if byte = 34 then ({ s with state := .string, candidate := [], hasEscape := false }, false)
  else (updateContainerDepth s byte, false)

/-- `processByte` in state `string`. -/
def processString (s : Scanner) (byte : ℕ) : Scanner × Bool :=
  if s.escaped then ({ s with escaped := false, hasEscape := true }, false)
  else if byte = 92 then ({ s with escaped := true, hasEscape := true }, false)
  else if byte = 34 then
    ({ s with pendingKey := if s.hasEscape then none else some s.candidate,
              state := .afterKey }, false)
  else if s.candidate.length ≤ maxScannedKeyLength then
    ({ s with candidate := s.candidate ++ candidateChars byte }, false)
  else (s, false)

/-- `processByte` in state `after-key`. -/
def processAfterKey (s : Scanner) (byte : ℕ) : Scanner × Bool :=
  if isJsonWhitespace byte then (s, false)
  else if byte = 58 then ({ s with state := .afterColon }, false)
  else ({ s with pendingKey := none, state := .outside }, true)

/-- The `metadataValue` flag: the byte opens the value of a root-level `metadata` member. -/
def opensMetadata (s : Scanner) (byte : ℕ) : Bool :=
  s.pendingKey = some metadataKey && s.objectDepth = 1 && s.arrayDepth = 0 && byte = 123

/-- `processByte` in state `after-colon`, on an opening brace or bracket. -/
def openContainer (s : Scanner) (byte : ℕ) : Scanner :=
  let metadataValue := opensMetadata s byte
  let s := updateContainerDepth s byte
  let s := if metadataValue then
      { s with metadataObjectDepth := some s.objectDepth,
               metadataArrayDepth := some s.arrayDepth }
    else s
  { s with pendingKey := none, state := .outside }

/-- The byte starts a number that is a direct `creditsUsed` member of `metadata`. -/
def startsDigits (s : Scanner) (byte : ℕ) : Bool :=
  byte ≥ 48 && byte ≤ 57 && s.pendingKey = some creditsUsedKey &&
    s.metadataObjectDepth = some s.objectDepth && s.metadataArrayDepth = some s.arrayDepth

/-- `processByte` in state `after-colon`. -/
def processAfterColon (s : Scanner) (byte : ℕ) : Scanner × Bool :=
  if isJsonWhitespace byte then (s, false)
  else if byte = 123 || byte = 91 then (openContainer s byte, false)
  else if startsDigits s byte then
    -- the first digit; a value that is no number to report is scanned again from `outside`
    ({ s with state := .digits, value := byte - 48, overflow := false, pendingKey := none }, false)
  else ({ s with pendingKey := none, state := .outside }, true)

/-- The digit part of `processByte` in state `digits`, with its overflow guard. -/
def pushDigit (s : Scanner) (digit : ℕ) : Scanner :=
  if s.value > (maxSafeCreditsUsed - digit) / 10 then { s with overflow := true }
  else if !s.overflow then { s with value := s.value * 10 + digit }
  else s

/-- A delimiter after the digits: the number is complete. -/
def finishDigits (s : Scanner) (byte : ℕ) : Scanner :=
  { updateContainerDepth (emitValue s) byte with state := .outside }

/-- `processByte` in state `digits`. -/
def processDigits (s : Scanner) (byte : ℕ) : Scanner × Bool :=
  if byte ≥ 48 ∧ byte ≤ 57 then (pushDigit s (byte - 48), false)
  else if isJsonWhitespace byte then ({ s with state := .afterDigits }, false)
  else if isJsonDelimiter byte then (finishDigits s byte, false)
  else ({ s with state := .outside }, true)

/-- `processByte` in state `after-digits`. -/
def processAfterDigits (s : Scanner) (byte : ℕ) : Scanner × Bool :=
  if isJsonWhitespace byte then (s, false)
  else if isJsonDelimiter byte then (finishDigits s byte, false)
  else ({ s with state := .outside }, true)

/-- `processByte`; the flag asks for the same byte to be processed again. -/
def processByte (s : Scanner) (byte : ℕ) : Scanner × Bool :=
  match s.state with
  | .outside => processOutside s byte
  | .string => processString s byte
  | .afterKey => processAfterKey s byte
  | .afterColon => processAfterColon s byte
  | .digits => processDigits s byte
  | .afterDigits => processAfterDigits s byte

/-- `while (processAgain && !this.found) processAgain = this.processByte(byte)`, for at most
`fuel` rounds; `processAgain_fuel` shows that two are always enough. -/
def processAgain (byte : ℕ) : ℕ → Scanner → Scanner
  | 0, s => s
  | fuel + 1, s =>
    if s.found then s
    else
      match processByte s byte with
      | (s, true) => processAgain byte fuel s
      | (s, false) => s

/-- One byte, processed again as long as `processByte` asks for it. -/
def feedByte (s : Scanner) (byte : ℕ) : Scanner := processAgain byte 2 s

/-- The automaton with no skipping: every byte through `processByte`. -/
def feed (s : Scanner) (bytes : List ℕ) : Scanner := bytes.foldl feedByte s

/-! ## Chunks -/

/-- `chunk.indexOf(byte, start)`: `-1` when there is none. -/
def indexOf (chunk : List ℕ) (byte start : ℕ) : ℤ :=
  match (chunk.drop start).findIdx? (· = byte) with
  | some k => ((start + k : ℕ) : ℤ)
  | none => -1

/-- A cached position, searched again only once it is consumed (`-2`: not searched yet). -/
def refresh (chunk : List ℕ) (byte i : ℕ) (next : ℤ) : ℤ :=
  if next ≠ -1 ∧ next < i then indexOf chunk byte i else next

/-- `end`: the next quote or backslash, or the end of the chunk. -/
def skipEnd (chunk : List ℕ) (nextQuote nextBackslash : ℤ) : ℤ :=
  let stop := if nextQuote = -1 then (chunk.length : ℤ) else nextQuote
  if nextBackslash ≠ -1 ∧ nextBackslash < stop then nextBackslash else stop

/-- The inner `for` loop: string bytes added to `candidate` until it is too long to be a key. -/
def extendCandidate (candidate : List Char) : List ℕ → List Char
  | [] => candidate
  | byte :: bytes =>
    if candidate.length ≤ maxScannedKeyLength then
      extendCandidate (candidate ++ candidateChars byte) bytes
    else candidate

/-- The bytes of `chunk` from `i` up to `stop`. -/
def slice (chunk : List ℕ) (i stop : ℕ) : List ℕ := (chunk.take stop).drop i

/-- The `while (i < length)` loop of `push`, for at most `fuel` rounds. -/
def pushLoop (chunk : List ℕ) : ℕ → Scanner → ℕ → ℤ → ℤ → Scanner
  | 0, s, _, _, _ => s
  | fuel + 1, s, i, nextQuote, nextBackslash =>
    if i < chunk.length then
      if s.state = .string ∧ s.escaped = false then
        let nextQuote := refresh chunk 34 i nextQuote
        let nextBackslash := refresh chunk 92 i nextBackslash
        let stop := (skipEnd chunk nextQuote nextBackslash).toNat
        -- the bytes up to `stop` only grow the candidate; the byte there goes through the automaton
        let s := { s with candidate := extendCandidate s.candidate (slice chunk i stop) }
        match chunk[stop]? with
        | none => s
        | some byte =>
          let s := feedByte s byte
          if s.found then s else pushLoop chunk fuel s (stop + 1) nextQuote nextBackslash
      else
        match chunk[i]? with
        | none => s
        | some byte =>
          let s := feedByte s byte
          if s.found then s else pushLoop chunk fuel s (i + 1) nextQuote nextBackslash
    else s

/-- `push`. Every round consumes a byte, so the length of the chunk is fuel enough. -/
def push (s : Scanner) (chunk : List UInt8) : Scanner :=
  if s.found then s
  else
    let bytes := chunk.map UInt8.toNat
    pushLoop bytes bytes.length s 0 (-2) (-2)

/-- `extractCreditsUsed`: the last value `onFound` was called with. -/
def extractCreditsUsed (body : List UInt8) : Option ℕ := (push {} body).calls.getLast?

/-- The `transform` of `observeCreditsUsedStream` over the chunks of a stream: the chunks it
enqueues, and the values `onCreditsUsed` is called with. -/
def observeCreditsUsedStream (chunks : List (List UInt8)) : List (List UInt8) × List ℕ :=
  let (enqueued, scanner) := chunks.foldl
    (fun (enqueued, scanner) chunk => (enqueued ++ [chunk], push scanner chunk)) ([], {})
  (enqueued, scanner.calls)

end CreditsUsedScanner
end FirecrawlGateway
