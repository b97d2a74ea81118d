import Mathlib.Data.Bool.AllAny
import FirecrawlGateway.Credits.CreditsUsedScannerTheorems
import FirecrawlGateway.Lib.JsonText

/-!
# The scanner along a JSON text

`textCredits` says what the scanner is for: the value of the first `creditsUsed` member of a
root-level `metadata` object that is a plain natural number. The scanner only counts braces
and brackets, so its run is described by where it stands: `AtValue` where a value starts,
`AfterValue` where one ends, at the same depths. This module has one lemma per token.
-/

namespace FirecrawlGateway
namespace CreditsUsedScanner

open JsonText

/-! ## The value to report -/

/-- The member is spelled `name`, without escapes. -/
def isNamed (name : List Char) (m : StringToken × Value) : Bool := m.1.unescaped = some name

/-- The number a `creditsUsed` member reports: decimal digits only, and at most
`Number.MAX_SAFE_INTEGER`. -/
def memberCredits (m : StringToken × Value) : Option ℕ :=
  if isNamed creditsUsedKey m then
    match m.2 with
    | .number n => n.natural.filter (· ≤ maxSafeCreditsUsed)
    | _ => none
  else none

/-- The direct members of the root-level `metadata` objects, in document order. -/
def metadataMembers (root : List (StringToken × Value)) : List (StringToken × Value) :=
  (root.filter (isNamed metadataKey)).flatMap fun m => m.2.members

/-- The value to report for a JSON text, if there is one. -/
def textCredits (t : Text) : Option ℕ := (metadataMembers t.root.members).findSome? memberCredits

/-! ## Depths -/

/-- The container counters of a scanner. -/
structure Depths where
  object : ℕ
  array : ℕ
  metadataObject : Option ℕ
  metadataArray : Option ℕ

def depths (s : Scanner) : Depths :=
  ⟨s.objectDepth, s.arrayDepth, s.metadataObjectDepth, s.metadataArrayDepth⟩

/-- `updateContainerDepth` on the counters alone. -/
def Depths.update (d : Depths) (byte : ℕ) : Depths :=
  if byte = 123 then { d with object := d.object + 1 }
  else if byte = 91 then { d with array := d.array + 1 }
  else if byte = 125 then
    if d.metadataObject = some d.object then ⟨d.object - 1, d.array, none, none⟩
    else { d with object := d.object - 1 }
  else if byte = 93 then { d with array := d.array - 1 }
  else d

lemma depths_updateContainerDepth (s : Scanner) (byte : ℕ) :
    depths (updateContainerDepth s byte) = (depths s).update byte := by
  unfold updateContainerDepth Depths.update closeObject depths
  split_ifs <;> rfl

/-- A position from which neither `metadata` nor one of its members can be reached without
closing a container. -/
def Deep (d : Depths) : Prop :=
  (d.metadataObject = none ∧ d.metadataArray = none ∧ (1 ≤ d.array ∨ 2 ≤ d.object)) ∨
  (d.metadataObject = some 2 ∧ d.metadataArray = some 0 ∧ 2 ≤ d.object ∧
    (3 ≤ d.object ∨ 1 ≤ d.array))

lemma Deep.update_open {d : Depths} (h : Deep d) {byte : ℕ} (hb : byte = 123 ∨ byte = 91) :
    Deep (d.update byte) := by
  rcases hb with rfl | rfl <;> rcases h with ⟨hmo, hma, hdepth⟩ | ⟨hmo, hma, htwo, hdepth⟩
  · exact Or.inl ⟨hmo, hma, by simp [Depths.update]; omega⟩
  · exact Or.inr ⟨hmo, hma, by simp [Depths.update]; omega, by simp [Depths.update]; omega⟩
  · exact Or.inl ⟨hmo, hma, by simp [Depths.update]⟩
  · exact Or.inr ⟨hmo, hma, htwo, by simp [Depths.update]⟩

/-- Closing an object that was opened deep inside gives the counters back. -/
lemma Deep.update_close {d : Depths} (h : Deep d) : (d.update 123).update 125 = d := by
  have hne : d.metadataObject ≠ some (d.object + 1) := by
    rcases h with ⟨hmo, -⟩ | ⟨hmo, -, htwo, -⟩ <;> rw [hmo] <;> simp
    omega
  simp [Depths.update, hne]

lemma update_array (d : Depths) : (d.update 91).update 93 = d := by
  simp [Depths.update]

/-! ## Where the scanner stands -/

/-- Nothing has been found, and the counters are `d`. -/
structure Live (s : Scanner) (d : Depths) : Prop where
  found : s.found = false
  calls : s.calls = []
  escaped : s.escaped = false
  depths : depths s = d

/-- The scanner is outside strings, keys and numbers. -/
def Ready (s : Scanner) (d : Depths) : Prop := Live s d ∧ s.state = .outside

/-- A value may start here; after a name separator, `key` is the name it belongs to. -/
def AtValue (s : Scanner) (d : Depths) (key : Option (List Char)) : Prop :=
  Live s d ∧ ((s.state = .outside ∧ key = none) ∨ (s.state = .afterColon ∧ s.pendingKey = key))

/-- A value has ended here; `e` is the number that the next delimiter will report. -/
def AfterValue (s : Scanner) (d : Depths) (e : Option ℕ) : Prop :=
  Live s d ∧ (((s.state = .outside ∨ s.state = .afterKey) ∧ e = none) ∨
    ((s.state = .digits ∨ s.state = .afterDigits) ∧
      e = if s.overflow then none else some s.value))

/-- `v` was found and reported. -/
def Done (s : Scanner) (v : ℕ) : Prop := s.found = true ∧ s.calls = [v]

/-- After a delimiter: a pending number was reported, else the scanner moves on. -/
def Delimited (s : Scanner) (d : Depths) : Option ℕ → Prop
  | some v => Done s v
  | none => Ready s d

lemma Ready.atValue {s : Scanner} {d : Depths} (h : Ready s d) : AtValue s d none :=
  ⟨h.1, Or.inl ⟨h.2, rfl⟩⟩

lemma Ready.afterValue {s : Scanner} {d : Depths} (h : Ready s d) : AfterValue s d none :=
  ⟨h.1, Or.inl ⟨Or.inl h.2, rfl⟩⟩

lemma Done.feed {s : Scanner} {v : ℕ} (h : Done s v) (bytes : List ℕ) : Done (feed s bytes) v := by
  rwa [feed_of_found h.1]

/-! ## Bytes outside -/

/-- Outside, only quotes, braces and brackets matter. -/
lemma Ready.feedByte {s : Scanner} {d : Depths} (h : Ready s d) {byte : ℕ} (hb : byte ≠ 34) :
    Ready (feedByte s byte) (d.update byte) := by
  have hp : processByte s byte = (updateContainerDepth s byte, false) := by
    simp [processByte, h.2, processOutside, hb]
  rw [feedByte_once h.1.found hp]
  obtain ⟨hfound, hcalls⟩ := updateContainerDepth_calls s byte
  refine ⟨⟨hfound.trans h.1.found, hcalls.trans h.1.calls, ?_, ?_⟩, ?_⟩
  · have : (updateContainerDepth s byte).escaped = s.escaped := by
      unfold updateContainerDepth closeObject
      split_ifs <;> rfl
    rw [this, h.1.escaped]
  · rw [depths_updateContainerDepth, h.1.depths]
  · have : (updateContainerDepth s byte).state = s.state := by
      unfold updateContainerDepth closeObject
      split_ifs <;> rfl
    rw [this, h.2]

/-- A byte that is no quote, brace or bracket. -/
def Inert (byte : ℕ) : Prop := byte ≠ 34 ∧ byte ≠ 123 ∧ byte ≠ 91 ∧ byte ≠ 125 ∧ byte ≠ 93

lemma Inert.update {byte : ℕ} (h : Inert byte) (d : Depths) : d.update byte = d := by
  obtain ⟨-, h1, h2, h3, h4⟩ := h
  simp [Depths.update, h1, h2, h3, h4]

lemma Ready.feed_inert {s : Scanner} {d : Depths} (h : Ready s d) {bytes : List ℕ}
    (hb : ∀ byte ∈ bytes, Inert byte) : Ready (feed s bytes) d := by
  induction bytes generalizing s with
  | nil => exact h
  | cons byte bytes ih =>
    obtain ⟨hbyte, hrest⟩ := List.forall_mem_cons.mp hb
    rw [feed_cons]
    have := h.feedByte hbyte.1
    rw [hbyte.update] at this
    exact ih this hrest

/-! ## Whitespace -/

lemma Ws.isJsonWhitespace (w : Ws) : isJsonWhitespace w.byte = true := by
  cases w <;> rfl

lemma Ws.inert (w : Ws) : Inert w.byte := by
  cases w <;> simp [Inert, Ws.byte]

/-- The state keeps waiting over whitespace. -/
lemma feedByte_ws {s : Scanner} (hfound : s.found = false)
    (hstate : s.state = .afterKey ∨ s.state = .afterColon ∨ s.state = .afterDigits) (w : Ws) :
    feedByte s w.byte = s := by
  apply feedByte_once hfound
  rcases hstate with hs | hs | hs <;>
    simp [processByte, hs, processAfterKey, processAfterColon, processAfterDigits,
      Ws.isJsonWhitespace]

lemma feed_ws {s : Scanner} (hfound : s.found = false)
    (hstate : s.state = .afterKey ∨ s.state = .afterColon ∨ s.state = .afterDigits) (ws : Space) :
    feed s ws.bytes = s := by
  induction ws with
  | nil => rfl
  | cons w ws ih => rw [Space.bytes, List.map_cons, feed_cons, feedByte_ws hfound hstate]; exact ih

lemma Ready.feed_ws {s : Scanner} {d : Depths} (h : Ready s d) (ws : Space) :
    Ready (feed s ws.bytes) d := by
  refine h.feed_inert fun byte hbyte => ?_
  obtain ⟨w, -, rfl⟩ := List.mem_map.mp hbyte
  exact Ws.inert w

lemma AtValue.feed_ws {s : Scanner} {d : Depths} {key : Option (List Char)}
    (h : AtValue s d key) (ws : Space) : AtValue (feed s ws.bytes) d key := by
  rcases h with ⟨hl, ⟨hs, rfl⟩ | ⟨hs, hk⟩⟩
  · exact (Ready.feed_ws ⟨hl, hs⟩ ws).atValue
  · rw [CreditsUsedScanner.feed_ws hl.found (by simp [hs])]
    exact ⟨hl, Or.inr ⟨hs, hk⟩⟩

lemma AfterValue.feed_ws {s : Scanner} {d : Depths} {e : Option ℕ} (h : AfterValue s d e)
    (ws : Space) : AfterValue (feed s ws.bytes) d e := by
  obtain ⟨hl, hcase⟩ := h
  cases ws with
  | nil => exact ⟨hl, hcase⟩
  | cons w ws =>
    rcases hcase with ⟨hs | hs, rfl⟩ | ⟨hs | hs, he⟩
    · exact (Ready.feed_ws ⟨hl, hs⟩ (w :: ws)).afterValue
    · rw [CreditsUsedScanner.feed_ws hl.found (by simp [hs])]
      exact ⟨hl, Or.inl ⟨Or.inr hs, rfl⟩⟩
    · -- the first whitespace after digits ends the number, the rest changes nothing
      have hdigit : ¬ (w.byte ≥ 48 ∧ w.byte ≤ 57) := by cases w <;> simp [Ws.byte]
      have hp : processByte s w.byte = ({ s with state := .afterDigits }, false) := by
        simp only [processByte, hs, processDigits]
        rw [if_neg hdigit, if_pos (Ws.isJsonWhitespace w)]
      rw [Space.bytes, List.map_cons, feed_cons, feedByte_once hl.found hp]
      have hrest := CreditsUsedScanner.feed_ws (s := { s with state := .afterDigits }) hl.found
        (by simp) ws
      rw [Space.bytes] at hrest
      rw [hrest]
      exact ⟨⟨hl.found, hl.calls, hl.escaped, hl.depths⟩, Or.inr ⟨Or.inr rfl, he⟩⟩
    · rw [CreditsUsedScanner.feed_ws hl.found (by simp [hs])]
      exact ⟨hl, Or.inr ⟨Or.inr hs, he⟩⟩

/-! ## Where values start and end -/

/-- A number here, under this name, is one to report. -/
def ReportsHere (d : Depths) (key : Option (List Char)) : Prop :=
  key = some creditsUsedKey ∧ d.metadataObject = some d.object ∧ d.metadataArray = some d.array

/-- Outside a number to report, the first byte of a value is read as if there were no key. -/
lemma AtValue.exists_ready {s : Scanner} {d : Depths} {key : Option (List Char)}
    (h : AtValue s d key) {byte : ℕ} (hws : isJsonWhitespace byte = false)
    (hopen : byte ≠ 123 ∧ byte ≠ 91) (hdigits : ¬ (48 ≤ byte ∧ byte ≤ 57 ∧ ReportsHere d key)) :
    ∃ t, Ready t d ∧ feedByte s byte = feedByte t byte := by
  rcases h with ⟨hl, ⟨hs, -⟩ | ⟨hs, rfl⟩⟩
  · exact ⟨s, ⟨hl, hs⟩, rfl⟩
  · -- after a colon the key is dropped, and the byte is processed again from `outside`
    obtain ⟨rfl⟩ : d = depths s := hl.depths.symm
    have hstarts : startsDigits s byte = false := by
      rw [Bool.eq_false_iff]
      intro hs'
      simp only [startsDigits, Bool.and_eq_true, decide_eq_true_eq] at hs'
      obtain ⟨⟨⟨⟨h48, h57⟩, hk⟩, ho⟩, ha⟩ := hs'
      exact hdigits ⟨h48, h57, hk, ho, ha⟩
    refine ⟨{ s with pendingKey := none, state := .outside },
      ⟨⟨hl.found, hl.calls, hl.escaped, hl.depths⟩, rfl⟩, feedByte_again hl.found ?_⟩
    simp [processByte, hs, processAfterColon, hws, hopen, hstarts]

/-- A value of bytes that mean nothing to the scanner, such as a literal. -/
lemma AtValue.feed_inert {s : Scanner} {d : Depths} {key : Option (List Char)}
    (h : AtValue s d key) {byte : ℕ} {bytes : List ℕ} (hws : isJsonWhitespace byte = false)
    (hdigits : ¬ (48 ≤ byte ∧ byte ≤ 57 ∧ ReportsHere d key))
    (hb : ∀ b ∈ byte :: bytes, Inert b) : Ready (feed s (byte :: bytes)) d := by
  have hfirst : Inert byte := hb byte List.mem_cons_self
  obtain ⟨t, ht, heq⟩ := h.exists_ready hws ⟨hfirst.2.1, hfirst.2.2.1⟩ hdigits
  rw [feed_cons, heq, ← feed_cons]
  exact ht.feed_inert hb

/-- Where the counters stand after an opening brace; `metadata` is marked at the root only. -/
def openedObject (d : Depths) (key : Option (List Char)) : Depths :=
  if key = some metadataKey ∧ d.object = 1 ∧ d.array = 0 then ⟨2, 0, some 2, some 0⟩
  else d.update 123

lemma AtValue.openObject {s : Scanner} {d : Depths} {key : Option (List Char)}
    (h : AtValue s d key) : Ready (CreditsUsedScanner.feedByte s 123) (openedObject d key) := by
  rcases h with ⟨hl, ⟨hs, rfl⟩ | ⟨hs, rfl⟩⟩
  · simpa [openedObject] using Ready.feedByte ⟨hl, hs⟩ (show 123 ≠ 34 by decide)
  · have hp : processByte s 123 = (openContainer s 123, false) := by
      simp [processByte, hs, processAfterColon, isJsonWhitespace]
    rw [feedByte_once hl.found hp]
    have hd := hl.depths
    obtain ⟨rfl⟩ : d = depths s := hd.symm
    by_cases hm : s.pendingKey = some metadataKey ∧ s.objectDepth = 1 ∧ s.arrayDepth = 0
    · obtain ⟨hk, ho, ha⟩ := hm
      refine ⟨⟨?_, ?_, ?_, ?_⟩, ?_⟩ <;>
        simp [openContainer, opensMetadata, updateContainerDepth, openedObject, depths, hk, ho, ha,
          hl.found, hl.calls, hl.escaped]
    · have hflag : opensMetadata s 123 = false := by
        simp only [opensMetadata, Bool.and_eq_false_iff, decide_eq_false_iff_not]
        tauto
      have hopened : openedObject (depths s) s.pendingKey = (depths s).update 123 := if_neg hm
      rw [hopened]
      refine ⟨⟨?_, ?_, ?_, ?_⟩, ?_⟩ <;>
        simp [openContainer, hflag, updateContainerDepth, Depths.update, depths, hl.found,
          hl.calls, hl.escaped]

lemma AtValue.openArray {s : Scanner} {d : Depths} {key : Option (List Char)}
    (h : AtValue s d key) : Ready (CreditsUsedScanner.feedByte s 91) (d.update 91) := by
  rcases h with ⟨hl, ⟨hs, rfl⟩ | ⟨hs, rfl⟩⟩
  · exact Ready.feedByte ⟨hl, hs⟩ (by decide)
  · have hp : processByte s 91 = (openContainer s 91, false) := by
      simp [processByte, hs, processAfterColon, isJsonWhitespace]
    rw [feedByte_once hl.found hp]
    obtain ⟨rfl⟩ : d = depths s := hl.depths.symm
    have hflag : opensMetadata s 91 = false := by simp [opensMetadata]
    refine ⟨⟨?_, ?_, ?_, ?_⟩, ?_⟩ <;>
      simp [openContainer, hflag, updateContainerDepth, Depths.update, depths, hl.found,
        hl.calls, hl.escaped]

/-- A delimiter after a value reports the pending number, or moves on. -/
lemma AfterValue.feedByte {s : Scanner} {d : Depths} {e : Option ℕ} (h : AfterValue s d e)
    (byte : ℕ) (hb : byte = 44 ∨ byte = 93 ∨ byte = 125) :
    Delimited (CreditsUsedScanner.feedByte s byte) (d.update byte) e := by
  have hq : byte ≠ 34 := by omega
  have hws : isJsonWhitespace byte = false := by rcases hb with rfl | rfl | rfl <;> rfl
  have hdelim : isJsonDelimiter byte = true := by rcases hb with rfl | rfl | rfl <;> rfl
  have hdigit : ¬ (byte ≥ 48 ∧ byte ≤ 57) := by rcases hb with rfl | rfl | rfl <;> omega
  obtain ⟨hl, hcase⟩ := h
  rcases hcase with ⟨hs | hs, rfl⟩ | ⟨hs, rfl⟩
  · exact Ready.feedByte ⟨hl, hs⟩ hq
  · have hcolon : byte ≠ 58 := by omega
    have hp : processByte s byte = ({ s with pendingKey := none, state := .outside }, true) := by
      simp [processByte, hs, processAfterKey, hws, hcolon]
    rw [feedByte_again hl.found hp]
    exact Ready.feedByte (s := { s with pendingKey := none, state := .outside })
      ⟨⟨hl.found, hl.calls, hl.escaped, hl.depths⟩, rfl⟩ hq
  · have hp : processByte s byte = (finishDigits s byte, false) := by
      rcases hs with hs | hs <;>
        simp only [processByte, hs, processDigits, processAfterDigits, hws, hdelim, if_true] <;>
        simp [hdigit]
    rw [feedByte_once hl.found hp]
    obtain ⟨hfound, hcalls⟩ := updateContainerDepth_calls (emitValue s) byte
    by_cases hover : s.overflow = true
    · rw [if_pos hover]
      have hemit : emitValue s = s := by simp [emitValue, hover]
      have hready := Ready.feedByte (s := { s with state := .outside })
        ⟨⟨hl.found, hl.calls, hl.escaped, hl.depths⟩, rfl⟩ hq
      have hsame : finishDigits s byte =
          CreditsUsedScanner.feedByte { s with state := .outside } byte := by
        have hp' : processByte { s with state := .outside } byte =
            (updateContainerDepth { s with state := .outside } byte, false) := by
          simp [processByte, processOutside, hq]
        rw [feedByte_once (s := { s with state := .outside }) hl.found hp', finishDigits, hemit]
        unfold updateContainerDepth closeObject
        split_ifs <;> rfl
      rw [hsame]
      exact hready
    · rw [if_neg hover]
      have hover' : s.overflow = false := by simpa using hover
      refine ⟨?_, ?_⟩
      · show (updateContainerDepth (emitValue s) byte).found = true
        rw [hfound]
        simp [emitValue, hover']
      · show (updateContainerDepth (emitValue s) byte).calls = [s.value]
        rw [hcalls]
        simp [emitValue, hover', hl.calls]

/-! ## Strings -/

lemma extendCandidate_append (candidate : List Char) (as bs : List ℕ) :
    extendCandidate candidate (as ++ bs) = extendCandidate (extendCandidate candidate as) bs := by
  induction as generalizing candidate with
  | nil => rfl
  | cons a as ih => rw [List.cons_append, extendCandidate_cons, ih, ← extendCandidate_cons]

/-- The scanner is inside a string that so far has these bytes and no escape (`none`: it has
an escape). -/
def InString (s : Scanner) (d : Depths) (bytes : Option (List ℕ)) : Prop :=
  Live s d ∧ s.state = .string ∧
    match bytes with
    | some bytes => s.hasEscape = false ∧ s.candidate = extendCandidate [] bytes
    | none => s.hasEscape = true

lemma Ready.openString {s : Scanner} {d : Depths} (h : Ready s d) :
    InString (CreditsUsedScanner.feedByte s 34) d (some []) := by
  have hp : processByte s 34 =
      ({ s with state := .string, candidate := [], hasEscape := false }, false) := by
    simp [processByte, h.2, processOutside]
  rw [feedByte_once h.1.found hp]
  exact ⟨⟨h.1.found, h.1.calls, h.1.escaped, h.1.depths⟩, rfl, rfl, rfl⟩

/-- Bytes other than quote and backslash extend the string. -/
lemma InString.feed_plain {s : Scanner} {d : Depths} {bytes : Option (List ℕ)}
    (h : InString s d bytes) {more : List ℕ} (hmore : ∀ byte ∈ more, byte ≠ 34 ∧ byte ≠ 92) :
    InString (feed s more) d (bytes.map (· ++ more)) := by
  obtain ⟨hl, hs, hbytes⟩ := h
  rw [CreditsUsedScanner.feed_plain hl.found hs hl.escaped more hmore]
  refine ⟨⟨hl.found, hl.calls, hl.escaped, hl.depths⟩, hs, ?_⟩
  cases bytes with
  | none => exact hbytes
  | some bytes =>
    obtain ⟨hesc, hcand⟩ := hbytes
    exact ⟨hesc, by rw [extendCandidate_append, ← hcand]⟩

lemma utf8_plain {c : Char} (h : 32 ≤ c.toNat ∧ c.toNat ≠ 34 ∧ c.toNat ≠ 92) :
    ∀ byte ∈ utf8 c, byte ≠ 34 ∧ byte ≠ 92 := by
  intro byte hbyte
  by_cases hc : c.toNat < 128
  · rw [utf8_of_ascii hc, List.mem_singleton] at hbyte
    exact hbyte ▸ h.2
  · have := utf8_of_not_ascii (not_lt.mp hc) byte hbyte
    omega

lemma escape_tail_plain (e : Escape) : ∀ byte ∈ e.tail, byte ≠ 34 ∧ byte ≠ 92 := by
  cases e with
  | unicode h₁ h₂ h₃ h₄ =>
    have hhex : ∀ x : HexDigit, x.byte ≠ 34 ∧ x.byte ≠ 92 := fun x => by
      have := x.isHex
      omega
    simp only [Escape.tail, List.forall_mem_cons]
    exact ⟨hhex h₁, hhex h₂, hhex h₃, hhex h₄, by simp⟩
  | _ => simp [Escape.tail]

/-- An escape marks the string for good. -/
lemma InString.feed_escape {s : Scanner} {d : Depths} {bytes : Option (List ℕ)}
    (h : InString s d bytes) (e : Escape) :
    InString (feed s (92 :: e.head :: e.tail)) d none := by
  obtain ⟨hl, hs, -⟩ := h
  have hfirst : feedByte s 92 = { s with escaped := true, hasEscape := true } := by
    apply feedByte_once hl.found
    simp [processByte, hs, processString, hl.escaped]
  have hsecond : feedByte { s with escaped := true, hasEscape := true } e.head =
      { s with escaped := false, hasEscape := true } :=
    feedByte_once (s := { s with escaped := true, hasEscape := true }) hl.found
      (by simp [processByte, hs, processString])
  rw [feed_cons, feed_cons, hfirst, hsecond]
  have hin : InString { s with escaped := false, hasEscape := true } d none :=
    ⟨⟨hl.found, hl.calls, rfl, hl.depths⟩, hs, rfl⟩
  exact hin.feed_plain (escape_tail_plain e)

/-- The characters of a token, one by one. -/
lemma InString.feed_chars {s : Scanner} {d : Depths} {bytes : Option (List ℕ)}
    (h : InString s d bytes) (cs : StringToken) :
    InString (feed s (cs.flatMap StringChar.bytes)) d
      (bytes.bind fun bytes => cs.unescaped.map fun plain => bytes ++ plain.flatMap utf8) := by
  induction cs generalizing s bytes with
  | nil => cases bytes <;> simpa [StringToken.unescaped] using h
  | cons c cs ih =>
    rw [List.flatMap_cons, feed_append]
    cases c with
    | plain c hc =>
      have := ih (h.feed_plain (utf8_plain hc))
      cases bytes with
      | none => exact this
      | some bytes =>
        cases hcs : StringToken.unescaped cs <;>
          simpa [StringToken.unescaped, StringChar.bytes, hcs] using this
    | escape e =>
      have := ih (h.feed_escape e)
      cases bytes <;> simpa [StringToken.unescaped, StringChar.bytes] using this

/-- What the scanner keeps of a string as a possible member name. -/
def scannedKey (token : StringToken) : Option (List Char) :=
  token.unescaped.map fun plain => extendCandidate [] (plain.flatMap utf8)

/-- A whole string: the scanner waits for a name separator, with the name pending. -/
lemma Ready.feed_string {s : Scanner} {d : Depths} (h : Ready s d) (token : StringToken) :
    Live (feed s token.bytes) d ∧ (feed s token.bytes).state = .afterKey ∧
      (feed s token.bytes).pendingKey = scannedKey token := by
  obtain ⟨hl, hs, hbytes⟩ := (h.openString).feed_chars token
  set t := feed (CreditsUsedScanner.feedByte s 34) (token.flatMap StringChar.bytes) with ht
  have hp : processByte t 34 = ({ t with
      pendingKey := if t.hasEscape then none else some t.candidate, state := .afterKey }, false) := by
    simp [processByte, hs, processString, hl.escaped]
  have heq : feed s token.bytes = { t with
      pendingKey := if t.hasEscape then none else some t.candidate, state := .afterKey } := by
    rw [StringToken.bytes, List.cons_append, feed_cons, feed_append, ← ht, feed_cons, feed_nil,
      feedByte_once hl.found hp]
  rw [heq]
  refine ⟨⟨hl.found, hl.calls, hl.escaped, hl.depths⟩, rfl, ?_⟩
  unfold scannedKey
  cases hu : token.unescaped with
  | none =>
    simp only [hu, Option.bind_some, Option.map_none] at hbytes
    simp [hbytes]
  | some plain =>
    simp only [hu, Option.bind_some, Option.map_some, List.nil_append] at hbytes
    simp [hbytes.1, hbytes.2]

/-- A name the scanner can recognise: printable ASCII without backslash, and short. -/
def Recognisable (name : List Char) : Prop :=
  name.length ≤ maxScannedKeyLength ∧ ∀ c ∈ name, 32 ≤ c.toNat ∧ c.toNat ≤ 126 ∧ c ≠ '\\'

lemma recognisable_creditsUsedKey : Recognisable creditsUsedKey :=
  ⟨by decide, List.all_iff_forall_prop.mp (by decide)⟩

lemma recognisable_metadataKey : Recognisable metadataKey :=
  ⟨by decide, List.all_iff_forall_prop.mp (by decide)⟩

/-- Short candidates are complete. -/
lemma extendCandidate_eq_iff {candidate name : List Char} (hname : name.length ≤ maxScannedKeyLength)
    (bytes : List ℕ) :
    extendCandidate candidate bytes = name ↔ candidate ++ bytes.flatMap candidateChars = name := by
  induction bytes generalizing candidate with
  | nil => simp [extendCandidate]
  | cons byte bytes ih =>
    unfold extendCandidate
    split
    · rw [ih, List.append_assoc, List.flatMap_cons]
    · -- a candidate that stopped growing is longer than any name
      rename_i hlong
      refine iff_of_false (fun h => ?_) (fun h => ?_)
      · exact hlong (h ▸ hname)
      · have := congrArg List.length h
        rw [List.length_append] at this
        omega

lemma toNat_ofNat_ascii {n : ℕ} (h : n ≤ 126) : (Char.ofNat n).toNat = n := by
  have hvalid : n.isValidChar := Or.inl (by omega)
  rw [Char.ofNat, dif_pos hvalid]
  rfl

lemma flatMap_candidateChars_eq_iff {name : List Char}
    (hname : ∀ c ∈ name, 32 ≤ c.toNat ∧ c.toNat ≤ 126 ∧ c ≠ '\\') (bytes : List ℕ) :
    bytes.flatMap candidateChars = name ↔ bytes = name.map Char.toNat := by
  induction bytes generalizing name with
  | nil => cases name <;> simp
  | cons byte bytes ih =>
    rw [List.flatMap_cons]
    by_cases hbyte : byte ≥ 32 ∧ byte ≤ 126
    · have hchars : candidateChars byte = [Char.ofNat byte] := if_pos hbyte
      cases name with
      | nil => simp [hchars]
      | cons c name =>
        obtain ⟨-, hrest⟩ := List.forall_mem_cons.mp hname
        rw [hchars, List.singleton_append, List.map_cons, List.cons.injEq, List.cons.injEq, ih hrest]
        refine and_congr_left' ⟨?_, ?_⟩
        · rintro rfl
          exact (toNat_ofNat_ascii hbyte.2).symm
        · rintro rfl
          exact Char.ofNat_toNat c
    · -- the source's `"\\0"` starts with a backslash, and no name has one
      have hchars : candidateChars byte = ['\\', '0'] := if_neg hbyte
      cases name with
      | nil => simp [hchars]
      | cons c name =>
        obtain ⟨⟨h32, h126, hslash⟩, -⟩ := List.forall_mem_cons.mp hname
        rw [hchars, List.cons_append, List.map_cons, List.cons.injEq, List.cons.injEq]
        refine iff_of_false (fun h => hslash h.1.symm) (fun h => hbyte ?_)
        omega

/-- The scanner recognises exactly the unescaped spelling of a name. -/
lemma scannedKey_eq_iff {name : List Char} (hname : Recognisable name) (token : StringToken) :
    scannedKey token = some name ↔ token.unescaped = some name := by
  have hascii : ∀ c ∈ name, c.toNat < 128 := fun c hc => by
    have := hname.2 c hc
    omega
  unfold scannedKey
  rw [Option.map_eq_some_iff]
  refine ⟨?_, fun h => ⟨name, h, ?_⟩⟩
  · rintro ⟨plain, hplain, heq⟩
    rw [extendCandidate_eq_iff hname.1, List.nil_append, flatMap_candidateChars_eq_iff hname.2,
      flatMap_utf8_eq_iff hascii] at heq
    rw [hplain, heq]
  · rw [extendCandidate_eq_iff hname.1, List.nil_append, flatMap_candidateChars_eq_iff hname.2,
      flatMap_utf8_eq_iff hascii]

/-! ## Scalars -/

lemma AtValue.feed_literal {s : Scanner} {d : Depths} {key : Option (List Char)}
    (h : AtValue s d key) (l : Literal) : Ready (feed s l.bytes) d := by
  cases l <;> exact h.feed_inert (by decide) (by omega) (by simp [Inert])

lemma AtValue.feed_string {s : Scanner} {d : Depths} {key : Option (List Char)}
    (h : AtValue s d key) (token : StringToken) : AfterValue (feed s token.bytes) d none := by
  obtain ⟨t, ht, heq⟩ := h.exists_ready (show isJsonWhitespace 34 = false by decide)
    (by decide) (by omega)
  have hfeed : feed s token.bytes = feed t token.bytes := by
    rw [StringToken.bytes, List.cons_append, feed_cons, heq, ← feed_cons]
  obtain ⟨hl, hs, -⟩ := ht.feed_string token
  rw [hfeed]
  exact ⟨hl, Or.inl ⟨Or.inr hs, rfl⟩⟩

lemma digitBytes_inert (ds : List (Fin 10)) : ∀ b ∈ digitBytes ds, Inert b := by
  intro b hb
  obtain ⟨d, -, rfl⟩ := List.mem_map.mp hb
  unfold Inert
  omega

lemma fracBytes_inert (n : Number) : ∀ b ∈ n.fracBytes, Inert b := by
  unfold Number.fracBytes
  split
  · simp
  · exact List.forall_mem_cons.mpr ⟨by simp [Inert], digitBytes_inert _⟩

lemma expBytes_inert (n : Number) : ∀ b ∈ n.expBytes, Inert b := by
  unfold Number.expBytes
  split
  · simp
  · rename_i capital sign d ds _
    refine List.forall_mem_cons.mpr ⟨by cases capital <;> simp [Inert], ?_⟩
    refine List.forall_mem_append.mpr ⟨?_, digitBytes_inert _⟩
    rcases sign with _ | _ | _ <;> simp [Inert]

/-- The scanner is inside a number to report whose digits so far denote `v`. -/
def InDigits (s : Scanner) (d : Depths) (v : ℕ) : Prop :=
  Live s d ∧ s.state = .digits ∧
    ((s.overflow = false ∧ s.value = v ∧ v ≤ maxSafeCreditsUsed) ∨
      (s.overflow = true ∧ maxSafeCreditsUsed < v))

lemma InDigits.feedByte {s : Scanner} {d : Depths} {v : ℕ} (h : InDigits s d v) (digit : Fin 10) :
    InDigits (CreditsUsedScanner.feedByte s (48 + digit.val)) d (v * 10 + digit.val) := by
  obtain ⟨hl, hs, hv⟩ := h
  have hlt : digit.val < 10 := digit.isLt
  have hp : processByte s (48 + digit.val) = (pushDigit s digit.val, false) := by
    simp only [processByte, hs, processDigits]
    rw [if_pos (by omega), Nat.add_sub_cancel_left]
  rw [feedByte_once hl.found hp]
  have hmax : maxSafeCreditsUsed = 9007199254740991 := by decide
  unfold pushDigit
  split
  · -- the guard is exact: it holds when the next value would be too large
    rename_i hbig
    refine ⟨⟨hl.found, hl.calls, hl.escaped, hl.depths⟩, hs, Or.inr ⟨rfl, ?_⟩⟩
    rcases hv with ⟨-, hval, -⟩ | ⟨-, hover⟩ <;> omega
  · rename_i hsmall
    rcases hv with ⟨hover, hval, -⟩ | ⟨hover, hlarge⟩
    · rw [if_pos (by simp [hover])]
      exact ⟨⟨hl.found, hl.calls, hl.escaped, hl.depths⟩, hs,
        Or.inl ⟨hover, by rw [← hval], by omega⟩⟩
    · rw [if_neg (by simp [hover])]
      exact ⟨hl, hs, Or.inr ⟨hover, by omega⟩⟩

lemma InDigits.feed_digits {s : Scanner} {d : Depths} {v : ℕ} (h : InDigits s d v)
    (ds : List (Fin 10)) : InDigits (feed s (digitBytes ds)) d (digitsValue v ds) := by
  induction ds generalizing s v with
  | nil => exact h
  | cons digit ds ih => exact ih (h.feedByte digit)

lemma InDigits.afterValue {s : Scanner} {d : Depths} {v : ℕ} (h : InDigits s d v) :
    AfterValue s d ((some v).filter (· ≤ maxSafeCreditsUsed)) := by
  obtain ⟨hl, hs, ⟨hover, hval, hle⟩ | ⟨hover, hlt⟩⟩ := h
  · exact ⟨hl, Or.inr ⟨Or.inl hs, by simp [hover, hval, hle]⟩⟩
  · exact ⟨hl, Or.inr ⟨Or.inl hs, by simp [hover, hlt]⟩⟩

/-- A fraction or exponent gives a number to report up. -/
lemma InDigits.feed_tail {s : Scanner} {d : Depths} {v : ℕ} (h : InDigits s d v) {byte : ℕ}
    {bytes : List ℕ} (hbyte : byte = 46 ∨ byte = 69 ∨ byte = 101)
    (hrest : ∀ b ∈ byte :: bytes, Inert b) : Ready (feed s (byte :: bytes)) d := by
  obtain ⟨hl, hs, -⟩ := h
  have hp : processByte s byte = ({ s with state := .outside }, true) := by
    rcases hbyte with rfl | rfl | rfl <;>
      simp [processByte, hs, processDigits, isJsonWhitespace, isJsonDelimiter]
  have hready : Ready { s with state := .outside } d :=
    ⟨⟨hl.found, hl.calls, hl.escaped, hl.depths⟩, rfl⟩
  rw [feed_cons, feedByte_again hl.found hp, ← feed_cons]
  exact hready.feed_inert hrest

/-- The number a value token reports at this place. -/
noncomputable def reportedNumber (d : Depths) (key : Option (List Char)) (n : Number) : Option ℕ :=
  open Classical in
  if ReportsHere d key then n.natural.filter (· ≤ maxSafeCreditsUsed) else none

lemma AtValue.startDigits {s : Scanner} {d : Depths} {key : Option (List Char)}
    (h : AtValue s d key) (hkey : ReportsHere d key) {digit : ℕ} (hdigit : digit < 10) :
    InDigits (CreditsUsedScanner.feedByte s (48 + digit)) d digit := by
  obtain ⟨hk, ho, ha⟩ := hkey
  rcases h with ⟨hl, ⟨-, hnone⟩ | ⟨hs, hpend⟩⟩
  · rw [hnone] at hk
    cases hk
  · obtain ⟨rfl⟩ : d = depths s := hl.depths.symm
    have hws : isJsonWhitespace (48 + digit) = false := by
      simp only [isJsonWhitespace, Bool.or_eq_false_iff, decide_eq_false_iff_not]
      omega
    have hstarts : startsDigits s (48 + digit) = true := by
      simp only [startsDigits, Bool.and_eq_true, decide_eq_true_eq]
      exact ⟨⟨⟨⟨by omega, by omega⟩, hpend.trans hk⟩, ho⟩, ha⟩
    have hp : processByte s (48 + digit) =
        ({ s with state := .digits, value := digit, overflow := false, pendingKey := none },
          false) := by
      have h1 : ¬ (48 + digit = 123) := by omega
      have h2 : ¬ (48 + digit = 91) := by omega
      simp [processByte, hs, processAfterColon, hws, hstarts, h1, h2]
    rw [feedByte_once hl.found hp]
    refine ⟨⟨hl.found, hl.calls, hl.escaped, hl.depths⟩, rfl, Or.inl ⟨rfl, rfl, ?_⟩⟩
    have hmax : maxSafeCreditsUsed = 9007199254740991 := by decide
    omega

lemma IntPart.head_lt (i : IntPart) : i.head < 10 := by
  cases i with
  | zero => decide
  | nonzero d ds => exact Nat.succ_lt_succ d.isLt

/-- A number is reported exactly where it is one to report, and when its token is made of
digits and small enough. -/
lemma AtValue.feed_number {s : Scanner} {d : Depths} {key : Option (List Char)}
    (h : AtValue s d key) (n : Number) :
    AfterValue (feed s n.bytes) d (reportedNumber d key n) := by
  have hhead := IntPart.head_lt n.int
  have htail : ∀ b ∈ digitBytes n.int.tail ++ (n.fracBytes ++ n.expBytes), Inert b :=
    List.forall_mem_append.mpr ⟨digitBytes_inert _,
      List.forall_mem_append.mpr ⟨fracBytes_inert n, expBytes_inert n⟩⟩
  have hfirst : Inert (48 + n.int.head) := by
    unfold Inert
    omega
  cases hminus : n.minus with
  | true =>
    -- a minus sign is no digit, so the number is scanned from `outside`
    have hbytes : n.bytes = 45 :: (48 + n.int.head) :: (digitBytes n.int.tail ++
        (n.fracBytes ++ n.expBytes)) := by
      simp [Number.bytes, hminus]
    have hnone : reportedNumber d key n = none := by
      simp [reportedNumber, Number.natural, hminus]
    rw [hbytes, hnone]
    refine (h.feed_inert (by decide) (by omega) ?_).afterValue
    exact List.forall_mem_cons.mpr ⟨by simp [Inert], List.forall_mem_cons.mpr ⟨hfirst, htail⟩⟩
  | false =>
    have hbytes : n.bytes = (48 + n.int.head) :: (digitBytes n.int.tail ++
        (n.fracBytes ++ n.expBytes)) := by
      simp [Number.bytes, hminus]
    rw [hbytes]
    by_cases hkey : ReportsHere d key
    · have hin := (h.startDigits hkey hhead).feed_digits n.int.tail
      rw [feed_cons, feed_append]
      rw [reportedNumber, if_pos hkey]
      -- the integer part alone is reported; a fraction or an exponent gives it up
      cases hfrac : n.frac with
      | some f =>
        have hnone : n.natural = none := by simp [Number.natural, hfrac]
        have hf : n.fracBytes = 46 :: digitBytes (f.1 :: f.2) := by simp [Number.fracBytes, hfrac]
        rw [hnone, hf]
        refine (hin.feed_tail (Or.inl rfl) ?_).afterValue
        have hinert := List.forall_mem_append.mpr ⟨fracBytes_inert n, expBytes_inert n⟩
        rw [hf] at hinert
        exact hinert
      | none =>
        have hf : n.fracBytes = [] := by simp [Number.fracBytes, hfrac]
        rw [hf, List.nil_append]
        cases hexp : n.exp with
        | some e =>
          have hnone : n.natural = none := by simp [Number.natural, hexp]
          obtain ⟨capital, sign, e₁, es⟩ := e
          have hinert := expBytes_inert n
          simp only [Number.expBytes, hexp, List.cons_append] at hinert ⊢
          rw [hnone]
          exact (hin.feed_tail (by cases capital <;> simp) hinert).afterValue
        | none =>
          have he : n.expBytes = [] := by simp [Number.expBytes, hexp]
          have hsome : n.natural = some (digitsValue n.int.head n.int.tail) := by
            simp [Number.natural, hminus, hfrac, hexp]
          rw [he, feed_nil, hsome]
          exact hin.afterValue
    · rw [reportedNumber, if_neg hkey]
      have hws : isJsonWhitespace (48 + n.int.head) = false := by
        simp only [isJsonWhitespace, Bool.or_eq_false_iff, decide_eq_false_iff_not]
        omega
      exact (h.feed_inert hws (fun h => hkey h.2.2)
        (List.forall_mem_cons.mpr ⟨hfirst, htail⟩)).afterValue

end CreditsUsedScanner
end FirecrawlGateway
