import FirecrawlGateway.Lib.JsonValue
import Mathlib.Data.List.TakeWhile
import Mathlib.Data.Nat.Digits.Defs

/-!
# IP addresses

Addresses of both families, the ranges they are given by, and the texts that the host serializer of
the URL standard writes for them: four decimal numbers for an IPv4 address, and for an IPv6 address
its groups in hexadecimal, the first of the longest runs of zero groups left out.
-/

/-! ## Addresses -/

/-- An IPv4 address, by its four bytes. -/
@[ext]
structure Ipv4 where
  a : UInt8
  b : UInt8
  c : UInt8
  d : UInt8
deriving DecidableEq

/-- An IPv6 address, by its eight groups. -/
@[ext]
structure Ipv6 where
  g₀ : UInt16
  g₁ : UInt16
  g₂ : UInt16
  g₃ : UInt16
  g₄ : UInt16
  g₅ : UInt16
  g₆ : UInt16
  g₇ : UInt16
deriving DecidableEq

def Ipv4.value (ip : Ipv4) : ℕ :=
  ((ip.a.toNat * 2 ^ 8 + ip.b.toNat) * 2 ^ 8 + ip.c.toNat) * 2 ^ 8 + ip.d.toNat

namespace Ipv6

def groups (ip : Ipv6) : List UInt16 :=
  [ip.g₀, ip.g₁, ip.g₂, ip.g₃, ip.g₄, ip.g₅, ip.g₆, ip.g₇]

def value (ip : Ipv6) : ℕ := ip.groups.foldl (fun value group => value * 2 ^ 16 + group.toNat) 0

/-- The IPv4-mapped address `::ffff:a.b.c.d`. -/
def mapped (ip : Ipv4) : Ipv6 :=
  ⟨0, 0, 0, 0, 0, 0xffff, ip.a.toUInt16 * 256 + ip.b.toUInt16, ip.c.toUInt16 * 256 + ip.d.toUInt16⟩

end Ipv6

/-- The range `base/length` of the addresses of `width` bits has the address: they agree in the
first `length` bits. -/
def inRange (width value base length : ℕ) : Prop :=
  value / 2 ^ (width - length) = base / 2 ^ (width - length)

instance (width value base length : ℕ) : Decidable (inRange width value base length) :=
  inferInstanceAs (Decidable (_ = _))

/-! ## Texts -/

def Ipv4.text (ip : Ipv4) : JsString :=
  JsString.lit (toString ip.a.toNat ++ "." ++ toString ip.b.toNat ++ "." ++ toString ip.c.toNat ++
    "." ++ toString ip.d.toNat)

namespace JsString

/-- A hexadecimal digit in lower case. -/
def hexUnit (d : ℕ) : UInt16 := (Nat.digitChar d).toNat.toUInt16

/-- A number in hexadecimal, without leading zeros. -/
def hexText (n : ℕ) : JsString :=
  (if n = 0 then [0] else (Nat.digits 16 n).reverse).map hexUnit

end JsString

/-- Groups with colons between them. -/
def colonText (groups : List UInt16) : JsString :=
  [0x3A].intercalate (groups.map fun group => JsString.hexText group.toNat)

/-- The number of zero groups from a position on. -/
def zeroRun (groups : List UInt16) (start : ℕ) : ℕ :=
  ((groups.drop start).takeWhile (· = 0)).length

/-- The first of the longest runs of zero groups, as its start and its length; a single group is no
run. -/
def longestZeroRun (groups : List UInt16) : Option (ℕ × ℕ) :=
  let lengths := (List.range groups.length).map (zeroRun groups)
  let length := lengths.foldr max 0
  if 2 ≤ length then some (lengths.idxOf length, length) else none

namespace Ipv6

def text (ip : Ipv6) : JsString :=
  match longestZeroRun ip.groups with
  | none => colonText ip.groups
  | some (start, length) =>
    colonText (ip.groups.take start) ++ [0x3A, 0x3A] ++ colonText (ip.groups.drop (start + length))

/-- The address as the host of a URL. -/
def host (ip : Ipv6) : JsString := 0x5B :: ip.text ++ [0x5D]

example : [(⟨0x2001, 0xdb8, 0, 0, 1, 0, 0, 1⟩ : Ipv6), ⟨1, 0, 2, 0, 0, 3, 0, 0⟩,
    ⟨0xfe80, 0, 1, 2, 3, 4, 5, 6⟩, ⟨0, 0, 0, 0, 0, 0, 0, 0⟩, mapped ⟨192, 168, 1, 1⟩].map host =
      ["[2001:db8::1:0:0:1]", "[1:0:2::3:0:0]", "[fe80:0:1:2:3:4:5:6]", "[::]",
        "[::ffff:c0a8:101]"].map JsString.lit := by decide +kernel

end Ipv6

/-! ## Reading the texts back -/

namespace JsString

lemma hexDigit_hexUnit : ∀ d < 16, hexDigit (hexUnit d) = some d := by decide

/-- A hexadecimal digit is no sign, no colon, no `x` and no white space. -/
lemma hexUnit_plain : ∀ d < 16, hexUnit d ∉ [0x2B, 0x2D, 0x2E, 0x3A, 0x58, 0x78] ∧
    isSpace (hexUnit d) = false ∧ asciiLower (hexUnit d) = hexUnit d := by decide

/-- The digits that a text is of. -/
def IsHexText (s : JsString) (digits : List ℕ) : Prop :=
  digits ≠ [] ∧ (∀ d ∈ digits, d < 16) ∧ s = digits.map hexUnit

lemma hexText_isHexText (n : ℕ) :
    ∃ digits, IsHexText (hexText n) digits ∧ Nat.ofDigits 16 digits.reverse = n := by
  by_cases hn : n = 0
  · exact ⟨[0], ⟨by simp, by simp, by rw [hexText, if_pos hn]⟩, by simp [hn]⟩
  · refine ⟨(Nat.digits 16 n).reverse, ⟨?_, fun d hd => ?_, by rw [hexText, if_neg hn]⟩, ?_⟩
    · simpa [Nat.digits_eq_nil_iff_eq_zero] using hn
    · exact Nat.digits_lt_base (by norm_num) (List.mem_reverse.mp hd)
    · rw [List.reverse_reverse, Nat.ofDigits_digits]

lemma IsHexText.hexPrefix {s : JsString} {digits : List ℕ} (h : IsHexText s digits) :
    hexPrefix s = some (Nat.ofDigits 16 digits.reverse) := by
  obtain ⟨hne, hlt, rfl⟩ := h
  have hmap : (digits.map hexUnit).map hexDigit = digits.map some := by
    rw [List.map_map]
    exact List.map_congr_left fun d hd => hexDigit_hexUnit d (hlt d hd)
  have htake : (digits.map some).takeWhile Option.isSome = digits.map some :=
    List.takeWhile_eq_self_iff.mpr fun d hd => by
      obtain ⟨_, -, rfl⟩ := List.mem_map.mp hd
      rfl
  have hreduce : (digits.map some).reduceOption = digits :=
    List.filterMap_map.trans List.filterMap_some
  rw [JsString.hexPrefix, hmap, htake, hreduce]
  cases digits with
  | nil => exact absurd rfl hne
  | cons d digits => rfl

/-- `parseInt` reads the text of a number. -/
theorem parseHex_hexText (n : ℕ) : parseHex (hexText n) = some (n : ℤ) := by
  obtain ⟨digits, h, hvalue⟩ := hexText_isHexText n
  have hstart := h.hexPrefix
  rw [hvalue] at hstart
  obtain ⟨hne, hlt, htext⟩ := h
  cases digits with
  | nil => exact absurd rfl hne
  | cons d digits =>
    obtain ⟨hd, hdigits⟩ := List.forall_mem_cons.mp hlt
    obtain ⟨hplain, hspace, -⟩ := hexUnit_plain d hd
    rw [htext, List.map_cons] at hstart ⊢
    -- there is no second digit `x`
    have hmark : ((hexUnit d :: digits.map hexUnit).take 2).map asciiLower ≠ lit "0x" := by
      have hlit : lit "0x" = [0x30, 0x78] := by decide
      rw [hlit]
      cases digits with
      | nil => simp
      | cons e digits =>
        obtain ⟨he, -⟩ := List.forall_mem_cons.mp hdigits
        obtain ⟨heplain, -, helower⟩ := hexUnit_plain e he
        intro heq
        simp only [List.map_cons, List.take_succ_cons, helower] at heq
        have hx : hexUnit e = 0x78 := (List.cons.inj (List.cons.inj heq).2).1
        simp [hx] at heplain
    rw [parseHex, List.dropWhile_cons_of_neg (by simp [hspace])]
    have hminus : hexUnit d ≠ 0x2D := fun heq => hplain (by simp [heq])
    have hplus : hexUnit d ≠ 0x2B := fun heq => hplain (by simp [heq])
    split
    next negative s heq =>
      split at heq
      · next h => exact absurd (List.cons.inj h).1 hminus
      · next h => exact absurd (List.cons.inj h).1 hplus
      · obtain ⟨rfl, rfl⟩ := Prod.mk.inj heq
        rw [if_neg hmark]
        dsimp only
        rw [hstart]
        rfl

lemma hexText_injective {m n : ℕ} (h : hexText m = hexText n) : m = n := by
  have hread := parseHex_hexText m
  rw [h, parseHex_hexText n] at hread
  exact_mod_cast (Option.some.inj hread).symm

lemma mem_hexText {n : ℕ} {u : UInt16} (h : u ∈ hexText n) : ∃ d < 16, u = hexUnit d := by
  obtain ⟨digits, ⟨-, hlt, htext⟩, -⟩ := hexText_isHexText n
  rw [htext] at h
  obtain ⟨d, hd, rfl⟩ := List.mem_map.mp h
  exact ⟨d, hlt d hd, rfl⟩

lemma hexText_ne_nil (n : ℕ) : hexText n ≠ [] := by
  obtain ⟨digits, ⟨hne, -, htext⟩, -⟩ := hexText_isHexText n
  rw [htext]
  exact fun h => hne (List.map_eq_nil_iff.mp h)

lemma colon_not_mem_hexText (n : ℕ) : (0x3A : UInt16) ∉ hexText n := by
  intro h
  obtain ⟨d, hd, heq⟩ := mem_hexText h
  exact (hexUnit_plain d hd).1 (by simp [← heq])

/-- A digit, a letter up to `f` in lower case, a dot or a colon. -/
def isAddressUnit (u : UInt16) : Bool :=
  isDigit u || (0x61 ≤ u && u ≤ 0x66) || u = 0x2E || u = 0x3A

lemma isAddressUnit_hexUnit : ∀ d < 16, isAddressUnit (hexUnit d) = true := by decide

lemma isAddressUnit_of_mem_hexText {n : ℕ} {u : UInt16} (h : u ∈ hexText n) :
    isAddressUnit u = true := by
  obtain ⟨d, hd, rfl⟩ := mem_hexText h
  exact isAddressUnit_hexUnit d hd

end JsString

/-! ## Groups with colons -/

open JsString (hexText)

@[simp]
lemma colonText_singleton (g : UInt16) : colonText [g] = hexText g.toNat := by
  simp [colonText]

@[simp]
lemma colonText_cons_cons (g g' : UInt16) (gs : List UInt16) :
    colonText (g :: g' :: gs) = hexText g.toNat ++ 0x3A :: colonText (g' :: gs) := by
  simp [colonText, List.intercalate]

lemma splitOn_colonText {gs : List UInt16} (h : gs ≠ []) :
    (colonText gs).splitOn 0x3A = gs.map fun g => hexText g.toNat := by
  refine List.splitOn_intercalate _ (fun text htext => ?_) (by simpa using h)
  obtain ⟨g, -, rfl⟩ := List.mem_map.mp htext
  exact JsString.colon_not_mem_hexText _

lemma hexTexts_injective :
    Function.Injective (List.map fun g : UInt16 => hexText g.toNat) :=
  List.map_injective_iff.mpr fun _ _ h => UInt16.toNat_inj.mp (JsString.hexText_injective h)

lemma colonText_eq_hexText {gs : List UInt16} {g : UInt16} (h : colonText gs = hexText g.toNat) :
    gs = [g] := by
  have hne : gs ≠ [] := by
    rintro rfl
    exact JsString.hexText_ne_nil _ h.symm
  refine hexTexts_injective ?_
  rw [← splitOn_colonText hne, h, ← colonText_singleton, splitOn_colonText (List.cons_ne_nil _ _)]

/-- What follows the first group of a text. -/
lemma colonText_eq_append {gs : List UInt16} {g : UInt16} {tail : JsString}
    (h : colonText gs = hexText g.toNat ++ 0x3A :: tail) :
    ∃ rest, rest ≠ [] ∧ gs = g :: rest ∧ tail = colonText rest := by
  have hne : gs ≠ [] := by
    rintro rfl
    exact absurd (congrArg List.length h) (by simp [colonText])
  have hsplit := splitOn_colonText hne
  rw [h, List.splitOn_append_cons_self_of_not_mem (JsString.colon_not_mem_hexText _)] at hsplit
  cases gs with
  | nil => exact absurd rfl hne
  | cons g' rest =>
    obtain ⟨hg, hrest⟩ := List.cons.inj hsplit
    obtain rfl := UInt16.toNat_inj.mp (JsString.hexText_injective hg)
    have hrest' : rest ≠ [] := by
      rintro rfl
      exact List.splitOn_ne_nil _ _ hrest
    refine ⟨rest, hrest', rfl, ?_⟩
    have hjoin : [0x3A].intercalate (tail.splitOn 0x3A) = tail := List.intercalate_splitOn 0x3A
    rw [← hjoin, hrest]
    rfl

lemma mem_colonText {gs : List UInt16} {u : UInt16} (h : u ∈ colonText gs) :
    u = 0x3A ∨ ∃ n, u ∈ hexText n := by
  induction gs with
  | nil => simp [colonText] at h
  | cons g gs ih =>
    cases gs with
    | nil =>
      rw [colonText_singleton] at h
      exact .inr ⟨_, h⟩
    | cons g' gs =>
      rw [colonText_cons_cons, List.mem_append, List.mem_cons] at h
      rcases h with h | h | h
      · exact .inr ⟨_, h⟩
      · exact .inl h
      · exact ih h

lemma isAddressUnit_of_mem_colonText {gs : List UInt16} {u : UInt16} (h : u ∈ colonText gs) :
    JsString.isAddressUnit u = true := by
  rcases mem_colonText h with rfl | ⟨n, h⟩
  · rfl
  · exact JsString.isAddressUnit_of_mem_hexText h

lemma dot_not_mem_colonText (gs : List UInt16) : (0x2E : UInt16) ∉ colonText gs := by
  intro h
  rcases mem_colonText h with h | ⟨n, h⟩
  · cases h
  · obtain ⟨d, hd, heq⟩ := JsString.mem_hexText h
    exact (JsString.hexUnit_plain d hd).1 (by simp [← heq])

/-! ## Texts of IPv6 addresses -/

/-- A run at the start is all the zeros that are there. -/
lemma longestZeroRun_start {gs : List UInt16} {length : ℕ}
    (h : longestZeroRun gs = some (0, length)) : 2 ≤ length ∧ length = zeroRun gs 0 := by
  unfold longestZeroRun at h
  dsimp only at h
  split_ifs at h with htwo
  obtain ⟨hstart, rfl⟩ := Prod.mk.inj (Option.some.inj h)
  refine ⟨htwo, ?_⟩
  cases gs with
  | nil => simp at htwo
  | cons g gs =>
    rw [List.length_cons, List.range_succ_eq_map, List.map_cons] at hstart ⊢
    rw [List.idxOf_cons, cond_eq_ite] at hstart
    split_ifs at hstart with hfirst
    exact (eq_of_beq hfirst).symm

lemma replicate_zeroRun (gs : List UInt16) :
    gs = List.replicate (zeroRun gs 0) 0 ++ gs.drop (zeroRun gs 0) := by
  have hzeros : gs.takeWhile (· = 0) = List.replicate (zeroRun gs 0) 0 :=
    List.eq_replicate_of_mem fun g hg => by simpa using List.mem_takeWhile_imp hg
  have htake : gs.take (zeroRun gs 0) = gs.takeWhile (· = 0) :=
    (List.prefix_iff_eq_take.mp (List.takeWhile_prefix _)).symm
  calc gs = gs.take (zeroRun gs 0) ++ gs.drop (zeroRun gs 0) := (List.take_append_drop _ _).symm
    _ = List.replicate (zeroRun gs 0) 0 ++ gs.drop (zeroRun gs 0) := by rw [htake, hzeros]

namespace Ipv6

/-- A text starts with the first group, or with the run of zeros left out there. -/
theorem text_cases (ip : Ipv6) :
    (∃ tail, ip.text = hexText ip.g₀.toNat ++ 0x3A :: tail) ∨
      ∃ length rest, 2 ≤ length ∧ ip.groups = List.replicate length 0 ++ rest ∧
        ip.text = 0x3A :: 0x3A :: colonText rest := by
  cases hrun : longestZeroRun ip.groups with
  | none => exact .inl ⟨_, by rw [text, hrun, groups]; exact colonText_cons_cons _ _ _⟩
  | some run =>
    obtain ⟨start, length⟩ := run
    cases start with
    | zero =>
      obtain ⟨htwo, hlength⟩ := longestZeroRun_start hrun
      refine .inr ⟨length, ip.groups.drop length, htwo, ?_, ?_⟩
      · rw [hlength]
        exact replicate_zeroRun _
      · rw [text, hrun]
        simp [colonText]
    | succ start =>
      refine .inl ?_
      rw [text, hrun]
      simp only [groups, List.take_succ_cons]
      cases hfront : List.take start [ip.g₁, ip.g₂, ip.g₃, ip.g₄, ip.g₅, ip.g₆, ip.g₇] with
      | nil => exact ⟨_, by simp [colonText_singleton]; rfl⟩
      | cons g gs => exact ⟨_, by simp [colonText_cons_cons]; rfl⟩

lemma text_mapped (ip : Ipv4) : (mapped ip).text =
    JsString.lit "::ffff:" ++ hexText (ip.a.toUInt16 * 256 + ip.b.toUInt16).toNat ++
      0x3A :: hexText (ip.c.toUInt16 * 256 + ip.d.toUInt16).toNat := by
  have hrun : ∀ h l : UInt16, longestZeroRun [0, 0, 0, 0, 0, 0xffff, h, l] = some (0, 5) := by
    intro h l
    by_cases hh : h = 0 <;> by_cases hl : l = 0 <;>
      simp [longestZeroRun, zeroRun, List.range_succ, hh, hl]
  have hlit : JsString.lit "::ffff:" = 0x3A :: 0x3A :: (hexText 0xffff ++ [0x3A]) := by
    decide +kernel
  have hgroups : (mapped ip).groups = [0, 0, 0, 0, 0, 0xffff, ip.a.toUInt16 * 256 + ip.b.toUInt16,
    ip.c.toUInt16 * 256 + ip.d.toUInt16] := rfl
  rw [text, hgroups, hrun, hlit]
  simp [colonText, List.intercalate]

lemma isAddressUnit_of_mem_text {ip : Ipv6} {u : UInt16} (h : u ∈ ip.text) :
    JsString.isAddressUnit u = true := by
  unfold text at h
  split at h
  · exact isAddressUnit_of_mem_colonText h
  · rw [List.mem_append, List.mem_append] at h
    rcases h with (h | h) | h
    · exact isAddressUnit_of_mem_colonText h
    · obtain rfl : u = 0x3A := by simpa using h
      rfl
    · exact isAddressUnit_of_mem_colonText h

/-- Every group is two bytes. -/
lemma mapped_bytes (h l : UInt16) : (⟨0, 0, 0, 0, 0, 0xffff, h, l⟩ : Ipv6) =
    mapped ⟨(h / 256).toUInt8, h.toUInt8, (l / 256).toUInt8, l.toUInt8⟩ := by
  have hbytes : ∀ g : UInt16, (g / 256).toUInt8.toUInt16 * 256 + g.toUInt8.toUInt16 = g := by
    intro g
    have hg := g.toNat_lt
    refine UInt16.toNat_inj.mp ?_
    simp only [UInt16.toUInt16_toUInt8, UInt16.toNat_add, UInt16.toNat_mul, UInt16.toNat_mod,
      UInt16.toNat_div, UInt16.reduceToNat]
    omega
  rw [mapped, hbytes h, hbytes l]

end Ipv6

/-! ## Texts of IPv4 addresses -/

namespace Ipv4

/-- The text of a byte reads back. -/
lemma byte_text : ∀ n < 256, JsString.lit (toString n) ≠ [] ∧
    (JsString.lit (toString n)).all JsString.isDigit = true ∧
    JsString.decimal (JsString.lit (toString n)) = n := by decide +kernel

lemma text_eq (ip : Ipv4) : ip.text = [0x2E].intercalate
    [JsString.lit (toString ip.a.toNat), JsString.lit (toString ip.b.toNat),
      JsString.lit (toString ip.c.toNat), JsString.lit (toString ip.d.toNat)] := by
  simp [text, JsString.lit, List.intercalate]

lemma splitOn_text (ip : Ipv4) : ip.text.splitOn 0x2E =
    [JsString.lit (toString ip.a.toNat), JsString.lit (toString ip.b.toNat),
      JsString.lit (toString ip.c.toNat), JsString.lit (toString ip.d.toNat)] := by
  have hdot : ∀ n : UInt8, (0x2E : UInt16) ∉ JsString.lit (toString n.toNat) := fun n h =>
    absurd (List.all_eq_true.mp (byte_text n.toNat n.toNat_lt).2.1 _ h) (by decide)
  rw [text_eq]
  refine List.splitOn_intercalate _ (fun part hpart => ?_) (List.cons_ne_nil _ _)
  simp only [List.mem_cons, List.not_mem_nil, or_false] at hpart
  rcases hpart with rfl | rfl | rfl | rfl <;> exact hdot _

/-- A text is digits and dots. -/
lemma isDigit_of_mem_text {ip : Ipv4} {u : UInt16} (h : u ∈ ip.text) :
    JsString.isDigit u = true ∨ u = 0x2E := by
  have hdigit : ∀ n : UInt8, u ∈ JsString.lit (toString n.toNat) → JsString.isDigit u = true :=
    fun n => List.all_eq_true.mp (byte_text n.toNat n.toNat_lt).2.1 u
  rw [text_eq] at h
  simp only [List.intercalate, List.intersperse, List.flatten_cons, List.mem_append,
    List.mem_singleton, List.flatten_nil, List.append_nil] at h
  rcases h with h | h | h | h | h | h | h
  · exact .inl (hdigit _ h)
  · exact .inr h
  · exact .inl (hdigit _ h)
  · exact .inr h
  · exact .inl (hdigit _ h)
  · exact .inr h
  · exact .inl (hdigit _ h)

end Ipv4

/-! ## Ranges -/

/-- A range is decided by the bits of a prefix that is at least as long. -/
lemma inRange_iff_leading {width k length : ℕ} (hlength : length ≤ k) (hk : k ≤ width)
    (value base : ℕ) : inRange width value base length ↔
      value / 2 ^ (width - k) / 2 ^ (k - length) = base / 2 ^ (width - k) / 2 ^ (k - length) := by
  have hbits : 2 ^ (width - length) = 2 ^ (width - k) * 2 ^ (k - length) := by
    rw [← pow_add]
    congr 1
    omega
  rw [inRange, hbits, Nat.div_div_eq_div_mul, Nat.div_div_eq_div_mul]

lemma Ipv4.value_prefix (ip : Ipv4) : ip.value / 2 ^ 16 = ip.a.toNat * 2 ^ 8 + ip.b.toNat := by
  have hc := ip.c.toNat_lt
  have hd := ip.d.toNat_lt
  rw [Ipv4.value]
  omega

lemma Ipv6.value_prefix (ip : Ipv6) : ip.value / 2 ^ 112 = ip.g₀.toNat := by
  have h₁ := ip.g₁.toNat_lt
  have h₂ := ip.g₂.toNat_lt
  have h₃ := ip.g₃.toNat_lt
  have h₄ := ip.g₄.toNat_lt
  have h₅ := ip.g₅.toNat_lt
  have h₆ := ip.g₆.toNat_lt
  have h₇ := ip.g₇.toNat_lt
  simp only [value, groups, List.foldl]
  omega
