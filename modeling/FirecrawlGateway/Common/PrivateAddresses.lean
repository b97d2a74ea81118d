import FirecrawlGateway.Lib.AsciiText
import FirecrawlGateway.Lib.IpAddress
import FirecrawlGateway.Common.Utils

/-!
# Private addresses

Which IP addresses `isPrivateHostname` takes for private, against the ranges they are defined by. It
decides every IPv4 address and every IPv6 address as the ranges do, but one: `::ffff:0.0.0.0`, since
`0.0.0.0` is only compared with the host as it came, before the mapped form is rewritten.
-/

namespace FirecrawlGateway

open JsString (hexText isAddressUnit)

/-! ## The ranges -/

def privateIpv4Ranges : List (Ipv4 × ℕ) :=
  [(⟨0, 0, 0, 0⟩, 32), (⟨10, 0, 0, 0⟩, 8), (⟨127, 0, 0, 0⟩, 8), (⟨169, 254, 0, 0⟩, 16),
    (⟨172, 16, 0, 0⟩, 12), (⟨192, 168, 0, 0⟩, 16)]

def privateIpv6Ranges : List (Ipv6 × ℕ) :=
  [(⟨0, 0, 0, 0, 0, 0, 0, 1⟩, 128), (⟨0xfc00, 0, 0, 0, 0, 0, 0, 0⟩, 7),
    (⟨0xfe80, 0, 0, 0, 0, 0, 0, 0⟩, 10)]

def IsPrivateIpv4 (ip : Ipv4) : Prop :=
  ∃ range ∈ privateIpv4Ranges, inRange 32 ip.value range.1.value range.2

/-- An IPv6 address is also private where it maps a private IPv4 address. -/
def IsPrivateIpv6 (ip : Ipv6) : Prop :=
  (∃ range ∈ privateIpv6Ranges, inRange 128 ip.value range.1.value range.2) ∨
    ∃ ip₄, ip = Ipv6.mapped ip₄ ∧ IsPrivateIpv4 ip₄

/-- The ranges of `isPrivateAddress` for the first two bytes. -/
def isPrivateBytes (a b : ℕ) : Bool :=
  a = 10 || a = 127 || (a = 172 && 16 ≤ b && b ≤ 31) || (a = 192 && b = 168) ||
    (a = 169 && b = 254)

lemma value_eq_zero_iff (ip : Ipv4) : ip.value = 0 ↔ ip = ⟨0, 0, 0, 0⟩ := by
  obtain ⟨a, b, c, d⟩ := ip
  simp only [Ipv4.value, Ipv4.mk.injEq, ← UInt8.toNat_inj, UInt8.toNat_zero]
  omega

/-- The first two bytes decide the ranges of IPv4, but for the address of zeros. -/
lemma isPrivateIpv4_iff (ip : Ipv4) :
    IsPrivateIpv4 ip ↔ ip = ⟨0, 0, 0, 0⟩ ∨ isPrivateBytes ip.a.toNat ip.b.toNat = true := by
  have hfirst : ∀ base : Ipv4, ∀ length ≤ 16, inRange 32 ip.value base.value length ↔
      (ip.a.toNat * 2 ^ 8 + ip.b.toNat) / 2 ^ (16 - length) =
        (base.a.toNat * 2 ^ 8 + base.b.toNat) / 2 ^ (16 - length) := by
    intro base length hlength
    rw [inRange_iff_leading hlength (by norm_num), Ipv4.value_prefix, Ipv4.value_prefix]
  have hzero : inRange 32 ip.value (Ipv4.mk 0 0 0 0).value 32 ↔ ip = ⟨0, 0, 0, 0⟩ := by
    rw [← value_eq_zero_iff, inRange, Nat.sub_self, pow_zero, Nat.div_one, Nat.div_one]
    exact Iff.rfl
  have hb := ip.b.toNat_lt
  simp only [IsPrivateIpv4, privateIpv4Ranges, List.exists_mem_cons_iff, List.not_mem_nil, false_and,
    exists_false, or_false, hzero]
  refine or_congr_right ?_
  rw [hfirst _ 8 (by norm_num), hfirst _ 8 (by norm_num), hfirst _ 16 (by norm_num),
    hfirst _ 12 (by norm_num), hfirst _ 16 (by norm_num)]
  simp only [isPrivateBytes, Bool.or_eq_true, Bool.and_eq_true, decide_eq_true_eq, Nat.reducePow,
    Nat.reduceSub, Nat.reduceMul, Nat.reduceAdd, Nat.reduceDiv, UInt8.reduceToNat, UInt8.toNat_zero,
    add_zero, tsub_self, pow_zero, Nat.div_one]
  omega

lemma value_eq_one_iff (ip : Ipv6) : ip.value = 1 ↔ ip = ⟨0, 0, 0, 0, 0, 0, 0, 1⟩ := by
  obtain ⟨g₀, g₁, g₂, g₃, g₄, g₅, g₆, g₇⟩ := ip
  simp only [Ipv6.value, Ipv6.groups, List.foldl, Ipv6.mk.injEq, ← UInt16.toNat_inj, Nat.reducePow,
    zero_mul, zero_add, UInt16.toNat_zero, UInt16.reduceToNat]
  omega

/-- The first group decides the ranges of IPv6, but for the loopback address. -/
lemma isPrivateIpv6Range_iff (ip : Ipv6) :
    (∃ range ∈ privateIpv6Ranges, inRange 128 ip.value range.1.value range.2) ↔
      ip = ⟨0, 0, 0, 0, 0, 0, 0, 1⟩ ∨
        (0xfc00 ≤ ip.g₀.toNat ∧ ip.g₀.toNat ≤ 0xfdff) ∨
          (0xfe80 ≤ ip.g₀.toNat ∧ ip.g₀.toNat ≤ 0xfebf) := by
  have hfirst : ∀ base : Ipv6, ∀ length ≤ 16, inRange 128 ip.value base.value length ↔
      ip.g₀.toNat / 2 ^ (16 - length) = base.g₀.toNat / 2 ^ (16 - length) := by
    intro base length hlength
    rw [inRange_iff_leading hlength (by norm_num), Ipv6.value_prefix, Ipv6.value_prefix]
  have hloopback : inRange 128 ip.value (Ipv6.mk 0 0 0 0 0 0 0 1).value 128 ↔
      ip = ⟨0, 0, 0, 0, 0, 0, 0, 1⟩ := by
    rw [← value_eq_one_iff, inRange, Nat.sub_self, pow_zero, Nat.div_one, Nat.div_one]
    exact Iff.rfl
  simp only [privateIpv6Ranges, List.exists_mem_cons_iff, List.not_mem_nil, false_and, exists_false,
    or_false, hloopback]
  rw [hfirst _ 7 (by norm_num), hfirst _ 10 (by norm_num)]
  have hg := ip.g₀.toNat_lt
  refine or_congr_right ?_
  simp only [Nat.reduceSub, Nat.reducePow, UInt16.reduceToNat, Nat.reduceDiv]
  omega

/-! ## Texts of addresses -/

lemma isAddressUnit_lt {u : UInt16} (h : isAddressUnit u = true) : u < 0x80 := by
  simp only [isAddressUnit, Bool.or_eq_true, Bool.and_eq_true, decide_eq_true_eq] at h
  rcases h with ((hdigit | hletter) | rfl) | rfl
  · exact JsString.isDigit_lt hdigit
  · exact UInt16.lt_of_le_of_lt hletter.2 (by decide)
  · decide
  · decide

/-- Among the characters of an address are no capital letters, no brackets and no `l`. -/
lemma of_isAddressUnit {u : UInt16} (h : isAddressUnit u = true) :
    u ≠ 0x5B ∧ u ≠ 0x6C ∧ JsString.asciiLower u = u := by
  refine JsString.forall_ascii (p := fun u => isAddressUnit u = true →
    u ≠ 0x5B ∧ u ≠ 0x6C ∧ JsString.asciiLower u = u) ?_ (isAddressUnit_lt h) h
  decide

lemma toLowerCase_of_address {s : JsString} (h : ∀ u ∈ s, isAddressUnit u = true) :
    JsString.toLowerCase s = s := by
  have hascii : s.all JsString.isAscii = true :=
    List.all_eq_true.mpr fun u hu => decide_eq_true (isAddressUnit_lt (h u hu))
  rw [JsString.toLowerCase_of_ascii hascii]
  exact (List.map_congr_left fun u hu => (of_isAddressUnit (h u hu)).2.2).trans (List.map_id s)

/-- What `isPrivateHostname` does with a host that is none of the names. -/
def isPrivateIp (host : JsString) : Bool :=
  decide (host ∈ [JsString.lit "127.0.0.1", JsString.lit "0.0.0.0", JsString.lit "::1"]) ||
    isPrivateAddress (unmapIpv4 host)

lemma not_endsWith_of_not_mem {host : JsString} {word : String} {u : UInt16} (h : u ∉ host)
    (hword : u ∈ JsString.lit word) : JsString.endsWith host word = false :=
  decide_eq_false fun hsuffix => h (hsuffix.mem hword)

/-- A host without an `l` is none of the names. -/
lemma isPrivateIp_of_no_l {host : JsString} (h : (0x6C : UInt16) ∉ host) :
    (if host = JsString.lit "localhost" || JsString.endsWith host ".localhost" ||
        JsString.endsWith host ".local" || JsString.endsWith host ".internal" then true
      else if host ∈ [JsString.lit "127.0.0.1", JsString.lit "0.0.0.0", JsString.lit "::1"] then true
      else isPrivateAddress (unmapIpv4 host)) = isPrivateIp host := by
  have hlocalhost : host ≠ JsString.lit "localhost" := by
    rintro rfl
    exact h (by decide)
  rw [not_endsWith_of_not_mem h (by decide), not_endsWith_of_not_mem h (by decide),
    not_endsWith_of_not_mem h (by decide), if_neg (by simpa using hlocalhost), isPrivateIp]
  split_ifs with hmem
  · rw [decide_eq_true hmem, Bool.true_or]
  · rw [decide_eq_false hmem, Bool.false_or]

/-- An address in its text, with brackets around it or without. -/
lemma isPrivateHostname_of_address {host : JsString} (h : ∀ u ∈ host, isAddressUnit u = true) :
    isPrivateHostname host = isPrivateIp host ∧
      isPrivateHostname (0x5B :: host ++ [0x5D]) = isPrivateIp host := by
  have hl : (0x6C : UInt16) ∉ host := fun hmem => (of_isAddressUnit (h _ hmem)).2.1 rfl
  constructor
  · have hhead : ¬(host.head? = some 0x5B ∧ host.getLast? = some 0x5D) := fun hbrackets =>
      (of_isAddressUnit (h _ (List.mem_of_head? hbrackets.1))).1 rfl
    rw [isPrivateHostname, toLowerCase_of_address h, if_neg hhead]
    exact isPrivateIp_of_no_l hl
  · have hlower : JsString.toLowerCase (0x5B :: host ++ [0x5D]) = 0x5B :: host ++ [0x5D] := by
      have hhost := toLowerCase_of_address h
      rw [JsString.toLowerCase] at hhost ⊢
      rw [List.flatMap_append, List.flatMap_cons, hhost]
      rfl
    have hbrackets : (0x5B :: host ++ [0x5D]).head? = some 0x5B ∧
        (0x5B :: host ++ [0x5D]).getLast? = some 0x5D := ⟨rfl, List.getLast?_concat⟩
    rw [isPrivateHostname, hlower, if_pos hbrackets, List.cons_append, List.tail_cons,
      List.dropLast_concat]
    exact isPrivateIp_of_no_l hl

/-! ## IPv4 -/

lemma isAddressUnit_of_mem_text {ip : Ipv4} {u : UInt16} (h : u ∈ ip.text) :
    isAddressUnit u = true := by
  rcases Ipv4.isDigit_of_mem_text h with hdigit | rfl
  · simp [isAddressUnit, hdigit]
  · rfl

lemma ipv4Parts_text (ip : Ipv4) : ipv4Parts ip.text =
    some [ip.a.toNat, ip.b.toNat, ip.c.toNat, ip.d.toNat] := by
  have hbyte : ∀ n : UInt8, JsString.lit (toString n.toNat) ≠ [] ∧
      (JsString.lit (toString n.toNat)).all JsString.isDigit = true :=
    fun n => ⟨(Ipv4.byte_text _ n.toNat_lt).1, (Ipv4.byte_text _ n.toNat_lt).2.1⟩
  have hvalue : ∀ n : UInt8, JsString.decimal (JsString.lit (toString n.toNat)) = n.toNat :=
    fun n => (Ipv4.byte_text _ n.toNat_lt).2.2
  have hparts : ∀ part ∈ ip.text.splitOn 0x2E, part ≠ [] ∧ part.all JsString.isDigit = true := by
    simp only [Ipv4.splitOn_text, List.forall_mem_cons]
    exact ⟨hbyte _, hbyte _, hbyte _, hbyte _, fun _ h => absurd h List.not_mem_nil⟩
  rw [ipv4Parts, if_pos ⟨by rw [Ipv4.splitOn_text]; rfl, hparts⟩, Ipv4.splitOn_text]
  simp only [List.map_cons, List.map_nil, hvalue]

lemma colon_not_mem_text (ip : Ipv4) : (0x3A : UInt16) ∉ ip.text := fun h =>
  (Ipv4.isDigit_of_mem_text h).elim (by decide) (by decide)

lemma isPrivateAddress_text (ip : Ipv4) :
    isPrivateAddress ip.text = isPrivateBytes ip.a.toNat ip.b.toNat := by
  rw [isPrivateAddress, if_neg (colon_not_mem_text ip), ipv4Parts_text]
  rfl

lemma text_injective : Function.Injective Ipv4.text := by
  intro ip ip' h
  have hparts := ipv4Parts_text ip
  rw [h, ipv4Parts_text ip'] at hparts
  obtain ⟨a, b, c, d⟩ := ip
  obtain ⟨a', b', c', d'⟩ := ip'
  simp only [Option.some.injEq, List.cons.injEq, UInt8.toNat_inj] at hparts
  obtain ⟨rfl, rfl, rfl, rfl, -⟩ := hparts
  rfl

/-- Without a colon there is no IPv6 address to rewrite. -/
lemma unmapIpv4_of_no_colon {host : JsString} (h : (0x3A : UInt16) ∉ host) :
    unmapIpv4 host = host := by
  rw [unmapIpv4, if_pos fun hstart => h (hstart.mem (by decide))]

/-- Every IPv4 address is classified as the ranges have it. -/
theorem isPrivateHostname_text (ip : Ipv4) :
    isPrivateHostname ip.text = true ↔ IsPrivateIpv4 ip := by
  have hcolon := colon_not_mem_text ip
  have hloopback : ip.text = JsString.lit "127.0.0.1" ↔ ip = ⟨127, 0, 0, 1⟩ :=
    text_injective.eq_iff' (by decide)
  have hzero : ip.text = JsString.lit "0.0.0.0" ↔ ip = ⟨0, 0, 0, 0⟩ :=
    text_injective.eq_iff' (by decide)
  have hv6 : ip.text ≠ JsString.lit "::1" := fun h => hcolon (h ▸ by decide)
  rw [(isPrivateHostname_of_address fun _ => isAddressUnit_of_mem_text).1, isPrivateIp,
    unmapIpv4_of_no_colon hcolon, isPrivateAddress_text, isPrivateIpv4_iff, Bool.or_eq_true,
    decide_eq_true_eq]
  simp only [List.mem_cons, List.not_mem_nil, or_false, hloopback, hzero, hv6]
  constructor
  · rintro ((rfl | hzero) | hbytes)
    · exact .inr rfl
    · exact .inl hzero
    · exact .inr hbytes
  · rintro (hzero | hbytes)
    · exact .inl (.inr hzero)
    · exact .inr hbytes

/-! ## IPv6 -/

lemma ipv4Parts_of_no_dot {s : JsString} (h : (0x2E : UInt16) ∉ s) : ipv4Parts s = none := by
  rw [ipv4Parts, List.splitOn_eq_singleton h]
  exact if_neg (by simp)

lemma lit_mapped : JsString.lit "::ffff:" = 0x3A :: 0x3A :: (hexText 0xffff ++ [0x3A]) := by
  decide +kernel

/-- A group of two bytes. -/
lemma toNat_group (high low : UInt8) :
    (high.toUInt16 * 256 + low.toUInt16).toNat = high.toNat * 2 ^ 8 + low.toNat := by
  have hhigh := high.toNat_lt
  have hlow := low.toNat_lt
  simp only [UInt16.toNat_add, UInt16.toNat_mul, UInt8.toNat_toUInt16, UInt16.reduceToNat]
  omega

/-- Two groups make the four bytes of an IPv4 address. -/
lemma ip32_groups (ip : Ipv4) :
    ip32 ((ip.a.toUInt16 * 256 + ip.b.toUInt16).toNat : ℤ)
      ((ip.c.toUInt16 * 256 + ip.d.toUInt16).toNat : ℤ) = ip.value := by
  have ha := ip.a.toNat_lt
  have hb := ip.b.toNat_lt
  have hc := ip.c.toNat_lt
  have hd := ip.d.toNat_lt
  have hshift : (((ip.a.toNat * 2 ^ 8 + ip.b.toNat : ℕ) : ℤ) * 2 ^ 16 % 2 ^ 32).toNat =
      2 ^ 16 * (ip.a.toNat * 2 ^ 8 + ip.b.toNat) := by omega
  have hkeep : (((ip.c.toNat * 2 ^ 8 + ip.d.toNat : ℕ) : ℤ) % 2 ^ 32).toNat =
      ip.c.toNat * 2 ^ 8 + ip.d.toNat := by omega
  rw [toNat_group, toNat_group, ip32, hshift, hkeep, ← Nat.two_pow_add_eq_or_of_lt (by omega), Ipv4.value]
  omega

/-- A mapped address is rewritten to the text of the IPv4 address. -/
lemma unmapIpv4_mapped (ip : Ipv4) : unmapIpv4 (Ipv6.mapped ip).text = ip.text := by
  have hb := ip.b.toNat_lt
  have hc := ip.c.toNat_lt
  have hd := ip.d.toNat_lt
  have htext := Ipv6.text_mapped ip
  rw [List.append_assoc] at htext
  generalize hhigh : ip.a.toUInt16 * 256 + ip.b.toUInt16 = high at htext
  generalize hlow : ip.c.toUInt16 * 256 + ip.d.toUInt16 = low at htext
  rw [← colonText_singleton low, ← colonText_cons_cons] at htext
  have hdrop : (Ipv6.mapped ip).text.drop 7 = colonText [high, low] := by
    rw [htext]
    exact List.drop_left' rfl
  have hstart : JsString.lit "::ffff:" <+: (Ipv6.mapped ip).text := ⟨_, htext.symm⟩
  have hip := ip32_groups ip
  rw [hhigh, hlow] at hip
  have hbytes : ip.value / 2 ^ 24 = ip.a.toNat ∧ ip.value / 2 ^ 16 % 2 ^ 8 = ip.b.toNat ∧
      ip.value / 2 ^ 8 % 2 ^ 8 = ip.c.toNat ∧ ip.value % 2 ^ 8 = ip.d.toNat := by
    rw [Ipv4.value]
    omega
  obtain ⟨h₁, h₂, h₃, h₄⟩ := hbytes
  rw [unmapIpv4, if_neg (not_not.mpr hstart), hdrop]
  dsimp only
  rw [ipv4Parts_of_no_dot (dot_not_mem_colonText _), splitOn_colonText (List.cons_ne_nil _ _)]
  simp only [List.map_cons, List.map_nil, JsString.parseHex_hexText, hip, h₁, h₂, h₃, h₄]
  rfl

/-- Any other text that starts with two colons stays as it is. -/
lemma unmapIpv4_compressed {rest : List UInt16} (h : ∀ high low, rest ≠ [0xffff, high, low]) :
    unmapIpv4 (0x3A :: 0x3A :: colonText rest) = 0x3A :: 0x3A :: colonText rest := by
  by_cases hstart : JsString.lit "::ffff:" <+: 0x3A :: 0x3A :: colonText rest
  · obtain ⟨suffix, hsuffix⟩ := hstart
    have htail : colonText rest = hexText (0xffff : UInt16).toNat ++ 0x3A :: suffix := by
      rw [lit_mapped, List.cons_append, List.cons_append, List.append_assoc] at hsuffix
      exact (List.cons.inj (List.cons.inj hsuffix).2).2.symm
    obtain ⟨groups, hne, rfl, rfl⟩ := colonText_eq_append htail
    have hdrop : (JsString.lit "::ffff:" ++ colonText groups).drop 7 = colonText groups :=
      List.drop_left' rfl
    rw [unmapIpv4, if_neg (not_not.mpr ⟨_, hsuffix⟩), ← hsuffix, hdrop]
    dsimp only
    rw [ipv4Parts_of_no_dot (dot_not_mem_colonText _), splitOn_colonText hne]
    -- the rest is two groups only in a mapped address
    obtain _ | ⟨high, _ | ⟨low, _ | ⟨other, groups⟩⟩⟩ := groups
    · exact absurd rfl hne
    · rfl
    · exact absurd rfl (h high low)
    · rfl
  · rw [unmapIpv4, if_pos hstart]

/-- A text that starts with a group is classified by that group. -/
lemma isPrivateIp_group {g : UInt16} {tail : JsString} :
    isPrivateIp (hexText g.toNat ++ 0x3A :: tail) = true ↔
      (0xfc00 ≤ g.toNat ∧ g.toNat ≤ 0xfdff) ∨ (0xfe80 ≤ g.toNat ∧ g.toNat ≤ 0xfebf) := by
  have hcolon := JsString.colon_not_mem_hexText g.toNat
  have hne := JsString.hexText_ne_nil g.toNat
  have hmem : (0x3A : UInt16) ∈ hexText g.toNat ++ 0x3A :: tail := by simp
  have hhead : ∀ s, hexText g.toNat ++ 0x3A :: tail ≠ 0x3A :: s := by
    intro s heq
    cases htext : hexText g.toNat with
    | nil => exact hne htext
    | cons u text =>
      rw [htext] at heq hcolon
      exact hcolon ((List.cons.inj heq).1 ▸ List.mem_cons_self)
  have hlist : hexText g.toNat ++ 0x3A :: tail ∉
      [JsString.lit "127.0.0.1", JsString.lit "0.0.0.0", JsString.lit "::1"] := by
    simp only [List.mem_cons, List.not_mem_nil, or_false, not_or]
    exact ⟨fun h => absurd (h ▸ hmem) (by decide), fun h => absurd (h ▸ hmem) (by decide), hhead _⟩
  have hunmap : unmapIpv4 (hexText g.toNat ++ 0x3A :: tail) = hexText g.toNat ++ 0x3A :: tail := by
    rw [unmapIpv4, if_pos]
    rintro ⟨suffix, hsuffix⟩
    exact hhead _ hsuffix.symm
  have hfirst : (hexText g.toNat ++ 0x3A :: tail).takeWhile (· ≠ 0x3A) = hexText g.toNat := by
    rw [List.takeWhile_append_of_pos fun u hu => by
      simpa using fun heq : u = 0x3A => hcolon (heq ▸ hu)]
    simp
  rw [isPrivateIp, decide_eq_false hlist, Bool.false_or, hunmap, isPrivateAddress, if_pos hmem,
    hfirst]
  dsimp only
  rw [if_neg hne, JsString.parseHex_hexText]
  simp

/-- Of the texts that start with two colons, and are not rewritten, only the loopback address is
private. -/
lemma isPrivateIp_compressed {rest : List UInt16} (h : ∀ high low, rest ≠ [0xffff, high, low])
    (hloopback : rest ≠ [1]) : isPrivateIp (0x3A :: 0x3A :: colonText rest) = false := by
  have hne : 0x3A :: 0x3A :: colonText rest ≠ JsString.lit "::1" := by
    intro heq
    have hone : colonText rest = hexText (1 : UInt16).toNat :=
      (List.cons.inj (List.cons.inj heq).2).2
    exact hloopback (colonText_eq_hexText hone)
  have hlist : 0x3A :: 0x3A :: colonText rest ∉
      [JsString.lit "127.0.0.1", JsString.lit "0.0.0.0", JsString.lit "::1"] := by
    simp only [List.mem_cons, List.not_mem_nil, or_false, not_or]
    exact ⟨fun heq => absurd (List.cons.inj heq).1 (by decide),
      fun heq => absurd (List.cons.inj heq).1 (by decide), hne⟩
  rw [isPrivateIp, decide_eq_false hlist, Bool.false_or, unmapIpv4_compressed h, isPrivateAddress,
    if_pos List.mem_cons_self]
  exact decide_eq_false hne

/-- A mapped address is classified by the first two bytes. -/
lemma isPrivateIp_mapped (ip : Ipv4) :
    isPrivateIp (Ipv6.mapped ip).text = isPrivateBytes ip.a.toNat ip.b.toNat := by
  have hlength : 7 < (Ipv6.mapped ip).text.length := by
    have hlit : (JsString.lit "::ffff:").length = 7 := by decide
    rw [Ipv6.text_mapped, List.length_append, List.length_append, List.length_cons, hlit]
    omega
  have hlist : (Ipv6.mapped ip).text ∉
      [JsString.lit "127.0.0.1", JsString.lit "0.0.0.0", JsString.lit "::1"] := by
    simp only [List.mem_cons, List.not_mem_nil, or_false, not_or]
    refine ⟨fun heq => ?_, fun heq => ?_, fun heq => ?_⟩
    · rw [Ipv6.text_mapped, lit_mapped] at heq
      exact absurd (List.cons.inj heq).1 (by decide)
    · exact absurd (heq ▸ hlength) (by decide)
    · exact absurd (heq ▸ hlength) (by decide)
  rw [isPrivateIp, decide_eq_false hlist, Bool.false_or, unmapIpv4_mapped, isPrivateAddress_text]

lemma mapped_injective : Function.Injective Ipv6.mapped := by
  intro ip ip' h
  refine text_injective ?_
  rw [← unmapIpv4_mapped ip, h, unmapIpv4_mapped]

lemma isPrivateIp_host (ip : Ipv6) : isPrivateHostname ip.host = isPrivateIp ip.text :=
  (isPrivateHostname_of_address fun _ => Ipv6.isAddressUnit_of_mem_text).2

/-- An address that maps no IPv4 address is classified as the ranges have it. -/
theorem isPrivateHostname_unmapped {ip : Ipv6} (h : ∀ ip₄, ip ≠ Ipv6.mapped ip₄) :
    isPrivateHostname ip.host = true ↔
      ∃ range ∈ privateIpv6Ranges, inRange 128 ip.value range.1.value range.2 := by
  rw [isPrivateIp_host, isPrivateIpv6Range_iff]
  by_cases hloopback : ip = ⟨0, 0, 0, 0, 0, 0, 0, 1⟩
  · rw [hloopback]
    exact ⟨fun _ => .inl rfl, fun _ => by decide +kernel⟩
  · rcases ip.text_cases with ⟨tail, htext⟩ | ⟨length, rest, htwo, hgroups, htext⟩
    · rw [htext, isPrivateIp_group]
      exact ⟨.inr, fun hrange => hrange.resolve_left hloopback⟩
    · have hlength : length + rest.length = 8 := by
        have := congrArg List.length hgroups
        simpa [Ipv6.groups] using this.symm
      have hzero : ip.g₀ = 0 := by
        obtain ⟨n, rfl⟩ : ∃ n, length = n + 1 := ⟨length - 1, by omega⟩
        rw [List.replicate_succ] at hgroups
        exact (List.cons.inj hgroups).1
      have hmapped : ∀ high low, rest ≠ [0xffff, high, low] := by
        rintro high low rfl
        obtain rfl : length = 5 := by simpa using hlength
        refine h _ (Eq.trans ?_ (Ipv6.mapped_bytes high low))
        simpa [Ipv6.groups, List.replicate_succ, Ipv6.ext_iff] using hgroups
      have hone : rest ≠ [1] := by
        rintro rfl
        obtain rfl : length = 7 := by simpa using hlength
        refine hloopback ?_
        simpa [Ipv6.groups, List.replicate_succ, Ipv6.ext_iff] using hgroups
      rw [htext, isPrivateIp_compressed hmapped hone, hzero]
      simp [hloopback]

lemma isPrivateIpv6_mapped (ip : Ipv4) : IsPrivateIpv6 (Ipv6.mapped ip) ↔ IsPrivateIpv4 ip := by
  have hloopback : Ipv6.mapped ip ≠ ⟨0, 0, 0, 0, 0, 0, 0, 1⟩ := fun heq =>
    absurd (congrArg Ipv6.g₅ heq) (show (0xffff : UInt16) ≠ 0 by decide)
  rw [IsPrivateIpv6, isPrivateIpv6Range_iff]
  constructor
  · rintro ((heq | hrange) | ⟨ip', heq, hprivate⟩)
    · exact absurd heq hloopback
    · exact absurd hrange (by simp [Ipv6.mapped])
    · exact mapped_injective heq ▸ hprivate
  · exact fun hprivate => .inr ⟨ip, rfl, hprivate⟩

/-! ## The classification -/

/-- Every IP address is classified as the ranges have it, but for `::ffff:0.0.0.0`; and an IPv4
address and its mapped form are classified alike, but for `0.0.0.0`. -/
theorem isPrivateHostname_address_iff (ip₄ : Ipv4) (ip : Ipv6) :
    (isPrivateHostname ip₄.text = true ↔ IsPrivateIpv4 ip₄) ∧
    ((isPrivateHostname ip.host = true ↔ IsPrivateIpv6 ip) ↔ ip ≠ Ipv6.mapped ⟨0, 0, 0, 0⟩) ∧
    (isPrivateHostname ip₄.text = isPrivateHostname (Ipv6.mapped ip₄).host ↔
      ip₄ ≠ ⟨0, 0, 0, 0⟩) := by
  have hbytes : ∀ ip : Ipv4, (isPrivateBytes ip.a.toNat ip.b.toNat = true ↔ IsPrivateIpv4 ip) ↔
      ip ≠ ⟨0, 0, 0, 0⟩ := by
    intro ip
    rw [isPrivateIpv4_iff]
    constructor
    · rintro h rfl
      exact absurd (h.mpr (.inl rfl)) (by decide)
    · exact fun hne => ⟨.inr, fun h => h.resolve_left hne⟩
  refine ⟨isPrivateHostname_text ip₄, ?_, ?_⟩
  · by_cases hmapped : ∃ ip₄, ip = Ipv6.mapped ip₄
    · obtain ⟨ip₄, rfl⟩ := hmapped
      rw [isPrivateIp_host, isPrivateIp_mapped, isPrivateIpv6_mapped, hbytes, ne_eq, ne_eq,
        mapped_injective.eq_iff]
    · have hne := not_exists.mp hmapped
      refine ⟨fun _ => hne _, fun _ => ?_⟩
      rw [isPrivateHostname_unmapped hne, IsPrivateIpv6]
      exact ⟨.inl, fun h => h.resolve_right fun ⟨ip₄, heq, _⟩ => hne ip₄ heq⟩
  · rw [Bool.eq_iff_iff, isPrivateHostname_text, isPrivateIp_host, isPrivateIp_mapped, ← hbytes]
    exact Iff.comm

/-- The mapped form of `0.0.0.0` is classified as public. -/
theorem mapped_zero_public :
    ¬∀ ip : Ipv6, isPrivateHostname ip.host = true ↔ IsPrivateIpv6 ip := by
  intro h
  have hprivate : IsPrivateIpv6 (Ipv6.mapped ⟨0, 0, 0, 0⟩) :=
    .inr ⟨_, rfl, (⟨0, 0, 0, 0⟩, 32), List.mem_cons_self, rfl⟩
  exact absurd ((h _).mpr hprivate) (by decide +kernel)

end FirecrawlGateway
