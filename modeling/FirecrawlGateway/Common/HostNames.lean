import FirecrawlGateway.Common.PrivateAddresses
import FirecrawlGateway.Common.UtilsTheorems
import FirecrawlGateway.Lib.AsciiText

/-!
# The root dot of a host name

A DNS name may be written with the dot of the root at its end, and then `isPrivateHostname` takes it
for public, whatever name it is: the names that are private are compared without the dot. So the two
spellings are classified alike just where the name is not private.
-/

namespace FirecrawlGateway

/-! ## Names -/

/-- A letter, a digit, a hyphen or an underscore. -/
def isLabelUnit (u : UInt16) : Bool :=
  (0x61 ≤ JsString.asciiLower u && JsString.asciiLower u ≤ 0x7A) || JsString.isDigit u || u = 0x2D ||
    u = 0x5F

/-- A DNS name without the root dot: labels with dots between them. -/
def IsDnsName (h : JsString) : Prop :=
  ∀ label ∈ h.splitOn 0x2E, label ≠ [] ∧ label.all isLabelUnit = true

instance (h : JsString) : Decidable (IsDnsName h) :=
  inferInstanceAs (Decidable (∀ label ∈ h.splitOn 0x2E, label ≠ [] ∧ label.all isLabelUnit = true))

/-- The names `isPrivateHostname` has, in lower case. -/
def isLocalName (host : JsString) : Bool :=
  host = JsString.lit "localhost" || JsString.endsWith host ".localhost" ||
    JsString.endsWith host ".local" || JsString.endsWith host ".internal"

/-- Four decimal numbers of a private IPv4 address, with leading zeros or without. -/
def IsPrivateNumbers (host : JsString) : Prop :=
  host = JsString.lit "0.0.0.0" ∨
    ∃ a b c d, ipv4Parts host = some [a, b, c, d] ∧ isPrivateBytes a b = true

lemma isLabelUnit_lt {u : UInt16} (h : isLabelUnit u = true) : u < 0x80 := by
  simp only [isLabelUnit, Bool.or_eq_true, Bool.and_eq_true, decide_eq_true_eq] at h
  rcases h with ((hletter | hdigit) | rfl) | rfl
  · have hle := hletter.2
    rw [JsString.asciiLower] at hle
    split_ifs at hle with hcapital
    · exact UInt16.lt_of_le_of_lt hcapital.2 (by decide)
    · exact UInt16.lt_of_le_of_lt hle (by decide)
  · exact JsString.isDigit_lt hdigit
  · decide
  · decide

lemma of_isLabelUnit {u : UInt16} (h : isLabelUnit u = true) :
    u ≠ 0x212A ∧ u ≠ 0x0130 ∧ JsString.asciiLower u ≠ 0x3A ∧ JsString.asciiLower u ≠ 0x5B := by
  refine JsString.forall_ascii (p := fun u => isLabelUnit u = true → u ≠ 0x212A ∧ u ≠ 0x0130 ∧
    JsString.asciiLower u ≠ 0x3A ∧ JsString.asciiLower u ≠ 0x5B) ?_ (isLabelUnit_lt h) h
  decide

lemma IsDnsName.of_mem {h : JsString} (hname : IsDnsName h) {u : UInt16} (hu : u ∈ h) :
    u = 0x2E ∨ isLabelUnit u = true := by
  have hjoin : [0x2E].intercalate (h.splitOn 0x2E) = h := List.intercalate_splitOn 0x2E
  have hlabels : ∀ label ∈ h.splitOn 0x2E, ∀ u ∈ label, u = 0x2E ∨ isLabelUnit u = true :=
    fun label hlabel u hu => .inr (List.all_eq_true.mp (hname label hlabel).2 u hu)
  rw [← hjoin] at hu
  exact JsString.forall_mem_intercalate (List.forall_mem_singleton.mpr (.inl rfl)) hlabels u hu

/-- In lower case, too, a name is letters, digits, hyphens, underscores and dots. -/
lemma IsDnsName.of_mem_toLowerCase {h : JsString} (hname : IsDnsName h) {u : UInt16}
    (hu : u ∈ JsString.toLowerCase h) : u ≠ 0x3A ∧ u ≠ 0x5B := by
  obtain ⟨v, hv, hu⟩ := List.mem_flatMap.mp hu
  rcases hname.of_mem hv with rfl | hlabel
  · obtain rfl : u = 0x2E := by simpa [JsString.asciiLower] using hu
    decide
  · obtain ⟨hkelvin, hdotted, hlower⟩ := of_isLabelUnit hlabel
    rw [if_neg hkelvin, if_neg hdotted, List.mem_singleton] at hu
    exact hu ▸ hlower

/-! ## Hosts without a colon -/

lemma isPrivateAddress_of_no_colon {host : JsString} (hcolon : (0x3A : UInt16) ∉ host) :
    isPrivateAddress (unmapIpv4 host) = true ↔
      ∃ a b c d, ipv4Parts host = some [a, b, c, d] ∧ isPrivateBytes a b = true := by
  rw [unmapIpv4_of_no_colon hcolon, isPrivateAddress, if_neg hcolon]
  split
  next a b c d hparts =>
    rw [hparts]
    constructor
    · exact fun h => ⟨a, b, c, d, rfl, h⟩
    · rintro ⟨a', b', c', d', heq, h⟩
      obtain ⟨rfl, rfl, -⟩ := by simpa using heq
      exact h
  next hparts =>
    refine ⟨fun h => absurd h Bool.false_ne_true, ?_⟩
    rintro ⟨a, b, c, d, heq, -⟩
    exact absurd heq (hparts a b c d)

/-- A host that is no IPv6 address is private by its name or its numbers. -/
lemma isPrivateHostname_of_no_colon {hostname host : JsString}
    (hlower : JsString.toLowerCase hostname = host) (hcolon : (0x3A : UInt16) ∉ host)
    (hbracket : (0x5B : UInt16) ∉ host) :
    isPrivateHostname hostname = true ↔ isLocalName host = true ∨ IsPrivateNumbers host := by
  have hhead : ¬(host.head? = some 0x5B ∧ host.getLast? = some 0x5D) := fun h =>
    hbracket (List.mem_of_head? h.1)
  rw [isPrivateHostname, hlower, if_neg hhead]
  by_cases hname : isLocalName host = true
  · exact ⟨fun _ => .inl hname, fun _ => if_pos hname⟩
  · have hloopback : ipv4Parts (JsString.lit "127.0.0.1") = some [127, 0, 0, 1] := by decide +kernel
    have hv6 : host ≠ JsString.lit "::1" := fun heq => hcolon (heq ▸ by decide)
    refine Iff.trans ?_ (or_iff_right hname).symm
    rw [isLocalName] at hname
    rw [if_neg hname, IsPrivateNumbers]
    split_ifs with hlist
    · refine ⟨fun _ => ?_, fun _ => rfl⟩
      simp only [List.mem_cons, List.not_mem_nil, or_false, hv6] at hlist
      rcases hlist with rfl | rfl
      · exact .inr ⟨127, 0, 0, 1, hloopback, rfl⟩
      · exact .inl rfl
    · rw [isPrivateAddress_of_no_colon hcolon]
      refine ⟨.inr, fun h => h.resolve_left fun hzero => hlist ?_⟩
      exact List.mem_cons_of_mem _ (hzero ▸ List.mem_cons_self)

/-! ## With the root dot -/

lemma not_endsWith_dot {host : JsString} {word : String} {u : UInt16}
    (hword : (JsString.lit word).getLast? = some u) (hu : u ≠ 0x2E) :
    JsString.endsWith (host ++ [0x2E]) word = false := by
  refine decide_eq_false fun ⟨front, hfront⟩ => hu ?_
  have hlast := congrArg List.getLast? hfront
  rw [List.getLast?_append, hword, List.getLast?_concat] at hlast
  simpa using hlast

/-- With the root dot no host is private that is no IPv6 address. -/
lemma isPrivateHostname_root_dot {hostname host : JsString}
    (hlower : JsString.toLowerCase hostname = host) (hcolon : (0x3A : UInt16) ∉ host)
    (hbracket : (0x5B : UInt16) ∉ host) : isPrivateHostname (hostname ++ [0x2E]) = false := by
  have hdotted : JsString.toLowerCase (hostname ++ [0x2E]) = host ++ [0x2E] := by
    rw [← hlower, JsString.toLowerCase, List.flatMap_append]
    rfl
  refine Bool.eq_false_iff.mpr fun h => ?_
  rcases (isPrivateHostname_of_no_colon hdotted (by simpa using hcolon)
    (by simpa using hbracket)).mp h with hname | hzero | ⟨a, b, c, d, hparts, -⟩
  · have hlocalhost : host ++ [0x2E] ≠ JsString.lit "localhost" := fun heq => by
      have := congrArg List.getLast? heq
      rw [List.getLast?_concat] at this
      exact absurd this (by decide)
    rw [isLocalName, decide_eq_false hlocalhost, not_endsWith_dot (u := 0x74) (by decide) (by decide),
      not_endsWith_dot (u := 0x6C) (by decide) (by decide),
      not_endsWith_dot (u := 0x6C) (by decide) (by decide)] at hname
    exact absurd hname (by decide)
  · have := congrArg List.getLast? hzero
    rw [List.getLast?_concat] at this
    exact absurd this (by decide)
  · -- the last of the parts is empty
    rw [ipv4Parts, List.splitOn_append_cons_self] at hparts
    split_ifs at hparts with hall
    exact absurd rfl (hall.2 [] (by simp)).1

/-! ## The two spellings -/

/-- A DNS name is classified like the same name with the root dot just where it is none of the local
names and no private IPv4 address; and so are URLs that the parser gives the one and the other as
their hosts. -/
theorem root_dot_iff {h : JsString} (hname : IsDnsName h) :
    (isPrivateHostname h = isPrivateHostname (h ++ [0x2E]) ↔
      ¬(isLocalName (JsString.toLowerCase h) = true ∨
        IsPrivateNumbers (JsString.toLowerCase h))) ∧
    ∀ (hostname : JsString → Option JsString) (url dotted : JsString),
      hostname url = some h → hostname dotted = some (h ++ [0x2E]) →
      (hasPrivateTargetUrl hostname [url] = hasPrivateTargetUrl hostname [dotted] ↔
        ¬(isLocalName (JsString.toLowerCase h) = true ∨
          IsPrivateNumbers (JsString.toLowerCase h))) := by
  have hnames : isPrivateHostname h = isPrivateHostname (h ++ [0x2E]) ↔
      ¬(isLocalName (JsString.toLowerCase h) = true ∨
        IsPrivateNumbers (JsString.toLowerCase h)) := by
    have hcolon : (0x3A : UInt16) ∉ JsString.toLowerCase h := fun hu =>
      (hname.of_mem_toLowerCase hu).1 rfl
    have hbracket : (0x5B : UInt16) ∉ JsString.toLowerCase h := fun hu =>
      (hname.of_mem_toLowerCase hu).2 rfl
    rw [isPrivateHostname_root_dot rfl hcolon hbracket, ← Bool.not_eq_true,
      isPrivateHostname_of_no_colon rfl hcolon hbracket]
  refine ⟨hnames, fun hostname url dotted hurl hdotted => ?_⟩
  rw [hasPrivateTargetUrl, hasPrivateTargetUrl, List.any_cons, List.any_cons, List.any_nil, hurl,
    hdotted, Bool.or_false, Bool.or_false]
  exact hnames

/-- A public name and its spelling with the root dot. -/
theorem root_dot_iff_public_name :
    hasPrivateTargetUrl (hostnameOf parsePlainUrl) [JsString.lit "http://example.com/"] =
      hasPrivateTargetUrl (hostnameOf parsePlainUrl) [JsString.lit "http://example.com./"] := by
  have hlower : JsString.toLowerCase (JsString.lit "example.com") = JsString.lit "example.com" := by
    decide +kernel
  have hname : IsDnsName (JsString.lit "example.com") := by decide +kernel
  refine ((root_dot_iff hname).2 _ _ _ (by decide +kernel) (by decide +kernel)).mpr ?_
  rw [hlower, not_or]
  refine ⟨by decide +kernel, ?_⟩
  rintro (hzero | ⟨a, b, c, d, hparts, -⟩)
  · exact absurd hzero (by decide +kernel)
  · rw [show ipv4Parts (JsString.lit "example.com") = none by decide +kernel] at hparts
    exact absurd hparts (by simp)

/-- With the root dot the name `printer.local` is public, and so is its URL. -/
theorem root_dot_public :
    (¬∀ h, IsDnsName h → isPrivateHostname h = isPrivateHostname (h ++ [0x2E])) ∧
      hasPrivateTargetUrl (hostnameOf parsePlainUrl) [JsString.lit "http://printer.local/"] ≠
        hasPrivateTargetUrl (hostnameOf parsePlainUrl) [JsString.lit "http://printer.local./"] :=
  ⟨fun h => absurd (h (JsString.lit "printer.local") (by decide +kernel)) (by decide +kernel),
    by decide +kernel⟩

end FirecrawlGateway
