import FirecrawlGateway.Lib.JsonOccurrence
import FirecrawlGateway.Common.Utils

/-!
# Targets in a body

A body is searched for URLs by the text they start with, and each of them is then parsed. A private
target is found if one that is spelled with `http://` or `https://` at its start is in the body, and
overlooked where the parser accepts a text that starts in another way.
-/

namespace FirecrawlGateway

open JsonValue (Occurs)

/-! ## Parsed URLs -/

/-- What the URL parser gives, as far as it is read. -/
structure ParsedUrl where
  protocol : JsString
  hostname : JsString
deriving DecidableEq

def ParsedUrl.isHttp (url : ParsedUrl) : Bool :=
  url.protocol = JsString.lit "http:" || url.protocol = JsString.lit "https:"

/-- `new URL(item).hostname`, or nothing where the parser throws. -/
def hostnameOf (parse : JsString → Option ParsedUrl) (item : JsString) : Option JsString :=
  (parse item).map ParsedUrl.hostname

/-- The text is a URL of a private host. -/
def isPrivateTarget (parse : JsString → Option ParsedUrl) (value : JsString) : Bool :=
  (parse value).any fun url => url.isHttp && isPrivateHostname url.hostname

/-- A host of letters, digits, dots and hyphens, with a port or without; the parser has nothing to
convert in it but the case of its letters. -/
def plainHost (authority : JsString) : Option JsString :=
  let host := (authority.takeWhile (· ≠ 0x3A)).map JsString.asciiLower
  let port := authority.dropWhile (· ≠ 0x3A)
  if host ≠ [] ∧ (host.all fun u => JsString.isDigit u || (0x61 ≤ u && u ≤ 0x7A) || u = 0x2E ||
      u = 0x2D) ∧ port.tail.all JsString.isDigit ∧ JsString.decimal port.tail ≤ 65535 then some host
  else none

/-- The URL parser, where the URL is one of http or https with a plain host: spaces and control
characters at both ends and all tabs and line breaks are dropped, and any slashes and backslashes, or
none, may stand before the host. -/
def parsePlainUrl (input : JsString) : Option ParsedUrl :=
  let trimmed := (((input.dropWhile (· ≤ 0x20)).reverse.dropWhile (· ≤ 0x20)).reverse).filter
    fun u => u ≠ 0x09 ∧ u ≠ 0x0A ∧ u ≠ 0x0D
  let scheme := (trimmed.takeWhile (· ≠ 0x3A)).map JsString.asciiLower
  let rest := (trimmed.dropWhile (· ≠ 0x3A)).tail.dropWhile fun u => u = 0x2F || u = 0x5C
  let authority := rest.takeWhile fun u => u ≠ 0x2F ∧ u ≠ 0x5C ∧ u ≠ 0x3F ∧ u ≠ 0x23
  if scheme = JsString.lit "http" ∨ scheme = JsString.lit "https" then
    (plainHost authority).map fun host => ⟨scheme ++ JsString.lit ":", host⟩
  else none

example : ([" http://10.0.0.1/", "http:10.0.0.1", "HTTP:\\\\db.internal\\x", "ht\ttp://a.local/"].map
    fun url => isPrivateTarget parsePlainUrl (JsString.lit url)) = [true, true, true, true] := by
  decide +kernel

/-! ## What is collected -/

lemma targetUrl_eq_some {value : JsonValue} {s : JsString} :
    targetUrl value = some s ↔ value = .string s ∧ isHttpUrl s = true := by
  cases value with
  | string t =>
    rw [targetUrl]
    split_ifs with h
    · constructor
      · rintro ⟨⟩
        exact ⟨rfl, h⟩
      · rintro ⟨⟨⟩, -⟩
        rfl
    · constructor
      · rintro ⟨⟩
      · rintro ⟨⟨⟩, ht⟩
        exact absurd ht h
  | _ => simp [targetUrl]

lemma mem_collectTargetUrls {body : JsonValue} {s : JsString} :
    s ∈ collectTargetUrls body ↔ Occurs (.string s) body ∧ isHttpUrl s = true := by
  rw [collectTargetUrls, List.mem_eraseDups, List.mem_filterMap]
  constructor
  · rintro ⟨value, hmem, hvalue⟩
    obtain ⟨rfl, hurl⟩ := targetUrl_eq_some.mp hvalue
    exact ⟨JsonValue.mem_walk_iff.mp hmem, hurl⟩
  · rintro ⟨hoccurs, hurl⟩
    exact ⟨_, hoccurs.mem_walk, targetUrl_eq_some.mpr ⟨rfl, hurl⟩⟩

lemma hasPrivateTargetUrl_iff {hostname : JsString → Option JsString} {body : JsonValue} :
    hasPrivateTargetUrl hostname (collectTargetUrls body) = true ↔
      ∃ s, Occurs (.string s) body ∧ isHttpUrl s = true ∧
        (hostname s).any isPrivateHostname = true := by
  rw [hasPrivateTargetUrl, List.any_eq_true]
  constructor
  · rintro ⟨s, hs, hprivate⟩
    obtain ⟨hoccurs, hurl⟩ := mem_collectTargetUrls.mp hs
    exact ⟨s, hoccurs, hurl, hprivate⟩
  · rintro ⟨s, hoccurs, hurl, hprivate⟩
    exact ⟨s, mem_collectTargetUrls.mpr ⟨hoccurs, hurl⟩, hprivate⟩

/-! ## Private targets -/

section

variable {parse : JsString → Option ParsedUrl}

/-- The URLs of a body that are found private are its private targets of the usual spelling. -/
lemma found_iff (hscheme : ∀ s url, isHttpUrl s = true → parse s = some url → url.isHttp = true)
    (body : JsonValue) :
    hasPrivateTargetUrl (hostnameOf parse) (collectTargetUrls body) = true ↔
      ∃ s, Occurs (.string s) body ∧ isPrivateTarget parse s = true ∧ isHttpUrl s = true := by
  rw [hasPrivateTargetUrl_iff]
  refine exists_congr fun s => and_congr_right fun _ => ?_
  rw [and_comm]
  refine and_congr_left fun hurl => ?_
  cases hparse : parse s with
  | none => simp [hostnameOf, isPrivateTarget, hparse]
  | some url => simp [hostnameOf, isPrivateTarget, hparse, hscheme s url hurl hparse]

/-- A private target is found in every body that holds it just where it is spelled with `http://`
or `https://` at its start; in one body, just where some private target of the body is. The parser
takes texts that start so for URLs of http and https. -/
theorem private_target_found_iff_prefixed
    (hscheme : ∀ s url, isHttpUrl s = true → parse s = some url → url.isHttp = true) :
    (∀ s, isPrivateTarget parse s = true →
      ((∀ body, Occurs (.string s) body →
          hasPrivateTargetUrl (hostnameOf parse) (collectTargetUrls body) = true) ↔
        isHttpUrl s = true)) ∧
    ∀ body s, Occurs (.string s) body → isPrivateTarget parse s = true →
      (hasPrivateTargetUrl (hostnameOf parse) (collectTargetUrls body) = true ↔
        ∃ t, Occurs (.string t) body ∧ isPrivateTarget parse t = true ∧ isHttpUrl t = true) := by
  refine ⟨fun s hprivate => ⟨fun hfound => ?_, fun hurl body hoccurs => ?_⟩,
    fun body _ _ _ => found_iff hscheme body⟩
  · -- the text alone is a body, and nothing else is in it
    obtain ⟨t, hoccurs, -, hurl⟩ := (found_iff hscheme (.string s)).mp (hfound _ .here)
    cases hoccurs
    exact hurl
  · exact (found_iff hscheme body).mpr ⟨s, hoccurs, hprivate, hurl⟩

end

lemma parsePlainUrl_isHttp {input : JsString} {url : ParsedUrl}
    (h : parsePlainUrl input = some url) : url.isHttp = true := by
  unfold parsePlainUrl at h
  dsimp only at h
  split_ifs at h with hscheme
  obtain ⟨host, -, rfl⟩ := Option.map_eq_some_iff.mp h
  rcases hscheme with hscheme | hscheme <;> rw [ParsedUrl.isHttp, hscheme] <;> simp [JsString.lit]

/-- A space before the URL is enough to overlook it, and the same URL without it is found. -/
theorem private_target_found_iff_prefixed_spaced :
    hasPrivateTargetUrl (hostnameOf parsePlainUrl) (collectTargetUrls
        (.object [(JsString.lit "url", .string (JsString.lit "http://10.0.0.1/"))])) = true ∧
    ¬∀ body, Occurs (.string (JsString.lit " http://10.0.0.1/")) body →
      hasPrivateTargetUrl (hostnameOf parsePlainUrl) (collectTargetUrls body) = true :=
  ⟨((private_target_found_iff_prefixed fun _ _ _ => parsePlainUrl_isHttp).2 _ _
      (.member List.mem_cons_self .here) (by decide +kernel)).mpr
      ⟨_, .member List.mem_cons_self .here, by decide +kernel⟩,
    fun h => absurd (((private_target_found_iff_prefixed fun _ _ _ => parsePlainUrl_isHttp).1 _
      (by decide +kernel)).mp h) (by decide +kernel)⟩

/-- A private target with a space before it that is not found in the body it stands in. -/
theorem private_target_overlooked :
    ¬∀ body s, Occurs (.string s) body → isPrivateTarget parsePlainUrl s = true →
      hasPrivateTargetUrl (hostnameOf parsePlainUrl) (collectTargetUrls body) = true := by
  intro h
  have hfound := h (.object [(JsString.lit "url", .string (JsString.lit " http://10.0.0.1/"))])
    (JsString.lit " http://10.0.0.1/") (.member List.mem_cons_self .here) (by decide +kernel)
  exact absurd hfound (by decide +kernel)

end FirecrawlGateway
