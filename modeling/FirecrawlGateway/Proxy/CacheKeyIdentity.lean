import FirecrawlGateway.Lib.JsonEquality
import FirecrawlGateway.Lib.NumberRoundTrip
import FirecrawlGateway.Proxy.ResponseCacheTheorems

/-!
# What requests share a cache key

The canonical JSON of a body is `JSON.stringify` of the value with sorted members, in which a number
that overflows is `null`. So two requests share a key when their ids and URLs agree and their bodies
are the same up to that: a number that overflows is taken for `null`, and for one of the other sign.
-/

namespace FirecrawlGateway
namespace Proxy

open JsonReader (AllNumbers WellFormed WrittenBack stringify stringifyItems stringifyMembers)
open JsonValue (Same DistinctNames canonical nullOverflow)
open NumberText (IsDouble IsJsNumber tokenNumber)

variable {ρ : Type*}

/-- What `JSON.parse` and `JSON.stringify` are known for: the one gives values of JavaScript, the
other writes every double so that it is read back. -/
structure Hashing.Standard (h : Hashing ρ) : Prop where
  parse : ∀ bytes value, h.jsonParse bytes = .ok value → WellFormed value
  double : ∀ q, IsDouble q → WrittenBack h.numberToString tokenNumber (.finite q)
  zero : h.numberToString 0 = ['0']

/-! ## The canonical JSON -/

section CanonicalJson

variable {numberToString : ℚ → List Char}

lemma stringifyMembers_eq (members : List (JsString × JsonValue)) :
    stringifyMembers numberToString members =
      members.map fun m => JsString.quote m.1 ++ ':' :: stringify numberToString m.2 := by
  induction members with
  | nil => rfl
  | cons m members ih =>
    obtain ⟨name, value⟩ := m
    rw [stringifyMembers, ih, List.map_cons]

/-- Members are sorted by their names, before or after their values are written. -/
lemma sortMembers_map (f : JsonValue → List Char) (members : List (JsString × JsonValue)) :
    sortMembers (members.map fun m => (m.1, f m.2)) =
      (JsonValue.byName members).map fun m => (m.1, f m.2) := by
  unfold sortMembers JsonValue.byName
  have hmap := List.map_insertionSort (fun left right : JsString × JsonValue => left.1 ≤ right.1)
    (fun left right : JsString × List Char => left.1 ≤ right.1) (fun m => (m.1, f m.2)) members
    fun _ _ _ _ => Iff.rfl
  exact hmap.symm

mutual

lemma canonicalJson_eq (hzero : numberToString 0 = ['0']) : (value : JsonValue) →
    canonicalJson numberToString value = stringify numberToString (canonical (nullOverflow value))
  | .null => rfl
  | .bool b => by
    rw [canonicalJson]
    rfl
  | .number (.finite q) => by
    rw [canonicalJson]
    rfl
  | .number .negativeZero => by
    rw [canonicalJson]
    exact hzero.symm
  | .number (.infinite negative) => by
    rw [canonicalJson]
    rfl
  | .string s => by
    rw [canonicalJson]
    rfl
  | .array items => by
    rw [canonicalJson, canonicalItems_eq hzero items]
    rfl
  | .object members => by
    rw [canonicalJson, canonicalMembers_eq hzero members, sortMembers_map, List.map_map]
    simp only [nullOverflow, canonical, stringify]
    rw [stringifyMembers_eq]
    rfl

lemma canonicalItems_eq (hzero : numberToString 0 = ['0']) : (items : List JsonValue) →
    canonicalItems numberToString items =
      stringifyItems numberToString (JsonValue.canonicalItems (JsonValue.nullOverflowItems items))
  | [] => rfl
  | item :: items => by
    rw [canonicalItems, canonicalJson_eq hzero item, canonicalItems_eq hzero items]
    rfl

lemma canonicalMembers_eq (hzero : numberToString 0 = ['0']) :
    (members : List (JsString × JsonValue)) →
    canonicalMembers numberToString members =
      (JsonValue.canonicalMembers (JsonValue.nullOverflowMembers members)).map
        fun m => (m.1, stringify numberToString m.2)
  | [] => rfl
  | (name, value) :: members => by
    rw [canonicalMembers, canonicalJson_eq hzero value, canonicalMembers_eq hzero members]
    rfl

end

end CanonicalJson

variable {h : Hashing ρ}

/-- What is written of a value without overflows is read back. -/
lemma Hashing.Standard.writtenBack (hstandard : h.Standard) {value : JsonValue}
    (hvalue : WellFormed value) :
    AllNumbers (WrittenBack h.numberToString tokenNumber) (canonical (nullOverflow value)) := by
  intro n hn
  obtain ⟨m, hm, rfl⟩ := JsonValue.number_mem_canonical hn
  obtain ⟨hmem, hfinite⟩ := JsonValue.number_mem_nullOverflow hm
  have hnumber := hvalue.numbers m hmem
  cases m with
  | finite q => exact hstandard.double q hnumber
  | negativeZero => exact hstandard.double 0 NumberText.isDouble_zero
  | infinite negative => exact absurd rfl (hfinite negative)

/-- Bodies have one canonical JSON when they are the same up to overflows. -/
lemma Hashing.Standard.canonicalJson_eq_iff (hstandard : h.Standard) {value other : JsonValue}
    (hvalue : WellFormed value) (hother : WellFormed other) :
    canonicalJson h.numberToString value = canonicalJson h.numberToString other ↔
      Same (nullOverflow value) (nullOverflow other) := by
  rw [canonicalJson_eq hstandard.zero, canonicalJson_eq hstandard.zero,
    ← JsonValue.canonical_eq_iff _ _ (DistinctNames.nullOverflow hvalue.names)
      (DistinctNames.nullOverflow hother.names)]
  constructor
  · exact JsonReader.stringify_inj (hstandard.writtenBack hvalue) (hstandard.writtenBack hother)
  · intro heq
    rw [heq]

lemma oneLine_token {token : List Char} (h : JsonReader.isNumberToken token = true) :
    OneLine token := by
  intro hmem
  have hchar := NumberText.isNumberChar_of_mem_token h '\n' hmem
  exact absurd hchar (by decide)

lemma Hashing.Standard.oneLine (hstandard : h.Standard) {value : JsonValue}
    (hvalue : WellFormed value) : OneLine (canonicalJson h.numberToString value) := by
  apply oneLine_canonicalJson
  intro n hn
  have hnumber := hvalue.numbers n hn
  cases n with
  | finite q => exact oneLine_token (hstandard.double q hnumber).1
  | negativeZero =>
    show OneLine ['0']
    decide
  | infinite negative =>
    show OneLine "null".toList
    decide

/-- The body without the control fields. -/
lemma wellFormed_keyMaterial {fields : List (JsString × JsonValue)}
    (hfields : WellFormed (.object fields)) : WellFormed (keyMaterial fields) := by
  have hmembers : ∀ v, v ∈ JsonValue.walkMembers (fields.filter fun entry => entry.1 ∉ controlFields) →
      v ∈ (JsonValue.object fields).walk := by
    intro v hv
    obtain ⟨m, hm, hmem⟩ := JsonReader.mem_walkMembers.mp hv
    exact List.mem_cons_of_mem _ (JsonReader.mem_walkMembers.mpr ⟨m, List.mem_of_mem_filter hm, hmem⟩)
  constructor
  · intro members hmem
    rcases List.mem_cons.mp hmem with heq | hmem
    · cases heq
      exact (hfields.names fields (JsonValue.self_mem_walk _)).sublist (List.filter_sublist.map _)
    · exact hfields.names members (hmembers _ hmem)
  · intro n hn
    rcases List.mem_cons.mp hn with heq | hmem
    · cases heq
    · exact hfields.numbers n (hmembers _ hmem)

/-! ## Keys -/

/-- The body of a request without the control fields, if it is an object. -/
def bodyMaterial (h : Hashing ρ) (input : CacheEligibilityInput) : Option JsonValue :=
  match h.jsonParse input.bodyBuffer with
  | .ok (.object fields) => some (keyMaterial fields)
  | _ => none

/-- The requests are the same but for the control fields and the order of members. -/
structure SameRequest (h : Hashing ρ) (input other : CacheEligibilityInput) : Prop where
  apiKeyId : input.apiKeyId = other.apiKeyId
  upstreamUrl : input.upstreamUrl = other.upstreamUrl
  body : ∃ material ∈ bodyMaterial h input, ∃ material' ∈ bodyMaterial h other,
    Same material material'

/-- What stands before the body in the text of the key. -/
def firstLines (input : CacheEligibilityInput) : List Char :=
  (input.apiKeyId.getD "").toList ++ '\n' :: input.upstreamUrl.toList

/-- The requests are the same but for numbers that overflow, where the other one has `null` or one
of the other sign. -/
structure SameUpToOverflow (h : Hashing ρ) (input other : CacheEligibilityInput) : Prop where
  firstLines : firstLines input = firstLines other
  body : ∃ material ∈ bodyMaterial h input, ∃ material' ∈ bodyMaterial h other,
    Same (nullOverflow material) (nullOverflow material')

lemma cacheLookupFor_key {input : CacheEligibilityInput} {lookup : CacheLookup ρ}
    (hlookup : cacheLookupFor h input = some lookup) :
    ∃ id fields, input.apiKeyId = some id ∧ h.jsonParse input.bodyBuffer = .ok (.object fields) ∧
      lookup.key = h.sha256 (keyText h.numberToString id input.upstreamUrl (keyMaterial fields)) := by
  obtain ⟨id, fields, hid, hparse, hfields⟩ := CacheRuns.cacheLookupFor_eq_some hlookup
  refine ⟨id, fields, hid, hparse, ?_⟩
  unfold lookupForFields at hfields
  dsimp only at hfields
  split at hfields
  · split_ifs at hfields
    obtain ⟨maxAgeMs, -, rfl⟩ := Option.map_eq_some_iff.mp hfields
    rfl
  · cases hfields

variable {input other : CacheEligibilityInput} {lookup lookup' : CacheLookup ρ}

/-- The keys of two requests are equal when the requests are the same up to overflows. -/
lemma key_eq_iff (hsha : Function.Injective h.sha256) (hstandard : h.Standard)
    (hlookup : cacheLookupFor h input = some lookup)
    (hlookup' : cacheLookupFor h other = some lookup') :
    lookup.key = lookup'.key ↔ SameUpToOverflow h input other := by
  obtain ⟨id, fields, hid, hparse, hkey⟩ := cacheLookupFor_key hlookup
  obtain ⟨id', fields', hid', hparse', hkey'⟩ := cacheLookupFor_key hlookup'
  have hmaterial : bodyMaterial h input = some (keyMaterial fields) := by
    unfold bodyMaterial
    rw [hparse]
  have hmaterial' : bodyMaterial h other = some (keyMaterial fields') := by
    unfold bodyMaterial
    rw [hparse']
  have hfields := wellFormed_keyMaterial (hstandard.parse _ _ hparse)
  have hfields' := wellFormed_keyMaterial (hstandard.parse _ _ hparse')
  rw [hkey, hkey', hsha.eq_iff,
    keyText_eq_iff (hstandard.oneLine hfields) (hstandard.oneLine hfields'),
    hstandard.canonicalJson_eq_iff hfields hfields']
  constructor
  · rintro ⟨hlines, hsame⟩
    refine ⟨?_, _, hmaterial, _, hmaterial', hsame⟩
    unfold firstLines
    rw [hid, hid']
    exact hlines
  · rintro ⟨hlines, material, hmem, material', hmem', hsame⟩
    unfold firstLines at hlines
    rw [hid, hid'] at hlines
    cases hmaterial.symm.trans hmem
    cases hmaterial'.symm.trans hmem'
    exact ⟨hlines, hsame⟩

lemma SameRequest.sameUpToOverflow (hsame : SameRequest h input other) :
    SameUpToOverflow h input other := by
  obtain ⟨hid, hurl, material, hmem, material', hmem', hbody⟩ := hsame
  refine ⟨?_, material, hmem, material', hmem', Same.nullOverflow _ _ hbody⟩
  unfold firstLines
  rw [hid, hurl]

/-- The keys of two requests are equal exactly when the requests are the same, unless they are the
same up to overflows only. -/
theorem cache_key_exact (hsha : Function.Injective h.sha256) (hstandard : h.Standard)
    (hlookup : cacheLookupFor h input = some lookup)
    (hlookup' : cacheLookupFor h other = some lookup') :
    (lookup.key = lookup'.key ↔ SameRequest h input other) ↔
      (SameUpToOverflow h input other → SameRequest h input other) := by
  rw [key_eq_iff hsha hstandard hlookup hlookup']
  constructor
  · intro hexact
    exact hexact.mp
  · intro hcondition
    exact ⟨hcondition, SameRequest.sameUpToOverflow⟩

/-- The platform with texts for hashes; a body is ASCII. -/
def textHashing : Hashing (List Char) where
  jsonParse bytes :=
    match JsonReader.parse tokenNumber (bytes.map fun b => Char.ofNat b.toNat) with
    | some value => .ok value
    | none => .error "Unexpected token"
  numberToString q := (NumberText.numberToString q).toList
  sha256 := id

lemma textHashing_standard : textHashing.Standard where
  parse bytes value hparse := by
    unfold textHashing at hparse
    dsimp only at hparse
    split at hparse
    · rename_i heq
      cases hparse
      exact JsonReader.wellFormed_parse NumberText.isJsNumber_tokenNumber heq
    · cases hparse
  double _ := NumberText.writtenBack_double
  zero := by decide

/-- A scrape with a body. -/
def scrapeInput (body : String) : CacheEligibilityInput where
  method := "POST"
  upstreamUrl := "/v2/scrape"
  path := "/v2/scrape"
  headers := []
  apiKeyId := some "key-1"
  bodyBuffer := CacheRuns.asciiBytes body
  initialBackend := .cloud
  needsCloud := ⟨false, ""⟩
  privacy := ⟨false, false⟩

def timeoutBody (timeout : String) : String :=
  "\x7b\"url\":\"https://example.com\",\"timeout\":" ++ timeout ++ "\x7d"

/-- The members in another order, and a control field. -/
def reorderedBody : String :=
  "\x7b\"timeout\":2.0,\"maxAge\":5000,\"url\":\"https://example.com\"\x7d"

theorem cache_key_exact_reordered : ∃ lookup lookup',
    cacheLookupFor textHashing (scrapeInput (timeoutBody "2")) = some lookup ∧
    cacheLookupFor textHashing (scrapeInput reorderedBody) = some lookup' ∧
    lookup.key = lookup'.key ∧
    ((lookup.key = lookup'.key ↔
      SameRequest textHashing (scrapeInput (timeoutBody "2")) (scrapeInput reorderedBody)) ↔
      (SameUpToOverflow textHashing (scrapeInput (timeoutBody "2")) (scrapeInput reorderedBody) →
        SameRequest textHashing (scrapeInput (timeoutBody "2")) (scrapeInput reorderedBody))) := by
  have hkeys : (cacheLookupFor textHashing (scrapeInput (timeoutBody "2"))).map CacheLookup.key =
      (cacheLookupFor textHashing (scrapeInput reorderedBody)).map CacheLookup.key := by
    decide +kernel
  have hsome : (cacheLookupFor textHashing (scrapeInput (timeoutBody "2"))).isSome = true := by
    decide +kernel
  obtain ⟨lookup, hlookup⟩ := Option.isSome_iff_exists.mp hsome
  rw [hlookup] at hkeys
  obtain ⟨lookup', hlookup', hkey⟩ := Option.map_eq_some_iff.mp hkeys.symm
  exact ⟨lookup, lookup', hlookup, hlookup', hkey.symm,
    cache_key_exact Function.injective_id textHashing_standard hlookup hlookup'⟩

/-- A time limit that overflows, and none at all. -/
theorem overflow_shares_key : ∃ lookup lookup',
    cacheLookupFor textHashing (scrapeInput (timeoutBody "1e999")) = some lookup ∧
    cacheLookupFor textHashing (scrapeInput (timeoutBody "null")) = some lookup' ∧
    lookup.key = lookup'.key ∧
    ¬ SameRequest textHashing (scrapeInput (timeoutBody "1e999"))
      (scrapeInput (timeoutBody "null")) := by
  have hkeys : (cacheLookupFor textHashing (scrapeInput (timeoutBody "1e999"))).map
      CacheLookup.key =
        (cacheLookupFor textHashing (scrapeInput (timeoutBody "null"))).map CacheLookup.key := by
    decide +kernel
  have hsome : (cacheLookupFor textHashing (scrapeInput (timeoutBody "1e999"))).isSome = true := by
    decide +kernel
  have hnumber : (bodyMaterial textHashing (scrapeInput (timeoutBody "1e999"))).map
      (fun v => v.members.any fun m => m.2.isNumber) = some true := by
    decide +kernel
  have hnull : (bodyMaterial textHashing (scrapeInput (timeoutBody "null"))).map
      (fun v => v.members.any fun m => m.2.isNumber) = some false := by
    decide +kernel
  obtain ⟨lookup, hlookup⟩ := Option.isSome_iff_exists.mp hsome
  rw [hlookup] at hkeys
  obtain ⟨lookup', hlookup', hkey⟩ := Option.map_eq_some_iff.mp hkeys.symm
  refine ⟨lookup, lookup', hlookup, hlookup', hkey.symm, fun hsame => ?_⟩
  obtain ⟨material, hmem, material', hmem', hbody⟩ := hsame.body
  rw [Option.mem_def.mp hmem, Option.map_some] at hnumber
  rw [Option.mem_def.mp hmem', Option.map_some] at hnull
  have hother := hbody.number_member (Option.some.inj hnumber)
  rw [Option.some.inj hnull] at hother
  cases hother

end Proxy
end FirecrawlGateway
