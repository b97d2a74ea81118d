import FirecrawlGateway.Proxy.RequestHandling

/-!
# The letter case of a content type

A body is only inspected where the content type contains `application/json` in lower case, while
the parser of the server and `isJsonContentType` ignore the case. What the inspection finds is the
same for two content types exactly where it inspects the body for both or for neither, or where
the body holds nothing that it looks for.
-/

namespace FirecrawlGateway
namespace Proxy

open JsonValue (walk)

variable {ρ : Type*} {p : Platform ρ} {config : ApiConfig} {request : ClientRequest}
  {ctx : ProxyContext}

/-! ## What the inspection looks for -/

/-- Nothing in the body says where the request should go. -/
structure Silent (config : ApiConfig) (request : ClientRequest) (path : String)
    (json : JsonValue) : Prop where
  urls : ∀ value ∈ walk json, targetUrl value = none
  cloud : isCloudOnlyPath path = true ∨ ∀ value ∈ walk json, cloudReason value = none
  headers : hasCredentialHeaders (privacyHeaders config request) = true ∨
    ∀ value ∈ findObjectsByKey json "headers", hasSensitiveName value = false

lemma targetUrl_ne_nil {value : JsonValue} {url : JsString} (h : targetUrl value = some url) :
    url ≠ [] := by
  cases value with
  | string s =>
    dsimp only [targetUrl] at h
    split_ifs at h with hurl
    cases h
    rintro rfl
    exact absurd hurl (by decide)
  | _ => cases h

lemma collectTargetUrls_eq_nil {json : JsonValue} :
    collectTargetUrls json = [] ↔ ∀ value ∈ walk json, targetUrl value = none := by
  have hnil : ((walk json).filterMap targetUrl).eraseDups = [] ↔
      (walk json).filterMap targetUrl = [] := by
    cases (walk json).filterMap targetUrl with
    | nil => exact iff_of_true rfl rfl
    | cons url urls =>
      rw [List.eraseDups_cons]
      exact iff_of_false (List.cons_ne_nil _ _) (List.cons_ne_nil _ _)
  rw [collectTargetUrls, hnil, List.filterMap_eq_nil_iff]

/-- The primary target URL is empty only where there is none. -/
lemma primaryTargetUrl_eq_nil {json : JsonValue} :
    (collectTargetUrls json).head?.getD [] = [] ↔ collectTargetUrls json = [] := by
  unfold collectTargetUrls
  cases hurls : (walk json).filterMap targetUrl with
  | nil => exact iff_of_true rfl rfl
  | cons url urls =>
    have hmem : url ∈ (walk json).filterMap targetUrl := hurls ▸ List.mem_cons_self
    obtain ⟨value, -, hurl⟩ := List.mem_filterMap.mp hmem
    rw [List.eraseDups_cons]
    exact iff_of_false (targetUrl_ne_nil hurl) (List.cons_ne_nil _ _)

lemma requestNeedsCloud_eq_null {path : String} {json : JsonValue} :
    requestNeedsCloud path json = requestNeedsCloud path .null ↔
      isCloudOnlyPath path = true ∨ ∀ value ∈ walk json, cloudReason value = none := by
  have hnull : (walk .null).findSome? cloudReason = none := rfl
  unfold requestNeedsCloud
  rw [hnull]
  by_cases hpath : isCloudOnlyPath path = true
  · simp [hpath]
  · rw [if_neg hpath, if_neg hpath, ← List.findSome?_eq_none_iff]
    cases (walk json).findSome? cloudReason <;> simp [hpath]

lemma hasSensitiveHeaders_eq_null {headers : Headers} {json : JsonValue} :
    hasSensitiveHeaders headers json = hasSensitiveHeaders headers .null ↔
      hasCredentialHeaders headers = true ∨
        ∀ value ∈ findObjectsByKey json "headers", hasSensitiveName value = false := by
  have hnull : findObjectsByKey .null "headers" = [] := rfl
  unfold hasSensitiveHeaders
  rw [hnull, List.any_nil, Bool.or_false]
  cases hasCredentialHeaders headers <;> simp

/-- The inspection finds what it finds in no body exactly where the body is silent. -/
lemma inspectJson_eq_null {json : JsonValue} :
    inspectJson p config request ctx json = inspectJson p config request ctx .null ↔
      Silent config request ctx.path json := by
  have hnone : collectTargetUrls .null = [] := rfl
  constructor
  · intro heq
    have hurl := congrArg Inspection.primaryTargetUrl heq
    have hcloud := congrArg Inspection.needsCloud heq
    have hheaders := congrArg (fun i => i.privacy.hasSensitiveHeaders) heq
    -- each field that is equal silences one of the searches
    dsimp only [inspectJson] at hurl hcloud hheaders
    rw [hnone, List.head?_nil, Option.getD_none, primaryTargetUrl_eq_nil,
      collectTargetUrls_eq_nil] at hurl
    exact ⟨hurl, requestNeedsCloud_eq_null.mp hcloud, hasSensitiveHeaders_eq_null.mp hheaders⟩
  · intro hsilent
    unfold inspectJson
    dsimp only
    rw [collectTargetUrls_eq_nil.mpr hsilent.urls, requestNeedsCloud_eq_null.mpr hsilent.cloud,
      hasSensitiveHeaders_eq_null.mpr hsilent.headers, hnone]
    rfl

/-! ## Two content types -/

/-- The request with this content type; the other headers are as they are. -/
def ClientRequest.withContentType (request : ClientRequest) (before after : Headers)
    (value : List Char) : ClientRequest :=
  { request with headers := before ++ ("content-type", .text value) :: after }

/-- `inspectBody` takes the body for JSON. -/
def isInspected (contentType : List Char) : Bool := "application/json".toList <:+: contentType

/-- The body as JSON, whatever its content type. -/
def jsonBody (jsonParse : List UInt8 → Except String JsonValue) :
    RequestBody → Except String JsonValue
  | .undefined => .ok .null
  | .buffer bytes => jsonParse bytes
  | .value value => .ok value

/-- Whether the body is inspected makes no difference. -/
def SilentRequest (p : Platform ρ) (config : ApiConfig) (request : ClientRequest) (path : String) :
    Prop :=
  config.maxBodyBytes < (getBodyBuffer p request).length ∨
    ∃ json, jsonBody p.jsonParse request.body = .ok json ∧ Silent config request path json

variable {before after : Headers} {v₁ v₂ : List Char}

lemma get_contentType (hbefore : "content-type" ∉ before.map Prod.fst) (value : List Char) :
    (request.withContentType before after value).headers.get "content-type" = .text value := by
  have hlookup : before.lookup "content-type" = none := by
    rw [List.lookup_eq_none_iff]
    intro header hheader
    rw [bne_iff_ne]
    intro heq
    exact hbefore (heq ▸ List.mem_map_of_mem hheader)
  unfold Headers.get ClientRequest.withContentType
  rw [List.lookup_append, hlookup]
  rfl

/-- Only whether the body is inspected depends on the content type. -/
lemma inspectBody_contentType (hbefore : "content-type" ∉ before.map Prod.fst)
    (value : List Char) :
    inspectBody p.jsonParse request.body (request.withContentType before after value).headers =
      if isInspected value then jsonBody p.jsonParse request.body else .ok .null := by
  unfold inspectBody isInspected
  rw [get_contentType hbefore]
  show (if ¬"application/json".toList <:+: value then _ else _) = _
  by_cases h : "application/json".toList <:+: value
  · rw [if_neg (not_not.mpr h), if_pos (decide_eq_true h)]
    cases request.body <;> rfl
  · rw [if_pos h, decide_eq_false h, if_neg Bool.false_ne_true]

/-- The values of the headers are not looked at. -/
lemma inspectJson_contentType (value other : List Char) (json : JsonValue) :
    inspectJson p config (request.withContentType before after value) ctx json =
      inspectJson p config (request.withContentType before after other) ctx json := by
  have hcredentials : hasCredentialHeaders
        (privacyHeaders config (request.withContentType before after value)) =
      hasCredentialHeaders
        (privacyHeaders config (request.withContentType before after other)) := by
    unfold privacyHeaders hasCredentialHeaders ClientRequest.withContentType
    -- only names are compared, and the name is the same
    split_ifs
    · simp only [List.any_append, List.any_cons]
    · simp only [List.filter_append, List.filter_cons, List.any_append]
      split_ifs
      · simp only [List.any_cons]
      · rfl
  unfold inspectJson hasSensitiveHeaders
  rw [hcredentials]

/-- What comes of the body, or of the attempt to parse it. -/
def inspectParsed (p : Platform ρ) (config : ApiConfig) (request : ClientRequest)
    (ctx : ProxyContext) : Except String JsonValue → Except Rejection Inspection
  | .error parseError => .error (invalidJsonBody parseError)
  | .ok json => .ok (inspectJson p config request ctx json)

/-- What is found out, by whether the body is inspected. -/
lemma inspectRequest_contentType (hbefore : "content-type" ∉ before.map Prod.fst)
    (hsize : ¬config.maxBodyBytes < (getBodyBuffer p request).length) (value other : List Char) :
    inspectRequest p config (request.withContentType before after value) ctx =
      inspectParsed p config (request.withContentType before after other) ctx
        (if isInspected value then jsonBody p.jsonParse request.body else .ok .null) := by
  have hsize' : ¬config.maxBodyBytes <
      (getBodyBuffer p (request.withContentType before after value)).length := hsize
  unfold inspectRequest
  rw [if_neg hsize', ← inspectBody_contentType hbefore]
  show _ = inspectParsed p config (request.withContentType before after other) ctx
    (inspectBody p.jsonParse (request.withContentType before after value).body _)
  cases inspectBody p.jsonParse (request.withContentType before after value).body
      (request.withContentType before after value).headers with
  | error parseError => rfl
  | ok json => exact congrArg Except.ok (inspectJson_contentType value other json)

/-- Inspecting a body and not inspecting it come to the same exactly where the body is silent. -/
lemma inspectParsed_eq_null :
    inspectParsed p config request ctx (jsonBody p.jsonParse request.body) =
        inspectParsed p config request ctx (.ok .null) ↔
      ∃ json, jsonBody p.jsonParse request.body = .ok json ∧
        Silent config request ctx.path json := by
  cases hjson : jsonBody p.jsonParse request.body with
  | error parseError => simp [inspectParsed]
  | ok json =>
    simp only [inspectParsed, Except.ok.injEq, exists_eq_left']
    exact inspectJson_eq_null

/-- Two content types lead to the same inspection exactly where the body is inspected for both or
for neither, or it makes no difference. -/
theorem inspectRequest_eq_iff (p : Platform ρ) (config : ApiConfig) (request : ClientRequest)
    (ctx : ProxyContext) (before after : Headers) (v₁ v₂ : List Char)
    (hbefore : "content-type" ∉ before.map Prod.fst) :
    inspectRequest p config (request.withContentType before after v₁) ctx =
        inspectRequest p config (request.withContentType before after v₂) ctx ↔
      isInspected v₁ = isInspected v₂ ∨
        SilentRequest p config (request.withContentType before after v₁) ctx.path := by
  by_cases hsize : config.maxBodyBytes < (getBodyBuffer p request).length
  · -- too large for the inspection, with either content type
    refine iff_of_true ?_ (Or.inr (Or.inl hsize))
    have htoo : ∀ value, inspectRequest p config (request.withContentType before after value) ctx =
        .error bodyTooLarge := fun value => if_pos hsize
    rw [htoo, htoo]
  · have hsilent : SilentRequest p config (request.withContentType before after v₁) ctx.path ↔
        inspectParsed p config (request.withContentType before after v₁) ctx
            (jsonBody p.jsonParse request.body) =
          inspectParsed p config (request.withContentType before after v₁) ctx (.ok .null) :=
      (or_iff_right hsize).trans inspectParsed_eq_null.symm
    rw [hsilent, inspectRequest_contentType hbefore hsize v₁ v₁,
      inspectRequest_contentType hbefore hsize v₂ v₁]
    -- where one of the two is inspected, the other stands for no body
    cases isInspected v₁ <;> cases isInspected v₂ <;> simp [eq_comm]

/-! ## A request that loses its restrictions -/

/-- A platform that knows one URL. -/
def onePlatform : Platform (List Char) where
  jsonParse _ := .error "Unexpected end of JSON input"
  numberToString _ := ['0']
  sha256 := id
  parseUrl _ := none
  hostname url :=
    if url = JsString.lit "http://10.0.0.1/" then some (JsString.lit "10.0.0.1") else none
  jsonStringify _ := []
  toNumber _ := none
  toUtf8 _ := []

def openConfig : ApiConfig := ⟨true, 5242880, "https://api.firecrawl.dev", "http://127.0.0.1:3002"⟩

/-- A scrape of a private address with actions. -/
def privateScrape : ClientRequest where
  method := "POST"
  originalUrl := "/v1/scrape"
  headers := []
  body := .value (.object
    [(JsString.lit "url", .string (JsString.lit "http://10.0.0.1/")),
      (JsString.lit "actions", .array [.object []])])
  rawBody := none
  admin := false
  requestId := "1"

def scrapeContext : ProxyContext :=
  { path := "/v1/scrape", upstreamUrl := "/v1/scrape", routeMode := .hybrid }

/-- Written as `Application/JSON`, the content type hides the private target and the actions. -/
theorem privateScrape_letterCase :
    "application/json".toList.map Char.toLower = "Application/JSON".toList.map Char.toLower ∧
    inspectRequest onePlatform openConfig
        (privateScrape.withContentType [] [] "application/json".toList) scrapeContext ≠
      inspectRequest onePlatform openConfig
        (privateScrape.withContentType [] [] "Application/JSON".toList) scrapeContext := by
  refine ⟨by decide +kernel, fun heq => ?_⟩
  have hfound := congrArg (fun r => r.toOption.map fun i : Inspection =>
    (i.needsCloud.required, i.privacy.hasPrivateTargetUrl)) heq
  exact absurd hfound (by decide +kernel)

theorem inspectRequest_eq_iff_privateScrape :
    inspectRequest onePlatform openConfig
        (privateScrape.withContentType [] [] "application/json".toList) scrapeContext =
      inspectRequest onePlatform openConfig
        (privateScrape.withContentType [] [] "Application/JSON".toList) scrapeContext ↔
      isInspected "application/json".toList = isInspected "Application/JSON".toList ∨
        SilentRequest onePlatform openConfig
          (privateScrape.withContentType [] [] "application/json".toList) scrapeContext.path :=
  inspectRequest_eq_iff onePlatform openConfig privateScrape scrapeContext [] [] _ _ (by decide)

end Proxy
end FirecrawlGateway
