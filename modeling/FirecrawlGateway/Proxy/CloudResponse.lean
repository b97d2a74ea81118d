import Mathlib.Tactic

/-!
# What is recorded of a Cloud response

Model of the part of `proxyCloud` (`apps/api/src/proxy/proxy.service.ts`) that decides when a
response of Cloud is reported to the credit service, with what it reads of the response.
-/

namespace FirecrawlGateway
namespace Proxy

/-! ## Reading a response -/

/-- What `trim` strips: white space and line terminators. -/
def isJsSpace (c : Char) : Bool :=
  c.toNat ∈ [9, 10, 11, 12, 13, 32, 160, 5760, 8232, 8233, 8239, 8287, 12288, 65279] ||
    (8192 ≤ c.toNat && c.toNat ≤ 8202)

/-- `trim`. -/
def jsTrim (cs : List Char) : List Char :=
  ((cs.dropWhile isJsSpace).reverse.dropWhile isJsSpace).reverse

/-- `contentType?.split(";", 1)[0].trim().toLowerCase()`. Header values are Latin-1, and compared
with ASCII text only, where lower case is that of ASCII. -/
def mediaType (contentType : String) : List Char :=
  (jsTrim (contentType.toList.takeWhile (· ≠ ';'))).map Char.toLower

def isJsonContentType (contentType : Option String) : Bool :=
  match contentType with
  | none => false
  | some contentType =>
    mediaType contentType = "application/json".toList ||
      "+json".toList.isSuffixOf (mediaType contentType)

/-- `response.ok`. -/
def isOk (status : ℕ) : Bool := 200 ≤ status && status ≤ 299

/-- `proxyToBackend` hands on the stream of a response with a body and no error status, and
buffers the body of any other. -/
def isStreamed (status : ℕ) (hasBody : Bool) : Bool := (isOk status || status < 400) && hasBody

/-- A response of Cloud: whether it has a body, and what `extractCreditsUsed` finds in it. -/
structure CloudResponse where
  status : ℕ
  contentType : Option String
  hasBody : Bool
  creditsUsed : Option ℕ
deriving DecidableEq, Repr

/-! ## When it is recorded -/

/-- What `proxyCloud` does about `recordResponse`. -/
inductive Recording
  /-- The credits the stream turns out to report will be recorded. -/
  | observe
  | record (actualCreditsUsed : Option ℕ)
  | skip
deriving DecidableEq, Repr

/-- The branches of `proxyCloud` after `proxyToBackend`. -/
def recording (response : CloudResponse) : Recording :=
  let jsonResponse := isJsonContentType response.contentType
  let stream := isStreamed response.status response.hasBody
  if stream && isOk response.status && jsonResponse then .observe
  else if !(stream && !jsonResponse) then
    .record (if jsonResponse && !stream then response.creditsUsed else none)
  else .skip

/-- A response with an error status is always recorded, whatever its type and body. -/
lemma recording_of_error {response : CloudResponse} (h : 400 ≤ response.status) :
    ∃ actual, recording response = .record actual := by
  have hstream : isStreamed response.status response.hasBody = false := by
    have hok : ¬ response.status ≤ 299 := by omega
    have hlt : ¬ response.status < 400 := by omega
    simp [isStreamed, isOk, hok, hlt]
  simp [recording, hstream]

end Proxy
end FirecrawlGateway
