import FirecrawlGateway.Lib.JsonValue

/-!
# What a body is searched for

Model of `apps/api/src/common/utils.ts`. The URL parser of the platform is a parameter: it gives
the hostname of a URL, or nothing where it throws.
-/

namespace FirecrawlGateway

open JsonValue (walk)

/-! ## Headers and bodies -/

/-- The value of a header, as Node has it. -/
inductive HeaderValue
  | undefined
  | text (value : List Char)
  | texts (values : List (List Char))
deriving DecidableEq, Repr

/-- The headers of a request, in the order of the object. -/
abbrev Headers := List (String × HeaderValue)

/-- `String(value || "")`. -/
def HeaderValue.toText : HeaderValue → List Char
  | undefined => []
  | text value => value
  | texts values => [','].intercalate values

/-- The value of a header; one that is missing is `undefined`. -/
def Headers.get (headers : Headers) (name : String) : HeaderValue :=
  (headers.lookup name).getD .undefined

/-- `request.body`: nothing, the bytes, or a value a parser made of them. -/
inductive RequestBody
  | undefined
  | buffer (bytes : List UInt8)
  | value (value : JsonValue)

/-- `inspectBody`; `jsonParse` is `JSON.parse` of a text in UTF-8, with the message where it
throws. -/
def inspectBody (jsonParse : List UInt8 → Except String JsonValue) (body : RequestBody)
    (headers : Headers) : Except String JsonValue :=
  if ¬"application/json".toList <:+: (headers.get "content-type").toText then .ok .null
  else match body with
    | .undefined => .ok .null
    | .buffer bytes => jsonParse bytes
    | .value value => .ok value

/-! ## Searching -/

def findObjectsByKey (value : JsonValue) (key : String) : List JsonValue :=
  (walk value).filterMap fun current => current.member key

/-- `/^https?:\/\//i`. -/
def isHttpUrl (value : JsString) : Bool :=
  let lower := value.map JsString.asciiLower
  JsString.lit "http://" <+: lower || JsString.lit "https://" <+: lower

/-- The URL a value is. -/
def targetUrl : JsonValue → Option JsString
  | .string s => if isHttpUrl s then some s else none
  | _ => none

def collectTargetUrls (jsonBody : JsonValue) : List JsString :=
  ((walk jsonBody).filterMap targetUrl).eraseDups

/-! ## Private hosts -/

/-- `/^(\d+)\.(\d+)\.(\d+)\.(\d+)$/`, with the four numbers. -/
def ipv4Parts (host : JsString) : Option (List ℕ) :=
  let parts := host.splitOn 0x2E
  if parts.length = 4 ∧ ∀ part ∈ parts, part ≠ [] ∧ part.all JsString.isDigit then
    some (parts.map JsString.decimal)
  else none

/-- `((high << 16) | low) >>> 0`. -/
def ip32 (high low : ℤ) : ℕ := ((high * 2 ^ 16 % 2 ^ 32).toNat ||| (low % 2 ^ 32).toNat)

/-- An IPv4-mapped address in its dotted form, and any other host as it is. -/
def unmapIpv4 (host : JsString) : JsString :=
  if ¬JsString.lit "::ffff:" <+: host then host
  else
    let suffix := host.drop 7
    if (ipv4Parts suffix).isSome then suffix
    else match suffix.splitOn 0x3A with
      | [high, low] =>
        match JsString.parseHex high, JsString.parseHex low with
        | some high, some low =>
          let ip := ip32 high low
          JsString.lit <| toString (ip / 2 ^ 24) ++ "." ++ toString (ip / 2 ^ 16 % 2 ^ 8) ++ "." ++
            toString (ip / 2 ^ 8 % 2 ^ 8) ++ "." ++ toString (ip % 2 ^ 8)
        | _, _ => host
      | _ => host

/-- The last part of `isPrivateHostname`, for an address. -/
def isPrivateAddress (host : JsString) : Bool :=
  if 0x3A ∈ host then
    let firstHextet := host.takeWhile (· ≠ 0x3A)
    -- an address that starts with `::` is private only where it is the loopback
    if firstHextet = [] then host = JsString.lit "::1"
    else match JsString.parseHex firstHextet with
      | none => false
      | some value =>
        -- unique local and link-local addresses
        (0xfc00 ≤ value && value ≤ 0xfdff) || (0xfe80 ≤ value && value ≤ 0xfebf)
  else match ipv4Parts host with
    | some [a, b, _, _] =>
      a = 10 || a = 127 || (a = 172 && 16 ≤ b && b ≤ 31) || (a = 192 && b = 168) ||
        (a = 169 && b = 254)
    | _ => false

/-- `isPrivateHostname`. The groups of an IPv6 host have at most four digits, for which the doubles
of the source are exact. -/
def isPrivateHostname (hostname : JsString) : Bool :=
  let lower := JsString.toLowerCase hostname
  -- the brackets of an IPv6 host
  let host :=
    if lower.head? = some 0x5B ∧ lower.getLast? = some 0x5D then lower.tail.dropLast else lower
  if host = JsString.lit "localhost" || JsString.endsWith host ".localhost" ||
      JsString.endsWith host ".local" || JsString.endsWith host ".internal" then true
  else if host ∈ [JsString.lit "127.0.0.1", JsString.lit "0.0.0.0", JsString.lit "::1"] then true
  else isPrivateAddress (unmapIpv4 host)

/-- `hasPrivateTargetUrl`, where `hostname` is `new URL(item).hostname`. -/
def hasPrivateTargetUrl (hostname : JsString → Option JsString) (urls : List JsString) : Bool :=
  urls.any fun item => (hostname item).any isPrivateHostname

example : (["10.1.2.3", "[::ffff:c0a8:101]", "[fd00::1]", "fc.example", "172.32.0.1"].map fun h =>
    isPrivateHostname (JsString.lit h)) = [true, true, true, false, false] := by decide +kernel

end FirecrawlGateway
