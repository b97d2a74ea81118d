import FirecrawlGateway.Lib.Base64Url
import FirecrawlGateway.Lib.Utf8Text

/-!
# Admin sessions

Model of `apps/api/src/auth/session.service.ts`, and of the guard in `apps/api/src/auth/guards.ts`
that asks it. A cookie is the time it was issued at, a dot and a signature.
-/

namespace FirecrawlGateway

/-- The functions of the platform. -/
structure SessionPlatform where
  /-- `toLowerCase`, for any string. -/
  toLowerCase : JsString → JsString
  /-- HMAC with SHA-256, of a text in UTF-8. -/
  hmacSha256 : (secret text : JsString) → Vector UInt8 32

/-- `crypto.timingSafeEqual`. -/
def timingSafeEqual (left right : List UInt8) : Except String Bool :=
  if left.length ≠ right.length then .error "Input buffers must have the same byte length"
  else .ok (left = right)

/-- The fields of the configuration that are read here. -/
structure AuthConfig where
  authEnabled : Bool
  adminEmail : JsString
  adminPassword : JsString

structure AdminIdentity where
  email : JsString
deriving DecidableEq

/-- The service: its secret is the configured one, or a random one. -/
structure SessionService where
  platform : SessionPlatform
  config : AuthConfig
  secret : JsString

namespace SessionService

def sessionMaxAgeSeconds : ℤ := 30 * 24 * 60 * 60

def sessionClockSkewMs : ℤ := 60000

def email (s : SessionService) : JsString :=
  s.platform.toLowerCase (JsString.trim s.config.adminEmail)

def sign (s : SessionService) (email : JsString) (issuedAt : ℤ) : JsString :=
  let text := email ++ JsString.lit "\n" ++ JsString.lit (toString issuedAt) ++
    JsString.lit "\n" ++ s.config.adminPassword
  (Base64Url.encode (s.platform.hmacSha256 s.secret text).toList).map fun c => c.toNat.toUInt16

/-- `/^\d{1,15}$/`. -/
def isIssueTime (text : JsString) : Bool :=
  1 ≤ text.length && text.length ≤ 15 && text.all JsString.isDigit

/-- The session is not issued in the future, as far as clocks agree, and has not expired. -/
def inWindow (now issuedAt : ℤ) : Prop :=
  ¬(issuedAt > now + sessionClockSkewMs ∨ now - issuedAt > sessionMaxAgeSeconds * 1000)

instance (now issuedAt : ℤ) : Decidable (inWindow now issuedAt) :=
  inferInstanceAs (Decidable (¬(_ ∨ _)))

/-- `cookie` is `request.cookies?.[SESSION_COOKIE]`. -/
def getAdmin (s : SessionService) (now : ℤ) (cookie : Option JsString) :
    Except String (Option AdminIdentity) :=
  let value := cookie.getD []
  -- `indexOf` is -1 where there is no dot
  let separator : ℤ := if 0x2E ∈ value then value.idxOf 0x2E else -1
  if s.email = [] ∨ s.config.adminPassword = [] ∨ separator < 1 then .ok none
  else
    let issuedAtText := value.take separator.toNat
    let signature := value.drop (separator.toNat + 1)
    if ¬isIssueTime issuedAtText then .ok none
    else
      let issuedAt : ℤ := JsString.decimal issuedAtText
      if ¬inWindow now issuedAt then .ok none
      else
        let expected := s.sign s.email issuedAt
        if signature.length ≠ expected.length then .ok none
        else (timingSafeEqual (JsString.toUtf8 signature) (JsString.toUtf8 expected)).map
          fun equal => if equal then some ⟨s.email⟩ else none

/-- The cookie that `setAdmin` sets. -/
def setAdmin (s : SessionService) (now : ℤ) : JsString :=
  JsString.lit (toString now) ++ JsString.lit "." ++ s.sign s.email now

end SessionService

/-! ## The guard -/

inductive GuardAnswer
  | deny (status : ℕ) (error : String)
  | activate (admin : AdminIdentity)
deriving DecidableEq

def canActivate (s : SessionService) (now : ℤ) (cookie : Option JsString) :
    Except String GuardAnswer :=
  if ¬s.config.authEnabled then
    .ok (.deny 404 "Admin API is unavailable when AUTH_ENABLED=false.")
  else do
    match ← s.getAdmin now cookie with
    | none => pure (.deny 401 "Unauthorized")
    | some admin => pure (.activate admin)

end FirecrawlGateway
