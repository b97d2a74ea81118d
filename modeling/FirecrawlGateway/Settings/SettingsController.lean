import FirecrawlGateway.Proxy.RequestHandling
import FirecrawlGateway.Settings.CloudKeySetting
import FirecrawlGateway.Settings.RuntimeSettings

/-!
# The settings controller

Model of `SettingsController.update` and `SettingsController.list`
(`apps/api/src/settings/settings.controller.ts`). Every field of a payload is accepted, or refused,
before the first one is written.
-/

namespace FirecrawlGateway
namespace SettingsController

open CloudKeySetting (KeyEntry entryObject jsonParse parseCloudKeyEntries serializeCloudKeyEntries)
open NumberText (numberToString toNumber)
open Proxy (CloudKeyRole RouteMode jsTrim maxResponseCacheTtlSeconds validRouteMode)
open Settings (maskBotToken maxAlertCreditsThreshold telegramBotTokenPattern telegramChatIdPattern)
open SettingsService (SettingRecord Statement)

/-! ## Settings -/

/-- `VALID_SETTINGS`. -/
inductive SettingKey
  | firecrawlApiKeys
  | apiKeyInactivityRevokeDays
  | defaultRouteMode
  | responseCacheTtlSeconds
  | alertCreditsLowThreshold
  | alertFallbackRatioPercent
  | telegramChatId
  | telegramBotToken
deriving DecidableEq, Repr

def validSettings : List SettingKey :=
  [.firecrawlApiKeys, .apiKeyInactivityRevokeDays, .defaultRouteMode, .responseCacheTtlSeconds,
    .alertCreditsLowThreshold, .alertFallbackRatioPercent, .telegramChatId, .telegramBotToken]

def SettingKey.name : SettingKey → String
  | .firecrawlApiKeys => "firecrawl_api_keys"
  | .apiKeyInactivityRevokeDays => "api_key_inactivity_revoke_days"
  | .defaultRouteMode => "default_route_mode"
  | .responseCacheTtlSeconds => "response_cache_ttl_seconds"
  | .alertCreditsLowThreshold => "alert_credits_low_threshold"
  | .alertFallbackRatioPercent => "alert_fallback_ratio_percent"
  | .telegramChatId => "telegram_chat_id"
  | .telegramBotToken => "telegram_bot_token"

/-- The setting of a name. -/
def settingKey (name : JsString) : Option SettingKey :=
  validSettings.find? fun key => JsString.lit key.name = name

inductive SettingType
  | string
  | number
  | json
deriving DecidableEq, Repr

/-- `SETTING_TYPES`. -/
def settingType : SettingKey → SettingType
  | .firecrawlApiKeys => .json
  | .apiKeyInactivityRevokeDays => .number
  | .defaultRouteMode => .string
  | .responseCacheTtlSeconds => .number
  | .alertCreditsLowThreshold => .number
  | .alertFallbackRatioPercent => .number
  | .telegramChatId => .string
  | .telegramBotToken => .string

/-- `INTEGER_LIMITS`. -/
def integerLimit : SettingKey → Option ℤ
  | .responseCacheTtlSeconds => some maxResponseCacheTtlSeconds
  | .alertCreditsLowThreshold => some maxAlertCreditsThreshold
  | .alertFallbackRatioPercent => some 100
  | _ => none

def maxCloudApiKeys : ℕ := 10

def minApiKeyLength : ℕ := 8

/-- The values of the settings table. -/
abbrev Table := SettingKey → Option String

/-- What `update` throws: `apiError(400, message)`, or an error of `encryptSettingValue`. -/
inductive Failure
  | badRequest (message : String)
  | thrown (message : String)
deriving DecidableEq, Repr

/-- The value a field is accepted with. -/
inductive Accepted
  | routeMode (mode : RouteMode)
  | whole (n : ℤ)
  | number (q : ℚ)
  | keys (entries : List KeyEntry)
  | chatId (chatId : String)
  | botToken (token : String)
deriving DecidableEq

/-! ## Fields -/

/-- `/^\d+(\.\d+)?$/`. -/
def isDecimalText (text : List Char) : Bool :=
  text.takeWhile Char.isDigit ≠ [] &&
    match text.dropWhile Char.isDigit with
    | [] => true
    | '.' :: fraction => fraction ≠ [] && fraction.all Char.isDigit
    | _ => false

/-- `strictNumber`; `none` is `NaN`. -/
def strictNumber : JsonValue → Option JsNumber
  | .number n => some n
  | .string raw =>
    if isDecimalText (jsTrim (JsString.toChars raw)) then toNumber (JsString.toText raw) else none
  | _ => none

/-- The value of a finite number. -/
def finiteValue : JsNumber → Option ℚ
  | .finite q => some q
  | .negativeZero => some 0
  | .infinite _ => none

def routeModeName : RouteMode → String
  | .selfHostedFirst => "self-hosted-first"
  | .selfHostedOnly => "self-hosted-only"
  | .cloudFirst => "cloud-first"
  | .cloudOnly => "cloud-only"
  | .hybrid => "hybrid"

def acceptRouteMode (name : String) (raw : JsonValue) : Except Failure Accepted :=
  let refused := Except.error <| .badRequest <| name ++
    " must be one of self-hosted-first, self-hosted-only, cloud-first, cloud-only, hybrid"
  match raw with
  | .string mode =>
    match validRouteMode (JsString.toText mode) with
    | some mode => .ok (.routeMode mode)
    | none => refused
  | _ => refused

/-- A role, `cloud` where there is none. -/
def roleOf (role : Option JsonValue) : Option CloudKeyRole :=
  match role with
  | none => some .cloud
  | some .null => some .cloud
  | some (.string role) =>
    if role = JsString.lit "cloud" then some .cloud
    else if role = JsString.lit "fallback" then some .fallback
    else none
  | some _ => none

/-- A key of some length with its role. -/
def keyOfLength (key : JsString) (role : Option JsonValue) : Option KeyEntry :=
  if key.length < minApiKeyLength then none else (roleOf role).map (KeyEntry.mk key)

/-- `toKeyEntry`. -/
def toKeyEntry (item : JsonValue) : Option KeyEntry :=
  match item with
  | .string key => keyOfLength key (some (.string (JsString.lit "cloud")))
  | item =>
    match item.member "key" with
    | some (.string key) => keyOfLength key (item.member "role")
    | _ => none

def acceptKeys (name : String) (raw : JsonValue) : Except Failure Accepted :=
  match raw with
  | .array items =>
    if items.length > maxCloudApiKeys then
      .error (.badRequest (name ++ " may contain at most " ++ toString maxCloudApiKeys ++ " keys"))
    else match items.mapM toKeyEntry with
      | some entries => .ok (.keys entries)
      | none => .error <| .badRequest <| name ++ " must be an array of API key strings, or " ++
          "\x7b key, role \x7d objects with role \"cloud\" or \"fallback\", of at least " ++
          toString minApiKeyLength ++ " characters"
  | _ => .error (.badRequest (name ++ " must be an array of API keys"))

/-- A string that, trimmed, is empty or of a pattern. -/
def acceptText (name : String) (pattern : List Char → Bool) (message : String)
    (accepted : String → Accepted) (raw : JsonValue) : Except Failure Accepted :=
  match raw with
  | .string raw =>
    let text := jsTrim (JsString.toChars raw)
    if text ≠ [] ∧ ¬pattern text then .error (.badRequest (name ++ message))
    else .ok (accepted (String.ofList text))
  | _ => .error (.badRequest (name ++ " must be a string"))

def acceptBotToken (name : String) : JsonValue → Except Failure Accepted :=
  acceptText name telegramBotTokenPattern " must look like <bot id>:<secret> from @BotFather"
    .botToken

def acceptChatId (name : String) : JsonValue → Except Failure Accepted :=
  acceptText name telegramChatIdPattern " must be a numeric chat id or an @channelname" .chatId

def acceptWhole (name : String) (limit : ℤ) (raw : JsonValue) : Except Failure Accepted :=
  match (strictNumber raw).bind finiteValue with
  | some q =>
    if q.den = 1 ∧ 0 ≤ q ∧ q ≤ limit then .ok (.whole q.num)
    else .error (.badRequest (name ++ " must be a whole number between 0 and " ++ toString limit))
  | none =>
    .error (.badRequest (name ++ " must be a whole number between 0 and " ++ toString limit))

def acceptNumber (name : String) (raw : JsonValue) : Except Failure Accepted :=
  match (strictNumber raw).bind finiteValue with
  | some q =>
    if 0 ≤ q then .ok (.number q)
    else .error (.badRequest (name ++ " must be a non-negative number"))
  | none => .error (.badRequest (name ++ " must be a non-negative number"))

/-- The branches of `update`. -/
def acceptField (key : SettingKey) (raw : JsonValue) : Except Failure Accepted :=
  match key with
  | .defaultRouteMode => acceptRouteMode key.name raw
  | .firecrawlApiKeys => acceptKeys key.name raw
  | .telegramBotToken => acceptBotToken key.name raw
  | .telegramChatId => acceptChatId key.name raw
  | key =>
    match integerLimit key with
    | some limit => acceptWhole key.name limit raw
    | none => acceptNumber key.name raw

/-! ## What is written -/

/-- The value that is stored; `iv` is what `randomBytes(12)` gave. -/
def storedValue (aes : Aes256Gcm) (encryptionKey : String) (iv : List UInt8) :
    Accepted → Except String String
  | .routeMode mode => .ok (routeModeName mode)
  | .whole n => .ok (numberToString n)
  | .number q => .ok (numberToString q)
  | .keys entries => encryptSettingValue aes (serializeCloudKeyEntries entries) encryptionKey iv
  | .chatId chatId => .ok chatId
  | .botToken token => if token = "" then .ok "" else encryptSettingValue aes token encryptionKey iv

/-- A field that is `staged`. -/
structure Staged where
  key : SettingKey
  value : String
  accepted : Accepted
deriving DecidableEq

def stageField (aes : Aes256Gcm) (encryptionKey : String) (ivs : SettingKey → List UInt8)
    (field : JsString × JsonValue) : Except Failure Staged :=
  match settingKey field.1 with
  | none => .error (.badRequest ("Invalid setting key: " ++ JsString.toText field.1))
  | some key =>
    match acceptField key field.2 with
    | .error failure => .error failure
    | .ok accepted =>
      match storedValue aes encryptionKey (ivs key) accepted with
      | .error message => .error (.thrown message)
      | .ok value => .ok ⟨key, value, accepted⟩

/-! ## What is answered -/

/-- The code units of a text. -/
def jsText (text : String) : JsString := text.toList.flatMap JsonReader.utf16

def parseValue (value : String) : SettingType → JsonValue
  | .json => (jsonParse value).getD (.string (jsText value))
  | .number =>
    match toNumber value with
    | some (.infinite _) => .string (jsText value)
    | some n => .number n
    | none => .string (jsText value)
  | .string => .string (jsText value)

/-- The value that is `echoed` in place of an encrypted one. -/
def echoed : Accepted → Option JsonValue
  | .keys entries => some (.array (entries.map entryObject))
  | .botToken token =>
    some (.string (jsText (if token = "" then "" else String.ofList (maskBotToken token.toList))))
  | _ => none

def Staged.result (staged : Staged) : SettingKey × JsonValue :=
  (staged.key, (echoed staged.accepted).getD (parseValue staged.value (settingType staged.key)))

/-! ## `update` -/

/-- `setSetting` of every field that is staged. -/
def writeAll (table : Table) (staged : List Staged) : Table :=
  staged.foldl (fun table field => Function.update table field.key (some field.value)) table

/-- The fields that `update` saves, one after the other. `ivs` has what `randomBytes(12)` gave for
each setting. -/
def stage (aes : Aes256Gcm) (encryptionKey : String) (ivs : SettingKey → List UInt8) :
    JsonValue → Except Failure (List Staged)
  | .object fields => fields.mapM (stageField aes encryptionKey ivs)
  | _ => .error (.badRequest "Expected JSON object with settings")

/-- The settings as they are afterwards, and the answer. -/
def update (aes : Aes256Gcm) (encryptionKey : String) (ivs : SettingKey → List UInt8)
    (table : Table) (updates : JsonValue) :
    Table × Except Failure (List (SettingKey × JsonValue)) :=
  match stage aes encryptionKey ivs updates with
  | .error failure => (table, .error failure)
  | .ok staged => (writeAll table staged, .ok (staged.map Staged.result))

/-- `update` saves what is staged, and nothing when a field is refused. -/
lemma update_stage (aes : Aes256Gcm) (encryptionKey : String) (ivs : SettingKey → List UInt8)
    (table : Table) (updates : JsonValue) :
    (∀ staged, stage aes encryptionKey ivs updates = .ok staged →
      update aes encryptionKey ivs table updates =
        (writeAll table staged, .ok (staged.map Staged.result))) ∧
    ∀ failure, stage aes encryptionKey ivs updates = .error failure →
      update aes encryptionKey ivs table updates = (table, .error failure) := by
  unfold update
  constructor
  · intro staged h
    rw [h]
  · intro failure h
    rw [h]

/-! ## `list` -/

/-- `maskedTelegramToken`. -/
def maskedTelegramToken (aes : Aes256Gcm) (encryptionKey stored : String) : String :=
  if stored = "" then ""
  else match decryptSettingValue aes stored encryptionKey with
    | .error _ => ""
    | .ok token =>
      if telegramBotTokenPattern token.value.toList then
        String.ofList (maskBotToken token.value.toList)
      else ""

def keyEntriesOrRaw (value : String) : JsonValue :=
  match parseCloudKeyEntries value with
  | .ok entries => .array (entries.map entryObject)
  | .error _ => .string (jsText value)

/-- The type of a stored setting, which may be one of another version. -/
def storedType (key : String) : SettingType :=
  ((settingKey (jsText key)).map settingType).getD .string

/-- A round of the loop of `list`: the statement of `replaceSettingIfUnchanged`, if there is one,
and the value that is answered. -/
def listRow (aes : Aes256Gcm) (encryptionKey : String) (iv : List UInt8) (row : SettingRecord) :
    Option Statement × Except String JsonValue :=
  if row.key = SettingKey.telegramBotToken.name then
    (none, .ok (.string (jsText (maskedTelegramToken aes encryptionKey row.value))))
  else if row.key = SettingKey.firecrawlApiKeys.name then
    match decryptSettingValue aes row.value encryptionKey with
    | .error message => (none, .error message)
    | .ok decrypted =>
      let value := keyEntriesOrRaw decrypted.value
      if decrypted.encrypted then (none, .ok value)
      else match encryptSettingValue aes row.value encryptionKey iv with
        | .error message => (none, .error message)
        | .ok replacement => (some (.updateMany row.value replacement), .ok value)
  else (none, .ok (parseValue row.value (storedType row.key)))

/-- `list` of the rows of the table: what it writes, and what it answers. -/
def list (aes : Aes256Gcm) (encryptionKey : String) (iv : List UInt8) :
    List SettingRecord → List Statement × Except String (List (String × JsonValue))
  | [] => ([], .ok [])
  | row :: rows =>
    match listRow aes encryptionKey iv row with
    | (statement, .error message) => (statement.toList, .error message)
    | (statement, .ok value) =>
      let (statements, data) := list aes encryptionKey iv rows
      (statement.toList ++ statements, data.map ((row.key, value) :: ·))

end SettingsController
end FirecrawlGateway
