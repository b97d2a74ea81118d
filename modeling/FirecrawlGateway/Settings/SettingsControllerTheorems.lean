import FirecrawlGateway.Alerts.AlertService
import FirecrawlGateway.Settings.SettingsController
import Mathlib.Data.List.DropRight

/-!
# What the settings page saves is what is read

A payload of `update` is refused before anything is written, or every consumer of a setting reads
the value that was accepted.
-/

namespace FirecrawlGateway
namespace SettingsController

open Alerts (AlertSettings StoredSettings loadSettings)
open CloudKeySetting (KeyEntry LoadError jsonParse loadCloudKeyEntries serializeCloudKeyEntries)
open NumberText (IsDouble IsJsNumber numberToString toNumber)
open Proxy (RouteMode integerSetting isJsSpace jsTrim maxResponseCacheTtlSeconds parseRouteMode)
open Settings (defaultAlertFallbackRatioPercent maxAlertCreditsThreshold telegramBotTokenPattern
  telegramChatIdPattern)

/-! ## White space -/

lemma jsTrim_of_no_space {cs : List Char} (h : ∀ c ∈ cs, isJsSpace c = false) :
    jsTrim cs = cs := by
  have hkeep : ∀ cs : List Char, (∀ c ∈ cs, isJsSpace c = false) →
      cs.dropWhile isJsSpace = cs := by
    intro cs hcs
    cases cs with
    | nil => rfl
    | cons c cs => rw [List.dropWhile_cons, if_neg (by simp [hcs c List.mem_cons_self])]
  unfold jsTrim
  rw [hkeep cs h, hkeep cs.reverse (fun c hc => h c (List.mem_reverse.mp hc)), List.reverse_reverse]

/-- Trimming leaves nothing to trim. -/
lemma jsTrim_jsTrim (cs : List Char) : jsTrim (jsTrim cs) = jsTrim cs := by
  have hright : ∀ cs : List Char, jsTrim cs = (cs.dropWhile isJsSpace).rdropWhile isJsSpace :=
    fun _ => rfl
  rw [hright (jsTrim cs), hright cs]
  have hhead : ((cs.dropWhile isJsSpace).rdropWhile isJsSpace).dropWhile isJsSpace =
      (cs.dropWhile isJsSpace).rdropWhile isJsSpace := by
    cases hdrop : cs.dropWhile isJsSpace with
    | nil => rfl
    | cons c rest =>
      have hc : isJsSpace c = false := by
        have := List.head?_dropWhile_not isJsSpace cs
        rw [hdrop] at this
        simpa using this
      -- the first character that is left is no white space
      obtain ⟨tail, htail⟩ := List.rdropWhile_prefix isJsSpace (l := c :: rest)
      cases hkept : (c :: rest).rdropWhile isJsSpace with
      | nil => rfl
      | cons d kept =>
        rw [hkept, List.cons_append] at htail
        cases htail
        rw [List.dropWhile_cons, hc]
        rfl
  rw [hhead, List.rdropWhile_idempotent]

/-! ## Numbers -/

/-- A whole number of a setting is a double. -/
lemma isDouble_whole {n : ℤ} (hlow : 0 ≤ n) (hhigh : n ≤ 1000000000) : IsDouble n := by
  refine NumberText.isDouble_intCast ?_
  rw [abs_of_nonneg hlow]
  omega

lemma jsTrim_numberToString {q : ℚ} (h : IsDouble q) :
    jsTrim (numberToString q).toList = (numberToString q).toList := by
  have htoken := (NumberText.toNumber_numberToString h).1
  exact jsTrim_of_no_space fun c hc => NumberText.of_isNumberChar (p := isJsSpace) (by decide)
    (NumberText.isNumberChar_of_mem_token htoken c hc)

/-- A number that was printed is read as itself. -/
lemma integerSetting_numberToString {n : ℤ} (hlow : 0 ≤ n) (hhigh : n ≤ 1000000000)
    (fallback : ℤ) : integerSetting toNumber (some (numberToString n)) fallback = n := by
  have hdouble := isDouble_whole hlow hhigh
  obtain ⟨htoken, hnumber⟩ := NumberText.toNumber_numberToString hdouble
  have hne : (numberToString n).toList ≠ [] := by
    intro hnil
    rw [hnil] at htoken
    exact absurd htoken (by decide)
  unfold integerSetting
  simp only [jsTrim_numberToString hdouble, if_neg hne, hnumber]
  rw [if_pos ⟨Rat.den_intCast n, by exact_mod_cast hlow⟩, Rat.num_intCast]

/-! ## The Telegram settings -/

/-- What `loadSettings` takes of the stored chat id. -/
def chatIdSetting (stored : Option String) : Option String :=
  let chatId := jsTrim (stored.getD "").toList
  if chatId = [] ∨ ¬telegramChatIdPattern chatId then none else some (String.ofList chatId)

/-- What `loadSettings` takes of the stored token. -/
def botTokenSetting (p : Alerts.Platform) (stored : Option String) : Option String :=
  if stored.getD "" = "" then none
  else match decryptSettingValue p.aes (stored.getD "") p.firecrawlKeysEncryptionKey with
    | .error _ => none
    | .ok botToken =>
      if ¬telegramBotTokenPattern botToken.value.toList then none else some botToken.value

/-- The settings of the alert service for a chat and a bot. -/
def alertSettings (p : Alerts.Platform) (stored : StoredSettings) (chatId botToken : String) :
    AlertSettings where
  botToken := botToken
  chatId := chatId
  creditsThreshold := integerSetting p.toNumber stored.alertCreditsLowThreshold 0
  ratioThreshold := integerSetting p.toNumber stored.alertFallbackRatioPercent
    defaultAlertFallbackRatioPercent

lemma loadSettings_eq (p : Alerts.Platform) (stored : StoredSettings) :
    loadSettings p stored = (chatIdSetting stored.telegramChatId).bind fun chatId =>
      (botTokenSetting p stored.telegramBotToken).map (alertSettings p stored chatId) := by
  unfold loadSettings chatIdSetting botTokenSetting
  simp only
  by_cases hchat : jsTrim (stored.telegramChatId.getD "").toList = [] ∨
      ¬telegramChatIdPattern (jsTrim (stored.telegramChatId.getD "").toList)
  · rw [if_pos hchat, if_pos (by tauto)]
    rfl
  · rw [if_neg hchat, Option.bind_some]
    by_cases htoken : stored.telegramBotToken.getD "" = ""
    · rw [if_pos htoken, if_pos (by tauto)]
      rfl
    · rw [if_neg htoken, if_neg (by tauto)]
      cases decryptSettingValue p.aes (stored.telegramBotToken.getD "")
          p.firecrawlKeysEncryptionKey with
      | error message => rfl
      | ok botToken =>
        simp only
        split_ifs <;> rfl

/-! ## Lists of fields -/

lemma mapM_some {α β : Type*} {f : α → Option β} {as : List α} {bs : List β}
    (h : as.mapM f = some bs) : List.Forall₂ (fun a b => f a = some b) as bs := by
  induction as generalizing bs with
  | nil =>
    cases h
    exact .nil
  | cons a as ih =>
    rw [List.mapM_cons] at h
    obtain ⟨b, hb, h⟩ := Option.bind_eq_some_iff.mp h
    obtain ⟨bs', hbs, h⟩ := Option.bind_eq_some_iff.mp h
    cases h
    exact .cons hb (ih hbs)

lemma mapM_ok {α β ε : Type*} {f : α → Except ε β} {as : List α} {bs : List β}
    (h : as.mapM f = .ok bs) : List.Forall₂ (fun a b => f a = .ok b) as bs := by
  induction as generalizing bs with
  | nil =>
    cases h
    exact .nil
  | cons a as ih =>
    rw [List.mapM_cons] at h
    cases hb : f a with
    | error e =>
      rw [hb] at h
      cases h
    | ok b =>
      rw [hb] at h
      cases hbs : as.mapM f with
      | error e =>
        rw [hbs] at h
        cases h
      | ok bs' =>
        rw [hbs] at h
        cases h
        exact .cons hb (ih hbs)

lemma mapM_error {α β ε : Type*} {f : α → Except ε β} {as : List α} {e : ε}
    (h : as.mapM f = .error e) : ∃ a ∈ as, f a = .error e := by
  induction as with
  | nil => cases h
  | cons a as ih =>
    rw [List.mapM_cons] at h
    cases hb : f a with
    | error e' =>
      rw [hb] at h
      cases h
      exact ⟨a, List.mem_cons_self, hb⟩
    | ok b =>
      rw [hb] at h
      cases hbs : as.mapM f with
      | error e' =>
        rw [hbs] at h
        cases h
        obtain ⟨a', ha', he⟩ := ih hbs
        exact ⟨a', List.mem_cons_of_mem _ ha', he⟩
      | ok bs =>
        rw [hbs] at h
        cases h

/-- What comes from a list comes from one of its elements. -/
lemma exists_of_forall₂ {α β : Type*} {R : α → β → Prop} {as : List α} {bs : List β}
    (h : List.Forall₂ R as bs) {b : β} (hb : b ∈ bs) : ∃ a ∈ as, R a b := by
  induction h with
  | nil => cases hb
  | cons hR _ ih =>
    rcases List.mem_cons.mp hb with rfl | hb
    · exact ⟨_, List.mem_cons_self, hR⟩
    · obtain ⟨a, ha, hR⟩ := ih hb
      exact ⟨a, List.mem_cons_of_mem _ ha, hR⟩

/-! ## What is accepted -/

/-- What a value that was accepted for a setting is. -/
def Accepted.Valid : SettingKey → Accepted → Prop
  | .firecrawlApiKeys, .keys entries => ∀ entry ∈ entries, entry.Valid
  | .apiKeyInactivityRevokeDays, .number q => IsDouble q ∧ 0 ≤ q
  | .defaultRouteMode, .routeMode _ => True
  | .telegramChatId, .chatId text =>
    jsTrim text.toList = text.toList ∧ (text.toList ≠ [] → telegramChatIdPattern text.toList)
  | .telegramBotToken, .botToken token =>
    token.toList ≠ [] → telegramBotTokenPattern token.toList
  | key, .whole n => (integerLimit key).isSome ∧ 0 ≤ n ∧ n ≤ 1000000000
  | _, _ => False

lemma keyOfLength_valid {key : JsString} {role : Option JsonValue} {entry : KeyEntry}
    (h : keyOfLength key role = some entry) : entry.Valid := by
  unfold keyOfLength at h
  split_ifs at h with hlength
  obtain ⟨role, -, rfl⟩ := Option.map_eq_some_iff.mp h
  rintro (rfl : key = [])
  exact hlength (by decide)

lemma toKeyEntry_valid {item : JsonValue} {entry : KeyEntry} (h : toKeyEntry item = some entry) :
    entry.Valid := by
  unfold toKeyEntry at h
  split at h
  · exact keyOfLength_valid h
  · split at h
    · exact keyOfLength_valid h
    · cases h

lemma acceptKeys_valid {name : String} {raw : JsonValue} {accepted : Accepted}
    (h : acceptKeys name raw = .ok accepted) :
    ∃ entries, accepted = .keys entries ∧ ∀ entry ∈ entries, entry.Valid := by
  unfold acceptKeys at h
  split at h
  · split_ifs at h
    split at h
    · rename_i entries hentries
      cases h
      refine ⟨entries, rfl, fun entry hentry => ?_⟩
      obtain ⟨item, -, hitem⟩ := exists_of_forall₂ (mapM_some hentries) hentry
      exact toKeyEntry_valid hitem
    · cases h
  · cases h

lemma strictNumber_isJsNumber {raw : JsonValue} (hraw : JsonReader.AllNumbers IsJsNumber raw)
    {n : JsNumber} (h : strictNumber raw = some n) : IsJsNumber n := by
  cases raw with
  | number m =>
    cases h
    exact hraw n (List.mem_singleton_self _)
  | string s =>
    unfold strictNumber at h
    simp only at h
    split_ifs at h
    exact NumberText.isJsNumber_toNumber h
  | _ => cases h

lemma finiteValue_isDouble {n : JsNumber} (hn : IsJsNumber n) {q : ℚ}
    (h : finiteValue n = some q) : IsDouble q := by
  cases n with
  | finite value =>
    cases h
    exact hn
  | negativeZero =>
    cases h
    exact NumberText.isDouble_zero
  | infinite negative => cases h

lemma integerLimit_le {key : SettingKey} {limit : ℤ} (h : integerLimit key = some limit) :
    limit ≤ 1000000000 := by
  cases key <;> cases h <;> decide

lemma acceptWhole_valid (key : SettingKey) {limit : ℤ} (hlimit : integerLimit key = some limit)
    {raw : JsonValue} {accepted : Accepted} (h : acceptWhole key.name limit raw = .ok accepted) :
    ∃ n, accepted = .whole n ∧ 0 ≤ n ∧ n ≤ 1000000000 := by
  unfold acceptWhole at h
  split at h
  · rename_i q hq
    split_ifs at h with hwhole
    cases h
    have hnum : ((q.num : ℤ) : ℚ) = q := Rat.coe_int_num_of_den_eq_one hwhole.1
    refine ⟨q.num, rfl, Rat.num_nonneg.mpr hwhole.2.1, ?_⟩
    have hle : q.num ≤ limit := by
      have := hwhole.2.2
      rw [← hnum] at this
      exact_mod_cast this
    exact hle.trans (integerLimit_le hlimit)
  · cases h

lemma acceptText_ok {name : String} {pattern : List Char → Bool} {message : String}
    {f : String → Accepted} {raw : JsonValue} {accepted : Accepted}
    (h : acceptText name pattern message f raw = .ok accepted) :
    ∃ text, accepted = f (String.ofList (jsTrim text)) ∧
      (jsTrim text ≠ [] → pattern (jsTrim text)) := by
  unfold acceptText at h
  split at h
  · rename_i s
    simp only at h
    split_ifs at h with hrefused
    cases h
    refine ⟨JsString.toChars s, rfl, fun hne => ?_⟩
    by_contra hpattern
    exact hrefused ⟨hne, hpattern⟩
  · cases h

/-- What is accepted is valid. -/
lemma acceptField_valid {key : SettingKey} {raw : JsonValue}
    (hraw : JsonReader.AllNumbers IsJsNumber raw) {accepted : Accepted}
    (h : acceptField key raw = .ok accepted) : accepted.Valid key := by
  cases key with
  | firecrawlApiKeys =>
    obtain ⟨entries, rfl, hvalid⟩ := acceptKeys_valid h
    exact hvalid
  | apiKeyInactivityRevokeDays =>
    have h' : acceptNumber _ raw = .ok accepted := h
    unfold acceptNumber at h'
    split at h'
    · rename_i q hq
      split_ifs at h' with hnonneg
      cases h'
      obtain ⟨n, hn, hvalue⟩ := Option.bind_eq_some_iff.mp hq
      exact ⟨finiteValue_isDouble (strictNumber_isJsNumber hraw hn) hvalue, hnonneg⟩
    · cases h'
  | defaultRouteMode =>
    have h' : acceptRouteMode _ raw = .ok accepted := h
    unfold acceptRouteMode at h'
    simp only at h'
    split at h'
    · split at h'
      · cases h'
        trivial
      · cases h'
    · cases h'
  | responseCacheTtlSeconds =>
    obtain ⟨n, rfl, hn⟩ := acceptWhole_valid .responseCacheTtlSeconds rfl h
    exact ⟨rfl, hn⟩
  | alertCreditsLowThreshold =>
    obtain ⟨n, rfl, hn⟩ := acceptWhole_valid .alertCreditsLowThreshold rfl h
    exact ⟨rfl, hn⟩
  | alertFallbackRatioPercent =>
    obtain ⟨n, rfl, hn⟩ := acceptWhole_valid .alertFallbackRatioPercent rfl h
    exact ⟨rfl, hn⟩
  | telegramChatId =>
    obtain ⟨text, rfl, hpattern⟩ := acceptText_ok h
    show jsTrim (String.ofList _).toList = (String.ofList _).toList ∧ _
    rw [String.toList_ofList]
    exact ⟨jsTrim_jsTrim text, hpattern⟩
  | telegramBotToken =>
    obtain ⟨text, rfl, hpattern⟩ := acceptText_ok h
    show (String.ofList _).toList ≠ [] → _
    rw [String.toList_ofList]
    exact hpattern

/-- A field is refused with a 400. -/
lemma acceptField_error {key : SettingKey} {raw : JsonValue} {failure : Failure}
    (h : acceptField key raw = .error failure) : ∃ message, failure = .badRequest message := by
  have hwhole : ∀ name limit, acceptWhole name limit raw = .error failure →
      ∃ message, failure = .badRequest message := by
    intro name limit h
    unfold acceptWhole at h
    split at h
    · split_ifs at h
      cases h
      exact ⟨_, rfl⟩
    · cases h
      exact ⟨_, rfl⟩
  have htext : ∀ name pattern message f, acceptText name pattern message f raw = .error failure →
      ∃ message, failure = .badRequest message := by
    intro name pattern message f h
    unfold acceptText at h
    split at h
    · simp only at h
      split_ifs at h
      cases h
      exact ⟨_, rfl⟩
    · cases h
      exact ⟨_, rfl⟩
  cases key with
  | firecrawlApiKeys =>
    have h' : acceptKeys _ raw = .error failure := h
    unfold acceptKeys at h'
    split at h'
    · split_ifs at h'
      · cases h'
        exact ⟨_, rfl⟩
      · split at h'
        · cases h'
        · cases h'
          exact ⟨_, rfl⟩
    · cases h'
      exact ⟨_, rfl⟩
  | apiKeyInactivityRevokeDays =>
    have h' : acceptNumber _ raw = .error failure := h
    unfold acceptNumber at h'
    split at h'
    · split_ifs at h'
      cases h'
      exact ⟨_, rfl⟩
    · cases h'
      exact ⟨_, rfl⟩
  | defaultRouteMode =>
    have h' : acceptRouteMode _ raw = .error failure := h
    unfold acceptRouteMode at h'
    simp only at h'
    split at h'
    · split at h'
      · cases h'
      · cases h'
        exact ⟨_, rfl⟩
    · cases h'
      exact ⟨_, rfl⟩
  | responseCacheTtlSeconds => exact hwhole _ _ h
  | alertCreditsLowThreshold => exact hwhole _ _ h
  | alertFallbackRatioPercent => exact hwhole _ _ h
  | telegramChatId => exact htext _ _ _ _ h
  | telegramBotToken => exact htext _ _ _ _ h

/-! ## What is read back -/

/-- Every consumer of the setting makes of the stored value what was accepted. -/
def ReadsBack (p : Alerts.Platform) (value : String) : SettingKey → Accepted → Prop
  | .firecrawlApiKeys, .keys entries => ∀ iv,
    loadCloudKeyEntries p.aes value p.firecrawlKeysEncryptionKey iv = (none, .ok entries)
  | .apiKeyInactivityRevokeDays, .number q => toNumber value = some (.finite q)
  | .defaultRouteMode, .routeMode mode => ∀ fallback, parseRouteMode (some value) fallback = mode
  | .telegramChatId, .chatId text => ∀ stored : StoredSettings, stored.telegramChatId = some value →
    loadSettings p stored = if text = "" then none else
      (botTokenSetting p stored.telegramBotToken).map (alertSettings p stored text)
  | .telegramBotToken, .botToken token => ∀ stored : StoredSettings,
    stored.telegramBotToken = some value → loadSettings p stored = if token = "" then none else
      (chatIdSetting stored.telegramChatId).map fun chatId => alertSettings p stored chatId token
  | key, .whole n => (integerLimit key).isSome ∧
    ∀ fallback, integerSetting toNumber (some value) fallback = n
  | _, _ => False

lemma toList_ne_nil {text : String} : text.toList ≠ [] ↔ text ≠ "" := by
  rw [ne_eq, ne_eq, ← String.toList_inj]
  rfl

lemma chatIdSetting_of_valid {text : String}
    (h : Accepted.Valid .telegramChatId (.chatId text)) :
    chatIdSetting (some text) = if text = "" then none else some text := by
  obtain ⟨htrim, hpattern⟩ : jsTrim text.toList = text.toList ∧
    (text.toList ≠ [] → telegramChatIdPattern text.toList) := h
  unfold chatIdSetting
  simp only [Option.getD_some, htrim]
  by_cases hempty : text = ""
  · rw [if_pos hempty, if_pos (Or.inl (by rw [hempty]; rfl))]
  · have hne := toList_ne_nil.mpr hempty
    rw [if_neg hempty, if_neg, String.ofList_toList]
    rintro (hnil | hrefused)
    · exact hne hnil
    · exact hrefused (hpattern hne)

lemma botTokenSetting_of_valid {p : Alerts.Platform} (haes : p.aes.Inverts) {token value : String}
    {iv : List UInt8} (h : Accepted.Valid .telegramBotToken (.botToken token))
    (hvalue : storedValue p.aes p.firecrawlKeysEncryptionKey iv (.botToken token) = .ok value) :
    botTokenSetting p (some value) = if token = "" then none else some token := by
  have hpattern : token.toList ≠ [] → telegramBotTokenPattern token.toList := h
  unfold storedValue at hvalue
  simp only at hvalue
  unfold botTokenSetting
  simp only [Option.getD_some]
  by_cases hempty : token = ""
  · rw [if_pos hempty] at hvalue ⊢
    cases hvalue
    exact if_pos rfl
  · rw [if_neg hempty] at hvalue ⊢
    obtain ⟨hmark, hdecrypt⟩ := decrypt_of_encrypt haes hvalue
    have hne : value ≠ "" := by
      rintro rfl
      exact absurd hmark (by decide)
    rw [if_neg hne, hdecrypt]
    simp only [hpattern (toList_ne_nil.mpr hempty), not_true_eq_false, if_false]

/-- What is stored of a valid value is read back as that value. -/
theorem readsBack_of_stored {p : Alerts.Platform} (haes : p.aes.Inverts) {key : SettingKey}
    {accepted : Accepted} (hvalid : accepted.Valid key) {iv : List UInt8} {value : String}
    (hvalue : storedValue p.aes p.firecrawlKeysEncryptionKey iv accepted = .ok value) :
    ReadsBack p value key accepted := by
  have hwhole : ∀ n : ℤ, 0 ≤ n ∧ n ≤ 1000000000 →
      storedValue p.aes p.firecrawlKeysEncryptionKey iv (.whole n) = .ok value →
      ∀ fallback, integerSetting toNumber (some value) fallback = n := by
    intro n hn hvalue fallback
    cases hvalue
    exact integerSetting_numberToString hn.1 hn.2 fallback
  cases key <;> cases accepted <;> try exact absurd hvalid id
  case firecrawlApiKeys.keys entries =>
    intro iv'
    have hencrypt : encryptSettingValue p.aes (serializeCloudKeyEntries entries)
      p.firecrawlKeysEncryptionKey iv = .ok value := hvalue
    obtain ⟨-, hdecrypt⟩ := decrypt_of_encrypt haes hencrypt
    unfold loadCloudKeyEntries
    rw [hdecrypt]
    simp only [if_true, CloudKeySetting.parse_serialize hvalid]
  case apiKeyInactivityRevokeDays.number q =>
    cases hvalue
    exact (NumberText.toNumber_numberToString hvalid.1).2
  case defaultRouteMode.routeMode mode =>
    intro fallback
    cases hvalue
    cases mode <;> rfl
  case telegramChatId.chatId text =>
    intro stored hstored
    cases hvalue
    rw [loadSettings_eq, hstored, chatIdSetting_of_valid hvalid]
    split_ifs <;> rfl
  case telegramBotToken.botToken token =>
    intro stored hstored
    rw [loadSettings_eq, hstored, botTokenSetting_of_valid haes hvalid hvalue]
    split_ifs
    · cases chatIdSetting stored.telegramChatId <;> rfl
    · cases chatIdSetting stored.telegramChatId <;> rfl
  case responseCacheTtlSeconds.whole n => exact ⟨rfl, hwhole n hvalid.2 hvalue⟩
  case alertCreditsLowThreshold.whole n => exact ⟨rfl, hwhole n hvalid.2 hvalue⟩
  case alertFallbackRatioPercent.whole n => exact ⟨rfl, hwhole n hvalid.2 hvalue⟩
  all_goals exact absurd hvalid.1 (by decide)

/-! ## Staging and writing -/

lemma settingKey_name {name : JsString} {key : SettingKey} (h : settingKey name = some key) :
    name = JsString.lit key.name := by
  have := List.find?_some h
  exact (of_decide_eq_true this).symm

lemma stageField_ok {aes : Aes256Gcm} {encryptionKey : String} {ivs : SettingKey → List UInt8}
    {field : JsString × JsonValue} {staged : Staged}
    (h : stageField aes encryptionKey ivs field = .ok staged) :
    settingKey field.1 = some staged.key ∧ acceptField staged.key field.2 = .ok staged.accepted ∧
      storedValue aes encryptionKey (ivs staged.key) staged.accepted = .ok staged.value := by
  unfold stageField at h
  split at h
  · cases h
  · rename_i key hkey
    split at h
    · cases h
    · rename_i accepted haccepted
      split at h
      · cases h
      · rename_i value hvalue
        cases h
        exact ⟨hkey, haccepted, hvalue⟩

/-- With a valid key for the encryption a field is only ever refused. -/
lemma stageField_error {aes : Aes256Gcm} {encryptionKey : String}
    (hkey : isEncryptionKey encryptionKey) {ivs : SettingKey → List UInt8}
    {field : JsString × JsonValue} {failure : Failure}
    (h : stageField aes encryptionKey ivs field = .error failure) :
    ∃ message, failure = .badRequest message := by
  unfold stageField at h
  split at h
  · cases h
    exact ⟨_, rfl⟩
  · rename_i key hname
    split at h
    · rename_i haccepted
      cases h
      exact acceptField_error haccepted
    · rename_i accepted haccepted
      -- the value can be encrypted
      obtain ⟨value, hvalue⟩ : ∃ value,
          storedValue aes encryptionKey (ivs key) accepted = .ok value := by
        cases accepted with
        | keys entries => exact encrypt_of_valid aes hkey _ _
        | botToken token =>
          unfold storedValue
          simp only
          split_ifs
          · exact ⟨_, rfl⟩
          · exact encrypt_of_valid aes hkey _ _
        | _ => exact ⟨_, rfl⟩
      rw [hvalue] at h
      cases h

lemma writeAll_of_not_mem {staged : List Staged} {key : SettingKey}
    (h : key ∉ staged.map Staged.key) (table : Table) : writeAll table staged key = table key := by
  induction staged generalizing table with
  | nil => rfl
  | cons field staged ih =>
    rw [List.map_cons, List.mem_cons, not_or] at h
    have := ih h.2 (Function.update table field.key (some field.value))
    rw [Function.update_of_ne h.1] at this
    exact this

/-- Every field is written. -/
lemma writeAll_of_mem {staged : List Staged} (hnodup : (staged.map Staged.key).Nodup)
    {field : Staged} (h : field ∈ staged) (table : Table) :
    writeAll table staged field.key = some field.value := by
  induction staged generalizing table with
  | nil => cases h
  | cons first staged ih =>
    rw [List.map_cons, List.nodup_cons] at hnodup
    rcases List.mem_cons.mp h with rfl | h
    · have := writeAll_of_not_mem hnodup.1 (Function.update table field.key (some field.value))
      rw [Function.update_self] at this
      exact this
    · exact ih hnodup.2 h _

/-- The fields of a payload have keys of their own. -/
lemma nodup_of_names {fields : List (JsString × JsonValue)} {staged : List Staged}
    (h : List.Forall₂ (fun field s => settingKey field.1 = some s.key) fields staged)
    (hnames : (fields.map Prod.fst).Nodup) : (staged.map Staged.key).Nodup := by
  induction h with
  | nil => exact List.nodup_nil
  | cons hkey hrest ih =>
    rename_i field s fields staged
    rw [List.map_cons, List.nodup_cons] at hnames ⊢
    refine ⟨fun hmem => ?_, ih hnames.2⟩
    obtain ⟨s', hs', heq⟩ := List.mem_map.mp hmem
    obtain ⟨field', hfield', hkey'⟩ := exists_of_forall₂ hrest hs'
    have hname : field.1 = field'.1 := by
      rw [settingKey_name hkey, settingKey_name hkey', heq]
    exact hnames.1 (hname ▸ List.mem_map_of_mem hfield')

/-- The fields of a payload that are staged: each is accepted with a valid value, for a setting of
its own. -/
lemma mapM_stageField {aes : Aes256Gcm} {encryptionKey : String} {ivs : SettingKey → List UInt8}
    {payload : String} {fields : List (JsString × JsonValue)} {staged : List Staged}
    (hpayload : jsonParse payload = some (.object fields))
    (h : fields.mapM (stageField aes encryptionKey ivs) = .ok staged) :
    List.Forall₂ (fun field s => settingKey field.1 = some s.key ∧
      acceptField s.key field.2 = .ok s.accepted ∧
      storedValue aes encryptionKey (ivs s.key) s.accepted = .ok s.value) fields staged ∧
    (staged.map Staged.key).Nodup ∧ ∀ s ∈ staged, s.accepted.Valid s.key := by
  have hwell := JsonReader.wellFormed_parse NumberText.isJsNumber_tokenNumber hpayload
  have hfields := (mapM_ok h).imp fun _ _ h => stageField_ok h
  refine ⟨hfields, ?_, fun s hs => ?_⟩
  · exact nodup_of_names (hfields.imp fun _ _ h => h.1) (hwell.names fields List.mem_cons_self)
  · obtain ⟨field, hfield, hs⟩ := exists_of_forall₂ hfields hs
    refine acceptField_valid (fun n hn => ?_) hs.2.1
    exact hwell.numbers n
      (List.mem_cons_of_mem _ (JsonReader.mem_walkMembers.mpr ⟨field, hfield, hn⟩))

/-- What a field leaves in the table when the payload is accepted. -/
lemma update_field {aes : Aes256Gcm} {encryptionKey : String} {ivs : SettingKey → List UInt8}
    {table written : Table} {payload : String} {fields : List (JsString × JsonValue)}
    {answer : List (SettingKey × JsonValue)}
    (hpayload : jsonParse payload = some (.object fields))
    (hupdate : update aes encryptionKey ivs table (.object fields) = (written, .ok answer))
    {name : JsString} {raw : JsonValue} (hfield : (name, raw) ∈ fields) :
    ∃ s : Staged, settingKey name = some s.key ∧ acceptField s.key raw = .ok s.accepted ∧
      storedValue aes encryptionKey (ivs s.key) s.accepted = .ok s.value ∧
      s.accepted.Valid s.key ∧ written s.key = some s.value := by
  obtain ⟨haccepts, hrefuses⟩ := update_stage aes encryptionKey ivs table (.object fields)
  cases hstage : fields.mapM (stageField aes encryptionKey ivs) with
  | error failure =>
    rw [hrefuses failure hstage] at hupdate
    cases hupdate
  | ok staged =>
    rw [haccepts staged hstage] at hupdate
    cases hupdate
    obtain ⟨hfields, hnodup, hvalid⟩ := mapM_stageField hpayload hstage
    obtain ⟨s, hs, hname, haccepted, hvalue⟩ := exists_of_forall₂ hfields.flip hfield
    exact ⟨s, hname, haccepted, hvalue, hvalid s hs, writeAll_of_mem hnodup hs table⟩

/-- The values that the alert service reads. -/
def alertSettingsOf (table : Table) : StoredSettings where
  alertCreditsLowThreshold := table .alertCreditsLowThreshold
  alertFallbackRatioPercent := table .alertFallbackRatioPercent
  telegramChatId := table .telegramChatId
  telegramBotToken := table .telegramBotToken

lemma key_of_chatId {key : SettingKey} {text : String}
    (h : Accepted.Valid key (.chatId text)) : key = .telegramChatId := by
  cases key <;> first | rfl | exact absurd h id

lemma key_of_botToken {key : SettingKey} {token : String}
    (h : Accepted.Valid key (.botToken token)) : key = .telegramBotToken := by
  cases key <;> first | rfl | exact absurd h id

/-- A chat and a bot that are written together are the audience of the alerts. -/
lemma loadSettings_of_written {p : Alerts.Platform} (haes : p.aes.Inverts) {written : Table}
    {chatId token value : String} {iv : List UInt8}
    (hchat : Accepted.Valid .telegramChatId (.chatId chatId))
    (htoken : Accepted.Valid .telegramBotToken (.botToken token))
    (hvalue : storedValue p.aes p.firecrawlKeysEncryptionKey iv (.botToken token) = .ok value)
    (hwritten : written .telegramChatId = some chatId)
    (hwritten' : written .telegramBotToken = some value) :
    (loadSettings p (alertSettingsOf written)).map (fun s => (s.chatId, s.botToken)) =
      if chatId = "" ∨ token = "" then none else some (chatId, token) := by
  have hstored : (alertSettingsOf written).telegramChatId = some chatId := hwritten
  have hstored' : (alertSettingsOf written).telegramBotToken = some value := hwritten'
  rw [loadSettings_eq, hstored, hstored', chatIdSetting_of_valid hchat,
    botTokenSetting_of_valid haes htoken hvalue]
  by_cases hempty : chatId = ""
  · rw [if_pos hempty, if_pos (Or.inl hempty)]
    rfl
  · rw [if_neg hempty]
    by_cases hempty' : token = ""
    · rw [if_pos hempty', if_pos (Or.inr hempty')]
      rfl
    · rw [if_neg hempty', if_neg (not_or.mpr ⟨hempty, hempty'⟩)]
      rfl

/-- The fields were written: each of them was accepted, what is stored of it is read back as what
was accepted, and no other setting changed. A chat and a bot that are accepted together are what
the alerts are sent with. -/
structure Saved (p : Alerts.Platform) (table : Table) (fields : List (JsString × JsonValue))
    (staged : List Staged) (written : Table) : Prop where
  accepted : List.Forall₂ (fun field s => settingKey field.1 = some s.key ∧
    acceptField s.key field.2 = .ok s.accepted) fields staged
  readBack : ∀ s ∈ staged, ∃ value, written s.key = some value ∧
    ReadsBack p value s.key s.accepted
  kept : ∀ key, key ∉ staged.map Staged.key → written key = table key
  audience : ∀ chatId token, (∃ s ∈ staged, s.accepted = .chatId chatId) →
    (∃ s ∈ staged, s.accepted = .botToken token) →
    (loadSettings p (alertSettingsOf written)).map (fun s => (s.chatId, s.botToken)) =
      if chatId = "" ∨ token = "" then none else some (chatId, token)

/-- What is accepted of a field is staged. -/
lemma Saved.exists_accepted {p : Alerts.Platform} {table written : Table}
    {fields : List (JsString × JsonValue)} {staged : List Staged}
    (h : Saved p table fields staged written) {name : JsString} {raw : JsonValue}
    (hfield : (name, raw) ∈ fields) {key : SettingKey} (hname : settingKey name = some key)
    {accepted : Accepted} (haccepted : acceptField key raw = .ok accepted) :
    ∃ s ∈ staged, s.accepted = accepted := by
  obtain ⟨s, hs, hkey, hvalue⟩ := exists_of_forall₂ h.accepted.flip hfield
  obtain rfl : key = s.key := Option.some.inj (hname.symm.trans hkey)
  exact ⟨s, hs, Except.ok.inj (hvalue.symm.trans haccepted)⟩

/-- **Writer and readers agree**: a payload is refused with a 400 and nothing is written, or all of
its fields are written and read back. -/
theorem update_read_back (p : Alerts.Platform) (haes : p.aes.Inverts)
    (hkey : isEncryptionKey p.firecrawlKeysEncryptionKey) (ivs : SettingKey → List UInt8)
    (table : Table) (payload : String) (updates : JsonValue)
    (hpayload : jsonParse payload = some updates) :
    (∃ message, update p.aes p.firecrawlKeysEncryptionKey ivs table updates =
      (table, .error (.badRequest message))) ∨
    ∃ fields staged written, updates = .object fields ∧
      update p.aes p.firecrawlKeysEncryptionKey ivs table updates =
        (written, .ok (staged.map Staged.result)) ∧
      Saved p table fields staged written := by
  obtain ⟨haccepts, hrefuses⟩ :=
    update_stage p.aes p.firecrawlKeysEncryptionKey ivs table updates
  cases updates with
  | object fields =>
    cases hstage : fields.mapM (stageField p.aes p.firecrawlKeysEncryptionKey ivs) with
    | error failure =>
      obtain ⟨field, -, hfield⟩ := mapM_error hstage
      obtain ⟨message, rfl⟩ := stageField_error hkey hfield
      exact Or.inl ⟨message, hrefuses _ hstage⟩
    | ok staged =>
      obtain ⟨hfields, hnodup, hvalid⟩ := mapM_stageField hpayload hstage
      have hread : ∀ s ∈ staged, ∃ value, writeAll table staged s.key = some value ∧
          ReadsBack p value s.key s.accepted := by
        intro s hs
        obtain ⟨field, -, hfield⟩ := exists_of_forall₂ hfields hs
        exact ⟨s.value, writeAll_of_mem hnodup hs table,
          readsBack_of_stored haes (hvalid s hs) hfield.2.2⟩
      refine Or.inr
        ⟨fields, staged, writeAll table staged, rfl, haccepts staged hstage, ?_, hread, ?_, ?_⟩
      · exact hfields.imp fun _ _ h => ⟨h.1, h.2.1⟩
      · exact fun key hmem => writeAll_of_not_mem hmem table
      · rintro chatId token ⟨chat, hchat, hchatId⟩ ⟨bot, hbot, hbotToken⟩
        have hchatValid := hvalid chat hchat
        have hbotValid := hvalid bot hbot
        rw [hchatId] at hchatValid
        rw [hbotToken] at hbotValid
        have hchatKey := key_of_chatId hchatValid
        have hbotKey := key_of_botToken hbotValid
        obtain ⟨_, -, hchatField⟩ := exists_of_forall₂ hfields hchat
        obtain ⟨_, -, hbotField⟩ := exists_of_forall₂ hfields hbot
        have hchatValue := hchatField.2.2
        have hbotValue := hbotField.2.2
        rw [hchatId] at hchatValue
        rw [hbotToken] at hbotValue
        have hwritten := writeAll_of_mem hnodup hchat table
        have hwritten' := writeAll_of_mem hnodup hbot table
        rw [hchatKey] at hchatValid hwritten
        rw [hbotKey] at hbotValid hwritten'
        cases hchatValue
        exact loadSettings_of_written haes hchatValid hbotValid hbotValue hwritten hwritten'
  | _ => exact Or.inl ⟨_, rfl⟩

/-- A cipher that only authenticates. -/
def plainAes : Aes256Gcm where
  encrypt _ iv value := (value.toByteArray.data.toList, iv)
  decrypt _ iv tag ciphertext :=
    if h : (ByteArray.mk ciphertext.toArray).IsValidUTF8 then
      if tag = iv then .ok (String.ofByteArray _ h)
      else .error "Unsupported state or unable to authenticate data"
    else .error "The decoded text is not valid UTF-8"

lemma plainAes_inverts : plainAes.Inverts := by
  intro key iv value
  have hbytes : ByteArray.mk value.toByteArray.data.toList.toArray = value.toByteArray := by simp
  have hvalid : (ByteArray.mk value.toByteArray.data.toList.toArray).IsValidUTF8 :=
    hbytes ▸ value.isValidUTF8
  have hdecrypt : plainAes.decrypt key iv iv value.toByteArray.data.toList =
      .ok (String.ofByteArray _ hvalid) := by
    unfold plainAes
    simp only
    rw [dif_pos hvalid, if_true]
  refine hdecrypt.trans (congrArg Except.ok ?_)
  cases value
  congr 1

def plainPlatform : Alerts.Platform where
  aes := plainAes
  firecrawlKeysEncryptionKey := "0123456789abcdef0123456789abcdef0123456789abcdef0123456789abcdef"
  toNumber := toNumber
  numberToString := numberToString
  percent fallbacks total := (200 * fallbacks + total) / (2 * total)

def sampleFields : List (JsString × JsonValue) :=
  [(JsString.lit "default_route_mode", .string (JsString.lit "hybrid")),
    (JsString.lit "telegram_chat_id", .string (JsString.lit " @alerts ")),
    (JsString.lit "telegram_bot_token", .string (JsString.lit "7:abcdefghijklmnopqrst"))]

lemma jsonParse_sampleFields :
    jsonParse (CloudKeySetting.jsonStringify (.object sampleFields)) =
      some (.object sampleFields) :=
  CloudKeySetting.jsonParse_jsonStringify fun n hn => by
    simp [sampleFields, JsonValue.walk, JsonValue.walkMembers] at hn

/-- Three fields that are accepted, of which the token is stored encrypted: the alerts are sent
with it. -/
theorem update_read_back_chat : ∃ staged written,
    update plainPlatform.aes plainPlatform.firecrawlKeysEncryptionKey (fun _ => []) (fun _ => none)
      (.object sampleFields) = (written, .ok (staged.map Staged.result)) ∧
    Saved plainPlatform (fun _ => none) sampleFields staged written ∧
    (loadSettings plainPlatform (alertSettingsOf written)).map (fun s => (s.chatId, s.botToken)) =
      some ("@alerts", "7:abcdefghijklmnopqrst") := by
  have hread := update_read_back plainPlatform plainAes_inverts (by decide) (fun _ => [])
    (fun _ => none) _ _ jsonParse_sampleFields
  rcases hread with ⟨message, h⟩ | ⟨fields, staged, written, hfields, h, hsaved⟩
  · have hanswer : (update plainPlatform.aes plainPlatform.firecrawlKeysEncryptionKey (fun _ => [])
        (fun _ => none) (.object sampleFields)).2.toOption.isSome = true := by decide +kernel
    rw [h] at hanswer
    cases hanswer
  · cases hfields
    refine ⟨staged, written, h, hsaved, ?_⟩
    refine (hsaved.audience "@alerts" "7:abcdefghijklmnopqrst" ?_ ?_).trans (if_neg (by decide))
    · exact hsaved.exists_accepted (List.mem_cons_of_mem _ List.mem_cons_self)
        (by decide : settingKey _ = some .telegramChatId) (by decide +kernel)
    · exact hsaved.exists_accepted (List.mem_cons_of_mem _ (List.mem_cons_of_mem _
        List.mem_cons_self)) (by decide : settingKey _ = some .telegramBotToken) (by decide +kernel)

end SettingsController
end FirecrawlGateway
