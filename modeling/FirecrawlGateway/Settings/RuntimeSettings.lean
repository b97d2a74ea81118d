import Mathlib.Tactic

/-!
# What the settings page accepts

Model of the constants and patterns of `apps/api/src/settings/runtime-settings.ts`; its
`integerSetting` stands with the requests that use it.
-/

namespace FirecrawlGateway
namespace Settings

/-- `DEFAULT_ALERT_FALLBACK_RATIO_PERCENT`. -/
def defaultAlertFallbackRatioPercent : ℤ := 50

/-- `MAX_ALERT_CREDITS_THRESHOLD`. -/
def maxAlertCreditsThreshold : ℤ := 1000000000

/-! ## Telegram -/

/-- `[A-Za-z0-9_]`. -/
def isWordChar (c : Char) : Bool := c.isAlphanum || c = '_'

/-- `TELEGRAM_BOT_TOKEN_PATTERN`, `/^\d+:[A-Za-z0-9_-]{20,}$/`. -/
def telegramBotTokenPattern (token : List Char) : Bool :=
  token.takeWhile Char.isDigit ≠ [] &&
    match token.dropWhile Char.isDigit with
    | ':' :: secret => 20 ≤ secret.length && secret.all fun c => isWordChar c || c = '-'
    | _ => false

/-- `\d{1,20}`. -/
def isChatNumber (digits : List Char) : Bool :=
  1 ≤ digits.length && digits.length ≤ 20 && digits.all Char.isDigit

/-- `TELEGRAM_CHAT_ID_PATTERN`, `/^(-?\d{1,20}|@[A-Za-z][A-Za-z0-9_]{4,31})$/`. -/
def telegramChatIdPattern (chatId : List Char) : Bool :=
  match chatId with
  | '@' :: first :: name =>
    first.isAlpha && 4 ≤ name.length && name.length ≤ 31 && name.all isWordChar
  | '-' :: digits => isChatNumber digits
  | digits => isChatNumber digits

/-- `maskBotToken`. -/
def maskBotToken (token : List Char) : List Char :=
  token.takeWhile (· ≠ ':') ++ ":••••••••".toList

/-- A chat id stands on one line. -/
lemma newline_not_mem_of_chatId {chatId : List Char} (h : telegramChatIdPattern chatId) :
    '\n' ∉ chatId := by
  have hnumber : ∀ digits : List Char, isChatNumber digits → '\n' ∉ digits := by
    intro digits hdigits hmem
    simp only [isChatNumber, Bool.and_eq_true, List.all_eq_true] at hdigits
    exact absurd (hdigits.2 _ hmem) (by decide)
  unfold telegramChatIdPattern at h
  split at h
  · rename_i first name
    simp only [Bool.and_eq_true, List.all_eq_true] at h
    intro hmem
    rcases List.mem_cons.mp hmem with heq | hmem
    · exact absurd heq (by decide)
    rcases List.mem_cons.mp hmem with heq | hmem
    · subst heq
      exact absurd h.1.1.1 (by decide)
    · exact absurd (h.2 _ hmem) (by decide)
  · intro hmem
    rcases List.mem_cons.mp hmem with heq | hmem
    · exact absurd heq (by decide)
    · exact hnumber _ h hmem
  · exact hnumber _ h

end Settings
end FirecrawlGateway
