import FirecrawlGateway.Common.Crypto
import FirecrawlGateway.Lib.EventMachine
import FirecrawlGateway.Lib.IncidentLog
import FirecrawlGateway.Lib.JsMap
import FirecrawlGateway.Proxy.CircuitBreaker
import FirecrawlGateway.Proxy.RequestHandling
import FirecrawlGateway.Settings.RuntimeSettings

/-!
# The alert service

Model of `AlertService` (`apps/api/src/alerts/alert.service.ts`). `evaluate` is cut at its
`await`s: for the settings, and for each message. A call while another one goes on is skipped, so
the calls are a list of `Event`s. The ghost field `log` keeps what the evaluations came to.
-/

namespace FirecrawlGateway
namespace Alerts

open CircuitBreaker (CircuitState)
open IncidentLog (Notice)
open Proxy (integerSetting jsTrim)
open Settings (defaultAlertFallbackRatioPercent telegramBotTokenPattern telegramChatIdPattern)

/-! ## Data -/

/-- What the service is configured with and what it computes with: `percent fallbacks total` is
`Math.round((fallbacks / total) * 100)` in doubles. -/
structure Platform where
  aes : Aes256Gcm
  firecrawlKeysEncryptionKey : String
  toNumber : String → Option JsNumber
  numberToString : ℚ → String
  percent : ℕ → ℕ → ℕ

inductive RuleName
  | creditsLow
  | fallbackRate
  | circuitOpen
deriving DecidableEq, Repr

structure RuleState where
  firing : Bool := false
  lastNotifiedAt : ℤ := 0
  cleanChecks : ℕ := 0
deriving DecidableEq, Repr

structure AlertSettings where
  botToken : String
  chatId : String
  creditsThreshold : ℤ
  ratioThreshold : ℤ
deriving DecidableEq, Repr

structure RuleCheck where
  rule : RuleName
  active : Bool
  firingText : String
  resolvedText : String
deriving DecidableEq, Repr

/-- `CHECK_INTERVAL_MS` paces the calls; this is the window of `recentFallbackStats`. -/
def fallbackWindowMinutes : ℕ := 10

def fallbackMinRequests : ℕ := 20

def reminderMs : ℤ := 60 * 60000

def resolveAfterCleanChecks : ℕ := 3

/-- `MESSAGE_PREFIX`. -/
def messageMark : String := "[firecrawl-gateway]"

/-! ## Settings -/

/-- The values stored under `ALERT_SETTING_KEYS`. -/
structure StoredSettings where
  alertCreditsLowThreshold : Option String
  alertFallbackRatioPercent : Option String
  telegramChatId : Option String
  telegramBotToken : Option String
deriving DecidableEq, Repr

/-- `loadSettings`, once the stored values are there. -/
def loadSettings (p : Platform) (stored : StoredSettings) : Option AlertSettings :=
  let chatId := jsTrim (stored.telegramChatId.getD "").toList
  let encryptedToken := stored.telegramBotToken.getD ""
  if chatId = [] ∨ encryptedToken = "" ∨ ¬telegramChatIdPattern chatId then none
  else match decryptSettingValue p.aes encryptedToken p.firecrawlKeysEncryptionKey with
    | .error _ => none
    | .ok botToken =>
      if ¬telegramBotTokenPattern botToken.value.toList then none
      else some
        { botToken := botToken.value
          chatId := String.ofList chatId
          creditsThreshold := integerSetting p.toNumber stored.alertCreditsLowThreshold 0
          ratioThreshold := integerSetting p.toNumber stored.alertFallbackRatioPercent
            defaultAlertFallbackRatioPercent }

/-! ## Checks -/

/-- What the rules look at: `estimatedRemainingCredits`, `recentFallbackStats` over the window,
and `circuitStateNow`. -/
structure Conditions where
  keys : ℕ
  credits : ℚ
  total : ℕ
  fallbacks : ℕ
  circuit : CircuitState
deriving DecidableEq, Repr

/-- The name of a state in the metrics. -/
def circuitName : CircuitState → String
  | .closed => "closed"
  | .opened => "open"
  | .halfOpen => "half-open"

def creditsLowCheck (p : Platform) (creditsThreshold : ℤ) (c : Conditions) : RuleCheck where
  rule := .creditsLow
  active := 0 < c.keys ∧ c.credits < creditsThreshold
  firingText := "Estimated Firecrawl Cloud credits are low: about " ++ p.numberToString c.credits ++
    " left across " ++ toString c.keys ++ " key(s) (alert threshold " ++
    toString creditsThreshold ++ ")."
  resolvedText := "Estimated Firecrawl Cloud credits recovered: about " ++
    p.numberToString c.credits ++ " left across " ++ toString c.keys ++ " key(s)."

def fallbackRateCheck (p : Platform) (ratioThreshold : ℤ) (c : Conditions) : RuleCheck :=
  let percent := if 0 < c.total then p.percent c.fallbacks c.total else 0
  { rule := .fallbackRate
    active := fallbackMinRequests ≤ c.total ∧ ratioThreshold ≤ percent
    firingText := toString percent ++ "% of requests used a fallback in the last " ++
      toString fallbackWindowMinutes ++ " minutes (" ++ toString c.fallbacks ++ " of " ++
      toString c.total ++ ", alert threshold " ++ toString ratioThreshold ++ "%)."
    resolvedText := "The fallback rate is back to " ++ toString percent ++ "% (" ++
      toString c.fallbacks ++ " of " ++ toString c.total ++ " requests in the last " ++
      toString fallbackWindowMinutes ++ " minutes)." }

def circuitOpenCheck (c : Conditions) : RuleCheck where
  rule := .circuitOpen
  active := c.circuit ≠ .closed
  firingText := "The self-hosted backend circuit breaker is " ++ circuitName c.circuit ++
    ": requests fail fast or use a fallback instead of reaching self-hosted."
  resolvedText := "The self-hosted backend circuit breaker is closed again."

def collectChecks (p : Platform) (settings : AlertSettings) (c : Conditions) : List RuleCheck :=
  (if settings.creditsThreshold > 0 then [creditsLowCheck p settings.creditsThreshold c] else []) ++
    (if settings.ratioThreshold > 0 then [fallbackRateCheck p settings.ratioThreshold c] else []) ++
    [circuitOpenCheck c]

/-! ## Messages -/

/-- What `send` posts, with `disable_web_page_preview` set. -/
structure Message where
  url : String
  chatId : String
  text : String
deriving DecidableEq, Repr

/-- The words after the mark of a message. -/
def noticeText (check : RuleCheck) : Notice → String
  | .alert => "ALERT: " ++ check.firingText
  | .stillFiring => "STILL FIRING: " ++ check.firingText
  | .resolved => "RESOLVED: " ++ check.resolvedText

def message (settings : AlertSettings) (check : RuleCheck) (notice : Notice) : Message where
  url := "https://api.telegram.org/bot" ++ settings.botToken ++ "/sendMessage"
  chatId := settings.chatId
  text := messageMark ++ " " ++ noticeText check notice

/-! ## `apply` -/

/-- `apply` up to its `await`: the new state, and the message that is sent if there is one. -/
def beginApply (state : RuleState) (active : Bool) (now : ℤ) : RuleState × Option Notice :=
  if active then
    if ¬state.firing then ({ state with cleanChecks := 0 }, some .alert)
    else if now - state.lastNotifiedAt ≥ reminderMs then
      ({ state with cleanChecks := 0 }, some .stillFiring)
    else ({ state with cleanChecks := 0 }, none)
  else if ¬state.firing then (state, none)
  else
    let cleanChecks := state.cleanChecks + 1
    ({ state with cleanChecks := cleanChecks },
      if cleanChecks < resolveAfterCleanChecks then none else some .resolved)

/-- `apply` after its `await`; only a delivered message counts. -/
def endApply (state : RuleState) (notice : Notice) (now : ℤ) (delivered : Bool) : RuleState :=
  if ¬delivered then state
  else match notice with
    | .alert => { state with firing := true, lastNotifiedAt := now }
    | .stillFiring => { state with lastNotifiedAt := now }
    | .resolved => { state with firing := false, cleanChecks := 0 }

/-! ## `evaluate` -/

/-- A message that was sent, with whether Telegram took it. -/
structure Sent where
  notice : Notice
  message : Message
  delivered : Bool
deriving DecidableEq, Repr

/-- What evaluations come to: no configuration was found, a rule was off, or a rule was checked
under some settings. -/
inductive Entry
  | unconfigured
  | switchedOff (rule : RuleName)
  | checked (rule : RuleName) (settings : AlertSettings) (now : ℤ) (active : Bool)
      (sent : Option Sent)
deriving DecidableEq, Repr

/-- Where a call of `evaluate` is: it waits for the settings, or for a message, with the checks
that come after it. -/
inductive Stage
  | loading (now : ℤ)
  | sending (settings : AlertSettings) (now : ℤ) (check : RuleCheck) (notice : Notice)
      (rest : List RuleCheck)
deriving DecidableEq, Repr

/-- The fields of the service; `evaluating` is whether a call is at some stage. -/
structure System where
  states : JsMap RuleName RuleState := ∅
  evaluating : Option Stage := none
  destination : String := ""
  log : List Entry := []

def ruleState (s : System) (rule : RuleName) : RuleState := (s.states.get rule).getD {}

def AlertSettings.destination (settings : AlertSettings) : String :=
  settings.chatId ++ "\n" ++ settings.botToken

def setState (s : System) (rule : RuleName) (state : RuleState) : System :=
  { s with states := s.states.set rule state }

def logEntry (s : System) (entry : Entry) : System := { s with log := s.log ++ [entry] }

/-- `for (const check of checks) await this.apply(check, settings, now)`, up to the next `await`. -/
def applyAll (settings : AlertSettings) (now : ℤ) : System → List RuleCheck → System
  | s, [] => { s with evaluating := none }
  | s, check :: rest =>
    let applied := beginApply (ruleState s check.rule) check.active now
    let s := setState s check.rule applied.1
    match applied.2 with
    | none =>
      applyAll settings now (logEntry s (.checked check.rule settings now check.active none)) rest
    | some notice => { s with evaluating := some (.sending settings now check notice rest) }

/-- A different bot or chat is a different audience. -/
def setDestination (s : System) (destination : String) : System :=
  if destination ≠ s.destination then { s with states := ∅, destination := destination } else s

/-- Whether one of the checks is of this rule. -/
def isChecked (checks : List RuleCheck) (rule : RuleName) : Bool :=
  checks.any fun check => check.rule = rule

/-- A rule that was switched off forgets its incident. -/
def forgetRules (s : System) (checks : List RuleCheck) : System :=
  { s with
    states := (s.states.entries.map Prod.fst).foldl
      (fun states rule => if isChecked checks rule then states else states.delete rule) s.states
    log := s.log ++ ([.creditsLow, .fallbackRate, .circuitOpen].filter
      fun rule => !isChecked checks rule).map .switchedOff }

/-- `evaluate` once the stored values are there. -/
def evaluateSettings (p : Platform) (s : System) (now : ℤ) (stored : StoredSettings)
    (conditions : Conditions) : System :=
  match loadSettings p stored with
  | none =>
    logEntry { s with states := ∅, destination := "", evaluating := none } .unconfigured
  | some settings =>
    let checks := collectChecks p settings conditions
    applyAll settings now (forgetRules (setDestination s settings.destination) checks) checks

/-! ## Sequences of calls -/

inductive Event
  | evaluate (now : ℤ)
  /-- The settings are there; the rules are looked at in the same breath. -/
  | loaded (stored : StoredSettings) (conditions : Conditions)
  /-- The settings cannot be read. -/
  | failed
  /-- Telegram answers, or does not. -/
  | answered (delivered : Bool)
deriving DecidableEq, Repr

def step (p : Platform) (s : System) : Event → Option System
  | .evaluate now =>
    if s.evaluating.isSome then some s else some { s with evaluating := some (.loading now) }
  | .loaded stored conditions =>
    match s.evaluating with
    | some (.loading now) => some (evaluateSettings p s now stored conditions)
    | _ => none
  | .failed =>
    match s.evaluating with
    | some (.loading _) => some { s with evaluating := none }
    | _ => none
  | .answered delivered =>
    match s.evaluating with
    | some (.sending settings now check notice rest) =>
      let state := endApply (ruleState s check.rule) notice now delivered
      let sent := ⟨notice, message settings check notice, delivered⟩
      some <| applyAll settings now (logEntry (setState s check.rule state)
        (.checked check.rule settings now check.active (some sent))) rest
    | _ => none

end Alerts
end FirecrawlGateway
