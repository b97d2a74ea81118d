import FirecrawlGateway.Credits.CreditRoutingService
import FirecrawlGateway.Lib.EventMachine
import FirecrawlGateway.Proxy.CloudResponse

/-!
# The Cloud keys of one instance

Proxied requests, `recordResponse` and credit refreshes on one `CreditRoutingService`, cut at their
`await`s. A ledger call sends a script; Redis may run it at any later time or never, and the
caller may give up waiting at any time, so that Redis answers, fails or times out at any point.
-/

namespace FirecrawlGateway
namespace CloudKeys

open CreditLedger (Store ReserveReply reserveResult reserveScript captureScript settleScript
  actualUsageScript reconcile)
open CreditRouting
open Proxy (CloudResponse recording)

/-- The opaque id of an API key, `Date.parse`, and the lifetime of a reservation. -/
structure Config where
  keyId : String → String
  parseDate : String → Option ℤ
  reservationTtlSeconds : ℕ

/-! ## State -/

inductive Reply
  | reserve (reply : Option (ReserveReply String))
  | capture (sequence : ℕ)
  | other
deriving DecidableEq

/-- A script that was sent, with its reply once Redis has run it. -/
structure Sent where
  script : Script
  reply : Option Reply := none
deriving DecidableEq

/-- A call of `reserve`; a waiting one names the script it sent. -/
inductive ReserveCall
  | waiting (script : ℕ) (candidates : List Candidate) (amount : ℤ)
  | returned (reservation : Option CreditReservation)
deriving DecidableEq

/-- How far a refresh is: at its `await` of the snapshot, of Cloud, of the ledger, or at its end. -/
inductive RefreshStage
  | capturing (script : ℕ)
  | fetching (snapshot : LedgerSnapshot)
  | reconciling (details : CreditUsageDetails) (remainingCredits : ℚ)
  | finished (details : CreditUsageDetails)
deriving DecidableEq

structure Refresh where
  apiKey : String
  stage : RefreshStage
deriving DecidableEq

/-- The service, its running calls, and Redis. -/
structure System where
  clock : ℕ := 0
  routing : Routing := {}
  creditUsageInFlight : String → Option ℕ := fun _ => none
  creditUsageCache : String → Option (CreditUsageDetails × ℤ) := fun _ => none
  reserves : ℕ → Option ReserveCall := fun _ => none
  refreshes : ℕ → Option Refresh := fun _ => none
  sent : List Sent := []
  redis : Store String String

/-! ## Sections -/

def send (s : System) (script : Script) : System := { s with sent := s.sent ++ [{ script := script }] }

def sendAll (s : System) (scripts : Option Script) : System := scripts.elim s (send s)

def setReserve (s : System) (call : ℕ) (reserve : ReserveCall) : System :=
  { s with reserves := Function.update s.reserves call (some reserve) }

def setRefresh (s : System) (call : ℕ) (refresh : Refresh) : System :=
  { s with refreshes := Function.update s.refreshes call (some refresh) }

/-- `recordResponse` up to its `await`; nothing follows it. -/
def record (s : System) (reservation : CreditReservation) (status : ℕ)
    (actualCreditsUsed : Option ℕ) : System :=
  let (routing, script) := recordResponse s.routing s.clock reservation status actualCreditsUsed
  sendAll { s with routing := routing } script

/-- A refresh starts, unless cached details or a refresh in flight serve the call: it asks for a
snapshot. -/
def startRefresh (s : System) (call : ℕ) (apiKey : String) (keyId : String) : System :=
  if (s.creditUsageCache apiKey).any ((s.clock : ℤ) < ·.2) then s
  else
    -- an entry that is over is dropped even where a refresh in flight serves the call
    let s := { s with creditUsageCache := Function.update s.creditUsageCache apiKey none }
    if (s.creditUsageInFlight apiKey).isSome then s
    else
      let s := setRefresh s call ⟨apiKey, .capturing s.sent.length⟩
      let inFlight := Function.update s.creditUsageInFlight apiKey (some call)
      send { s with creditUsageInFlight := inFlight } (.capture keyId)

/-- The last section of the inner function of a refresh: the fields learn the balance. -/
def learnBalance (c : Config) (s : System) (call : ℕ) (apiKey : String)
    (details : CreditUsageDetails) (remainingCredits : ℚ) : System :=
  let renewsAt := renewsAt c.parseDate details
  let routing := learn s.routing s.clock (c.keyId apiKey) renewsAt remainingCredits
  setRefresh { s with routing := routing } call ⟨apiKey, .finished details⟩

/-- Cloud's answer to a refresh has been read. -/
def receiveBalance (c : Config) (s : System) (call : ℕ) (apiKey : String)
    (snapshot : LedgerSnapshot) (details : CreditUsageDetails) : System :=
  match details.remainingCredits with
  | none => setRefresh s call ⟨apiKey, .finished (withoutCredits details)⟩
  | some remainingCredits =>
    if snapshot.available then
      let script := .reconcile (c.keyId apiKey) remainingCredits snapshot.sequence s.clock
        (renewsAt c.parseDate details)
      send (setRefresh s call ⟨apiKey, .reconciling details remainingCredits⟩) script
    else learnBalance c s call apiKey details remainingCredits

/-- `refreshCreditUsage` after its `await request`. -/
def endRefresh (s : System) (call : ℕ) (apiKey : String) (details : CreditUsageDetails) : System :=
  let s := { s with refreshes := Function.update s.refreshes call none }
  let entry := (details, s.clock + creditUsageCacheTtlMs)
  -- a failure is not cached
  let s :=
    if details.error.any (· ≠ "") then s
    else { s with creditUsageCache := Function.update s.creditUsageCache apiKey (some entry) }
  if s.creditUsageInFlight apiKey = some call then
    { s with creditUsageInFlight := Function.update s.creditUsageInFlight apiKey none }
  else s

/-- Redis runs a script. The keys of new reservations and the random number come with the call. -/
def runScript (c : Config) (redis : Store String String) (reservationKeys : List String)
    (random : ℚ) : Script → Store String String × Reply
  | .reserve keyIds amount now =>
    let (redis, reply) := reserveScript redis (keyIds.zip reservationKeys) now.toNat amount.toNat
      c.reservationTtlSeconds random
    (redis, .reserve reply)
  | .capture keyId => (redis, .capture (captureScript redis keyId))
  | .settle keyId reservationKey action cooldownUntil =>
    ((settleScript redis keyId reservationKey action cooldownUntil.toNat).1, .other)
  | .settleActualUsage keyId reservationKey actual =>
    ((actualUsageScript redis keyId reservationKey actual).1, .other)
  | .reconcile keyId remainingCredits sequence now renewsAt =>
    (reconcile redis keyId remainingCredits sequence now.toNat (renewsAt.getD 0).toNat, .other)

/-! ## Interleavings -/

/-- The atomic sections, with what they meet. Calls of `reserve` and of `refreshCreditUsage` have
numbers; `available` says whether the ledger answered in time. -/
inductive Event
  | tick (ms : ℕ)
  | reserve (call : ℕ) (apiKeys : List String) (amount : ℚ) (excludedKeyIds : Finset String)
      (random : ℚ)
  | reserveAnswered (call : ℕ) (available : Bool) (random : ℚ)
  /-- Cloud answers a proxied request made with the reservation of a `reserve` call. -/
  | proxied (call : ℕ) (response : CloudResponse)
  | recordResponse (reservation : CreditReservation) (status : ℕ) (actualCreditsUsed : Option ℕ)
  | refresh (call : ℕ) (apiKey : String)
  /-- The snapshot is there, and the request to Cloud is issued. -/
  | captured (call : ℕ) (available : Bool)
  | balance (call : ℕ) (details : CreditUsageDetails)
  /-- Cloud could not be reached, or its answer not be read. -/
  | failed (call : ℕ) (message : String)
  | reconciled (call : ℕ)
  | refreshed (call : ℕ)
  | redis (script : ℕ) (reservationKeys : List String) (random : ℚ)
  /-- Another instance changes Redis. -/
  | elsewhere (redis : Store String String)

/-- The reply of a script that Redis has run. -/
def replyOf (s : System) (script : ℕ) : Option Reply := (s.sent[script]?).bind Sent.reply

/-- What the ledger's `reserve` returns; `none` while there is no answer. -/
def ledgerReserve (s : System) (script : ℕ) (available : Bool) :
    Option (CreditLedger.LedgerReserveResult String) :=
  if available then
    match replyOf s script with
    | some (.reserve reply) => some (reserveResult reply)
    | _ => none
  else some .unavailable

/-- What the ledger's `capture` returns. -/
def ledgerCapture (s : System) (script : ℕ) (available : Bool) : Option LedgerSnapshot :=
  if available then
    match replyOf s script with
    | some (.capture sequence) => some ⟨true, sequence⟩
    | _ => none
  else some ⟨false, 0⟩

def step (c : Config) (s : System) : Event → Option System
  | .tick ms => some { s with clock := s.clock + ms }
  | .reserve call apiKeys amount excludedKeyIds random =>
    if s.reserves call ≠ none then none
    else
      match reserveStart c.keyId s.routing s.clock random apiKeys amount excludedKeyIds with
      | .done routing reservation =>
        some (setReserve { s with routing := routing } call (.returned reservation))
      | .askLedger candidates amount =>
        let s := setReserve s call (.waiting s.sent.length candidates amount)
        some (send s (.reserve (candidates.map Candidate.keyId) amount s.clock))
  | .reserveAnswered call available random =>
    match s.reserves call with
    | some (.waiting script candidates amount) =>
      (ledgerReserve s script available).map fun result =>
        let (routing, reservation) :=
          reserveResume s.routing s.clock random candidates amount result
        setReserve { s with routing := routing } call (.returned reservation)
    | _ => none
  | .proxied call response =>
    match s.reserves call with
    | some (.returned (some reservation)) =>
      match recording response with
      | .record actualCreditsUsed =>
        some (record s reservation response.status actualCreditsUsed)
      -- a stream is recorded later, or not at all
      | _ => some s
    | _ => none
  | .recordResponse reservation status actualCreditsUsed =>
    some (record s reservation status actualCreditsUsed)
  | .refresh call apiKey =>
    if s.refreshes call ≠ none then none
    else some (startRefresh s call apiKey (c.keyId apiKey))
  | .captured call available =>
    match s.refreshes call with
    | some ⟨apiKey, .capturing script⟩ =>
      (ledgerCapture s script available).map fun snapshot =>
        setRefresh s call ⟨apiKey, .fetching snapshot⟩
    | _ => none
  | .balance call details =>
    match s.refreshes call with
    | some ⟨apiKey, .fetching snapshot⟩ => some (receiveBalance c s call apiKey snapshot details)
    | _ => none
  | .failed call message =>
    match s.refreshes call with
    | some ⟨apiKey, .fetching _⟩ => some (setRefresh s call ⟨apiKey, .finished (failed message)⟩)
    | _ => none
  | .reconciled call =>
    match s.refreshes call with
    | some ⟨apiKey, .reconciling details remainingCredits⟩ =>
      some (learnBalance c s call apiKey details remainingCredits)
    | _ => none
  | .refreshed call =>
    match s.refreshes call with
    | some ⟨apiKey, .finished details⟩ => some (endRefresh s call apiKey details)
    | _ => none
  | .redis script reservationKeys random =>
    match s.sent[script]? with
    -- a script runs at most once
    | some ⟨sent, none⟩ =>
      let (redis, reply) := runScript c s.redis reservationKeys random sent
      some { s with redis := redis, sent := s.sent.set script ⟨sent, some reply⟩ }
    | _ => none
  | .elsewhere redis => some { s with redis := redis }

end CloudKeys
end FirecrawlGateway
