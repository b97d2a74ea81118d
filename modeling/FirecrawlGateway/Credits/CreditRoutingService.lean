import FirecrawlGateway.Credits.CreditRouting

/-!
# The credit routing service between its `await`s

Model of the other methods of `CreditRoutingService`
(`apps/api/src/credits/credit-routing.service.ts`): `recordResponse` and `refreshCreditUsage` as
functions on the fields of the service, one for each section between two `await`s, and
`reserve` cut at its one `await`. A call of the ledger is the script it sends.
-/

namespace FirecrawlGateway
namespace CreditRouting

open CreditLedger (LedgerReserveResult SettleAction)

/-- `CREDIT_KEY_COOLDOWN_MS`. -/
def creditKeyCooldownMs : ℤ := 30000

/-- `CREDIT_USAGE_CACHE_TTL_MS`. -/
def creditUsageCacheTtlMs : ℤ := 30000

/-- `Number.MAX_SAFE_INTEGER`. -/
def maxSafeInteger : ℕ := 9007199254740991

/-- A script with the arguments the service computes for it. -/
inductive Script
  | reserve (keyIds : List String) (amount : ℤ) (now : ℤ)
  | capture (keyId : String)
  | settle (keyId reservationKey : String) (action : SettleAction) (cooldownUntil : ℤ)
  | settleActualUsage (keyId reservationKey : String) (actual : ℕ)
  | reconcile (keyId : String) (remainingCredits : ℚ) (sequence : ℕ) (now : ℤ)
      (renewsAt : Option ℤ)
deriving DecidableEq

/-! ## `reserve` -/

/-- What `reserve` comes to before its `await`. -/
inductive ReserveStart
  | done (routing : Routing) (reservation : Option CreditReservation)
  | askLedger (candidates : List Candidate) (amount : ℤ)

/-- `reserve` up to the call of the ledger. -/
def reserveStart (keyId : String → String) (r : Routing) (now : ℤ) (random : ℚ)
    (apiKeys : List String) (amount : ℚ) (excludedKeyIds : Finset String) : ReserveStart :=
  let candidates := candidates keyId r now apiKeys excludedKeyIds
  let amount := normalizedAmount amount
  if candidates = [] then .done r none
  else if now ≥ r.redisUnavailableUntil then .askLedger candidates amount
  else
    let (r, reservation) := reserveLocally r now random candidates amount
    .done r reservation

/-- `reserve` from the answer of the ledger on. -/
def reserveResume (r : Routing) (now : ℤ) (random : ℚ) (candidates : List Candidate) (amount : ℤ) :
    LedgerReserveResult String → Routing × Option CreditReservation
  | .reserved index _ reservationKey =>
    let r := { r with redisUnavailableUntil := 0 }
    match candidates[index]? with
    | some selected =>
      (r, some { selected with amount := amount, source := .redis,
                               reservationKey := some reservationKey })
    | none => reserveLocally r now random candidates amount
  | .noCapacity => (r, none)
  | .unavailable =>
    let r := { r with redisUnavailableUntil := now + redisFailureCooldownMs }
    reserveLocally r now random candidates amount

/-- The two sections make up the whole call. -/
lemma reserve_eq_sections (keyId : String → String) (call : Surroundings) (apiKeys : List String)
    (amount : ℚ) (excludedKeyIds : Finset String) :
    reserve keyId call apiKeys amount excludedKeyIds =
      match reserveStart keyId call.before call.now call.random apiKeys amount excludedKeyIds with
      | .done r reservation => (r, reservation)
      | .askLedger candidates amount => reserveResume call.after call.later call.random candidates
          amount (call.ledger (candidates.map Candidate.keyId) amount) := by
  unfold reserve reserveStart
  dsimp only
  split_ifs
  · rfl
  · dsimp only
    unfold reserveResume
    cases call.ledger _ _ <;> rfl
  · rfl

/-! ## `recordResponse` -/

/-- `reservation.source === "redis" && reservation.reservationKey`. -/
def redisKey (reservation : CreditReservation) : Option String :=
  if reservation.source = .redis then reservation.reservationKey.filter (· ≠ "") else none

/-- `recordResponse`, with the script it sends. -/
def recordResponse (r : Routing) (now : ℤ) (reservation : CreditReservation) (status : ℕ)
    (actualCreditsUsed : Option ℕ) : Routing × Option Script :=
  let keyId := reservation.keyId
  if status = 402 then
    ({ r with
        localDisabled := insert keyId r.localDisabled
        localCooldownUntil := Function.update r.localCooldownUntil keyId none },
      (redisKey reservation).map (.settle keyId · .disabled 0))
  else if status = 429 then
    let cooldownUntil := now + creditKeyCooldownMs
    ({ r with localCooldownUntil := Function.update r.localCooldownUntil keyId (some cooldownUntil) },
      (redisKey reservation).map (.settle keyId · .cooldown cooldownUntil))
  else if status = 401 ∨ status = 403 then
    (r, (redisKey reservation).map (.settle keyId · .refund 0))
  else if 200 ≤ status ∧ status < 300 then
    (r, (redisKey reservation).bind fun key =>
      (actualCreditsUsed.filter (· ≤ maxSafeInteger)).map (.settleActualUsage keyId key ·))
  else (r, none)

/-! ## `refreshCreditUsage` -/

/-- `CreditUsageDetails`. -/
structure CreditUsageDetails where
  remainingCredits : Option ℚ
  planCredits : Option ℚ := none
  billingPeriodStart : Option String := none
  billingPeriodEnd : Option String := none
  error : Option String := none
deriving DecidableEq

/-- `LedgerSnapshot`. -/
structure LedgerSnapshot where
  available : Bool
  sequence : ℕ
deriving DecidableEq, Repr

/-- The details of an answer without a number, and of one that could not be read. -/
def withoutCredits (details : CreditUsageDetails) : CreditUsageDetails :=
  { details with error := some "Credit usage response did not include remainingCredits" }

def failed (message : String) : CreditUsageDetails :=
  { remainingCredits := none, error := some message }

/-- `renewsAt`, from what `Date.parse` makes of the end of the billing period. -/
def renewsAt (parseDate : String → Option ℤ) (details : CreditUsageDetails) : Option ℤ :=
  ((details.billingPeriodEnd.filter (· ≠ "")).bind parseDate).filter (· > 0)

/-- What a refresh does to the fields once the ledger is reconciled. -/
def learn (r : Routing) (now : ℤ) (keyId : String) (renewsAt : Option ℤ) (remainingCredits : ℚ) :
    Routing :=
  let pool : LocalPool := ⟨renewsAt, some remainingCredits⟩
  let r := { r with localPools := Function.update r.localPools keyId (some pool) }
  if remainingCredits > 0 then
    let r := { r with localDisabled := r.localDisabled.erase keyId }
    if (r.localCooldownUntil keyId).getD 0 ≤ now then
      { r with localCooldownUntil := Function.update r.localCooldownUntil keyId none }
    else r
  else { r with localDisabled := insert keyId r.localDisabled }

end CreditRouting
end FirecrawlGateway
