import FirecrawlGateway.Credits.CreditLedger

/-!
# Reserving a Cloud key

Model of `CreditRoutingService.reserve` (`apps/api/src/credits/credit-routing.service.ts`). The
call awaits the ledger once, and other requests change the service's fields meanwhile: the
fields are given as they are before and after.
-/

namespace FirecrawlGateway
namespace CreditRouting

open CreditLedger (LedgerReserveResult)

/-- `REDIS_FAILURE_COOLDOWN_MS`. -/
def redisFailureCooldownMs : ℤ := 5000

/-- `MS_PER_DAY`. -/
def msPerDay : ℤ := 86400000

/-! ## Types -/

/-- An entry of `localPools`. -/
structure LocalPool where
  renewsAt : Option ℤ
  credits : Option ℚ
deriving DecidableEq

/-- The fields of `CreditRoutingService` that `reserve` reads. -/
structure Routing where
  localCooldownUntil : String → Option ℤ := fun _ => none
  localDisabled : Finset String := ∅
  localPools : String → Option LocalPool := fun _ => none
  redisUnavailableUntil : ℤ := 0

/-- A configured key with its opaque id. -/
structure Candidate where
  key : String
  keyId : String
deriving DecidableEq, Repr

inductive ReservationSource
  | redis
  | local
deriving DecidableEq, Repr

/-- `CreditReservation`. -/
structure CreditReservation extends Candidate where
  amount : ℤ
  source : ReservationSource
  reservationKey : Option String := none
deriving DecidableEq, Repr

/-! ## `reserveLocally` -/

/-- Not disabled, and not cooling down. -/
def Routing.usable (r : Routing) (now : ℤ) (keyId : String) : Bool :=
  keyId ∉ r.localDisabled && (r.localCooldownUntil keyId).getD 0 ≤ now

/-- The day a pool renews on; `none` is `Infinity`, for a missing or zero `renewsAt`. -/
def renewalDay (pool : Option LocalPool) : Option ℤ :=
  match pool.bind LocalPool.renewsAt with
  | some renewsAt => if renewsAt ≠ 0 then some (renewsAt / msPerDay) else none
  | none => none

/-- `day < bestDay`. -/
def earlier : Option ℤ → Option ℤ → Bool
  | some day, some bestDay => day < bestDay
  | some _, none => true
  | none, _ => false

/-- `pool?.credits ?? -1`. -/
def poolCredits (pool : Option LocalPool) : ℚ := (pool.bind LocalPool.credits).getD (-1)

/-- The locals of the selection loop. -/
structure Best where
  best : List Candidate := []
  bestDay : Option ℤ := none
  bestCredits : ℚ := -1

/-- One round of the loop. -/
def consider (r : Routing) (now : ℤ) (b : Best) (candidate : Candidate) : Best :=
  if !r.usable now candidate.keyId then b
  else
    let day := renewalDay (r.localPools candidate.keyId)
    let credits := poolCredits (r.localPools candidate.keyId)
    if b.best = [] ∨ earlier day b.bestDay ∨ (day = b.bestDay ∧ credits > b.bestCredits) then
      ⟨[candidate], day, credits⟩
    else if day = b.bestDay ∧ credits = b.bestCredits then { b with best := b.best ++ [candidate] }
    else b

/-- `best[Math.floor(Math.random() * best.length)]`. -/
def pickBest (best : List Candidate) (random : ℚ) : Option Candidate :=
  best[⌊random * best.length⌋.toNat]?

/-- The charge of a local pool. -/
def charge (r : Routing) (keyId : String) (amount : ℤ) : Routing :=
  match r.localPools keyId with
  | some ⟨renewsAt, some credits⟩ =>
    { r with localPools :=
      Function.update r.localPools keyId (some ⟨renewsAt, some (max 0 (credits - amount))⟩) }
  | _ => r

def reserveLocally (r : Routing) (now : ℤ) (random : ℚ) (candidates : List Candidate)
    (amount : ℤ) : Routing × Option CreditReservation :=
  let b := candidates.foldl (consider r now) {}
  match pickBest b.best random with
  | none => (r, none)
  | some selected =>
    (charge r selected.keyId amount, some { selected with amount := amount, source := .local })

/-! ## `reserve` -/

/-- What one call of `reserve` meets: the fields and the clock before and after its `await`, the
answer of the ledger to the candidates, and the random number. -/
structure Surroundings where
  before : Routing := {}
  now : ℤ := 0
  ledger : List String → ℤ → LedgerReserveResult String := fun _ _ => .unavailable
  after : Routing := {}
  later : ℤ := 0
  random : ℚ := 0

def normalizedAmount (amount : ℚ) : ℤ := max 1 ⌈amount⌉

/-- The keys that may be tried. -/
def candidates (keyId : String → String) (r : Routing) (now : ℤ) (apiKeys : List String)
    (excludedKeyIds : Finset String) : List Candidate :=
  ((apiKeys.map fun key => (⟨key, keyId key⟩ : Candidate)).filter
    (·.keyId ∉ excludedKeyIds)).filter fun c => r.usable now c.keyId

/-- `reserve`, with the fields it leaves. -/
def reserve (keyId : String → String) (call : Surroundings) (apiKeys : List String) (amount : ℚ)
    (excludedKeyIds : Finset String) : Routing × Option CreditReservation :=
  let candidates := candidates keyId call.before call.now apiKeys excludedKeyIds
  let amount := normalizedAmount amount
  if candidates = [] then (call.before, none)
  else if call.now ≥ call.before.redisUnavailableUntil then
    match call.ledger (candidates.map Candidate.keyId) amount with
    | .reserved index _ reservationKey =>
      let after := { call.after with redisUnavailableUntil := 0 }
      match candidates[index]? with
      -- an index outside the candidates falls through to the local pools
      | some selected =>
        (after, some { selected with amount := amount, source := .redis,
                                     reservationKey := some reservationKey })
      | none => reserveLocally after call.later call.random candidates amount
    | .noCapacity => (call.after, none)
    | .unavailable =>
      let after := { call.after with redisUnavailableUntil := call.later + redisFailureCooldownMs }
      reserveLocally after call.later call.random candidates amount
  else reserveLocally call.before call.now call.random candidates amount

end CreditRouting
end FirecrawlGateway
