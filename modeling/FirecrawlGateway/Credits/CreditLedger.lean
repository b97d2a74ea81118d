import FirecrawlGateway.Lib.EventMachine
import FirecrawlGateway.Lib.RedisStructures

/-!
# The credit ledger

Model of the Lua scripts and operations of `apps/api/src/credits/credit-ledger.store.ts`. The
store has a pool hash and a sorted set for each key id, and a hash for each reservation. A
script is one atomic function; where a `HINCRBY` fails it ends with the changes made so far and
no reply (`none`). Numbers are exact, times are in milliseconds.
-/

namespace FirecrawlGateway
namespace CreditLedger

open Redis

/-! ## The store -/

/-- A pool hash; `credits` and `authoritative` are missing until the first `RECONCILE_SCRIPT`. -/
structure Pool where
  credits : Option ℚ := none
  reserved : ℤ := 0
  reserveSequence : ℕ := 0
  disabled : Bool := false
  cooldownUntil : ℕ := 0
  renewsAt : ℕ := 0
  authoritative : Option ℚ := none
  initialized : Bool := false
  updatedAt : ℕ := 0
deriving DecidableEq

/-- The `action` of `settle`. -/
inductive SettleAction
  | refund
  | cooldown
  | disabled
deriving DecidableEq, Repr

/-- The `state` field of a reservation hash; `opened` is the source's `open`. -/
inductive ReservationState
  | opened
  | settled (action : SettleAction)
  | reconciled
deriving DecidableEq, Repr

/-- A reservation hash and its expiry. -/
structure Reservation where
  amount : ℕ
  sequence : ℕ
  state : ReservationState := .opened
  reconciled : Bool := false
  ttlSeconds : ℕ := 300
deriving DecidableEq

/-- All keys of the ledger, by key id `κ` and reservation key `ρ`. -/
structure Store (κ ρ : Type*) where
  pool : κ → Pool
  reservations : κ → SortedSet ρ
  reservation : ρ → Option Reservation

variable {κ ρ : Type*} [DecidableEq κ] [DecidableEq ρ]

namespace Store

def setPool (s : Store κ ρ) (p : κ) (pool : Pool) : Store κ ρ :=
  { s with pool := Function.update s.pool p pool }

def setReservations (s : Store κ ρ) (p : κ) (set : SortedSet ρ) : Store κ ρ :=
  { s with reservations := Function.update s.reservations p set }

def setReservation (s : Store κ ρ) (r : ρ) (reservation : Reservation) : Store κ ρ :=
  { s with reservation := Function.update s.reservation r (some reservation) }

/-- `DEL`. -/
def del (s : Store κ ρ) (r : ρ) : Store κ ρ :=
  { s with reservation := Function.update s.reservation r none }

/-- The hash of `r` exists and its `state` is `open`. -/
def isOpen (s : Store κ ρ) (r : ρ) : Bool :=
  match s.reservation r with
  | some reservation => reservation.state = .opened
  | none => false

end Store

/-! ## `RESERVE_SCRIPT` -/

/-- `msPerDay`. -/
def msPerDay : ℕ := 86400000

/-- The selection locals; `bestDay` starts as `nil`, and `⊤` is `math.huge`. -/
structure Selection where
  bestDay : Option (WithTop ℕ) := none
  bestCredits : ℚ := -1
  ties : List ℕ := []
  initialized : Bool := false

def renewalDay (renewsAt : ℕ) : WithTop ℕ := if renewsAt > 0 then ↑(renewsAt / msPerDay) else ⊤

/-- A pool that may be charged: `not disabled and cooldownUntil <= now and credits >= amount`. -/
def eligible (pool : Pool) (credits : ℚ) (now amount : ℕ) : Bool :=
  !pool.disabled && pool.cooldownUntil ≤ now && (amount : ℚ) ≤ credits

/-- `bestDay == nil or day < bestDay or (day == bestDay and credits > bestCredits)`. -/
def Selection.beatenBy (sel : Selection) (day : WithTop ℕ) (credits : ℚ) : Bool :=
  match sel.bestDay with
  | none => true
  | some best => day < best || (day = best && sel.bestCredits < credits)

/-- One round of the loop over the candidates; Lua counts them from 1, here they count from 0. -/
def consider (now amount : ℕ) (sel : Selection) (i : ℕ) (pool : Pool) : Selection :=
  match pool.credits with
  | none => sel
  | some credits =>
    let sel := { sel with initialized := true }
    if eligible pool credits now amount then
      let day := renewalDay pool.renewsAt
      if sel.beatenBy day credits then
        { sel with bestDay := some day, bestCredits := credits, ties := [i] }
      else if sel.bestDay = some day ∧ credits = sel.bestCredits then
        { sel with ties := sel.ties ++ [i] }
      else sel
    else sel

/-- The loop over the candidates from number `i` on. -/
def selectFrom (now amount : ℕ) : Selection → ℕ → List Pool → Selection
  | sel, _, [] => sel
  | sel, i, pool :: pools => selectFrom now amount (consider now amount sel i pool) (i + 1) pools

/-- `ties[i]`, which is `nil` out of range. -/
def luaIndex (ties : List ℕ) (i : ℤ) : Option ℕ := if 0 ≤ i then ties[i.toNat]? else none

/-- `ties[math.floor(random * #ties) + 1] or ties[1]`, if there are ties. -/
def pick (ties : List ℕ) (random : ℚ) : Option ℕ :=
  (luaIndex ties ⌊random * ties.length⌋).or ties.head?

/-- The reply of `RESERVE_SCRIPT`: `{selected, sequence, reservation}`, `{0, 0}` or `{-1, 0}`. -/
inductive ReserveReply (ρ : Type*)
  | selected (index sequence : ℕ) (reservation : ρ)
  | noCapacity
  | uninitialized
deriving DecidableEq

/-- The part of `RESERVE_SCRIPT` after the selection, on the selected pool. -/
def reserveIn (s : Store κ ρ) (i : ℕ) (p : κ) (r : ρ) (now amount ttl : ℕ) :
    Store κ ρ × Option (ReserveReply ρ) :=
  let pool := s.pool p
  let sequence := pool.reserveSequence + 1
  match hincrby pool.credits (-amount) with
  -- Redis does not roll a failed script back, so the sequence number stays taken
  | none => (s.setPool p { pool with reserveSequence := sequence }, none)
  | some credits =>
    let s := s.setPool p { pool with
      reserveSequence := sequence, credits := some credits, reserved := pool.reserved + amount,
      updatedAt := now }
    let s := s.setReservation r { amount := amount, sequence := sequence, ttlSeconds := ttl }
    (s.setReservations p ((s.reservations p).zadd sequence r), some (.selected i sequence r))

/-- The candidate `RESERVE_SCRIPT` selects: its number, key id and reservation key. -/
def selected (s : Store κ ρ) (keys : List (κ × ρ)) (now amount : ℕ) (random : ℚ) :
    Option (ℕ × κ × ρ) :=
  let sel := selectFrom now amount {} 0 (keys.map fun k => s.pool k.1)
  (pick sel.ties random).bind fun i => keys[i]?.map fun k => (i, k)

/-- `RESERVE_SCRIPT`; a candidate is a key id with the reservation key made for it. -/
def reserveScript (s : Store κ ρ) (keys : List (κ × ρ)) (now amount ttl : ℕ) (random : ℚ) :
    Store κ ρ × Option (ReserveReply ρ) :=
  let sel := selectFrom now amount {} 0 (keys.map fun k => s.pool k.1)
  if !sel.initialized then (s, some .uninitialized)
  else
    match selected s keys now amount random with
    | none => (s, some .noCapacity)
    | some (i, p, r) => reserveIn s i p r now amount ttl

/-! ## `CAPTURE_SCRIPT` -/

def captureScript (s : Store κ ρ) (p : κ) : ℕ := (s.pool p).reserveSequence

/-! ## `SETTLE_SCRIPT` -/

/-- The `if state == 'open'` part of `SETTLE_SCRIPT`; `none` where `HINCRBY` fails. -/
def settleOpen (s : Store κ ρ) (p : κ) (r : ρ) (reservation : Reservation) (action : SettleAction) :
    Store κ ρ × Option Unit :=
  let pool := { s.pool p with reserved := (s.pool p).reserved - reservation.amount }
  let s := s.setReservation r { reservation with state := .settled action }
  let s := s.setReservations p ((s.reservations p).zrem r)
  let s := s.setPool p pool
  if reservation.reconciled then (s, some ())
  else
    match hincrby pool.credits reservation.amount with
    | none => (s, none)
    | some credits => (s.setPool p { pool with credits := some credits }, some ())

/-- What `SETTLE_SCRIPT` does to the pool in the end: a later cooldown, or disabled for good. -/
def applyAction (pool : Pool) (action : SettleAction) (cooldownUntil : ℕ) : Pool :=
  match action with
  | .refund => pool
  | .cooldown =>
    if cooldownUntil > pool.cooldownUntil then { pool with cooldownUntil := cooldownUntil }
    else pool
  | .disabled => { pool with disabled := true, credits := some 0, cooldownUntil := 0 }

/-- `SETTLE_SCRIPT` from its `DEL` on. -/
def settleFinish (s : Store κ ρ) (p : κ) (r : ρ) (action : SettleAction) (cooldownUntil : ℕ) :
    Store κ ρ :=
  let s := s.del r
  s.setPool p (applyAction (s.pool p) action cooldownUntil)

/-- `SETTLE_SCRIPT`; the reply is `settled`. -/
def settleScript (s : Store κ ρ) (p : κ) (r : ρ) (action : SettleAction) (cooldownUntil : ℕ) :
    Store κ ρ × Option Bool :=
  match s.reservation r with
  | some reservation =>
    if reservation.state = .opened then
      match settleOpen s p r reservation action with
      | (s, none) => (s, none)
      | (s, some ()) => (settleFinish s p r action cooldownUntil, some true)
    else (settleFinish s p r action cooldownUntil, some false)
  | none => (settleFinish s p r action cooldownUntil, some false)

/-! ## `ACTUAL_USAGE_SCRIPT` -/

/-- The change of `credits` when `estimated` credits turn out to be `actual`; `none` where
`HINCRBY` fails. -/
def adjustCredits (credits : Option ℚ) (estimated : ℕ) (actual : ℤ) : Option (Option ℚ) :=
  let delta := actual - estimated
  if delta > 0 then
    -- the pool pays what it can, and the rest of the usage is lost
    let deduction := min (delta : ℚ) (max 0 (credits.getD 0))
    if deduction > 0 then (hincrby credits (-deduction)).map some else some credits
  else if delta < 0 then (hincrby credits (-delta)).map some
  else some credits

/-- `ACTUAL_USAGE_SCRIPT`. -/
def actualUsageScript (s : Store κ ρ) (p : κ) (r : ρ) (actual : ℤ) : Store κ ρ × Option Bool :=
  if actual < 0 then (s, some false)
  else
    match s.reservation r with
    | some reservation =>
      if reservation.state = .opened then
        match adjustCredits (s.pool p).credits reservation.amount actual with
        | none => (s, none)
        | some credits =>
          let pool := s.pool p
          let s := s.setPool p { pool with
            credits := credits, reserved := pool.reserved - reservation.amount }
          let s := s.setReservations p ((s.reservations p).zrem r)
          (s.del r, some true)
      else (s.del r, some false)
    | none => (s.del r, some false)

/-! ## `RECONCILE_SCRIPT` -/

/-- The state of the loop over the reservations of the pool. -/
structure Sweep (ρ : Type*) where
  reservations : SortedSet ρ
  reservation : ρ → Option Reservation
  pending : ℕ := 0
  outstanding : ℕ := 0

/-- `ZREM` and `DEL`. -/
def Sweep.drop (w : Sweep ρ) (r : ρ) : Sweep ρ :=
  { w with reservations := w.reservations.zrem r,
           reservation := Function.update w.reservation r none }

/-- One round of the loop: open reservations after the snapshot stay, all others go. The
`HSET` before the `DEL` of an older one is never seen. -/
def sweepOne (snapshotSequence : ℕ) (w : Sweep ρ) (r : ρ) : Sweep ρ :=
  match w.reservation r with
  | some reservation =>
    if reservation.state = .opened then
      if reservation.sequence > snapshotSequence then
        { w with pending := w.pending + reservation.amount,
                 outstanding := w.outstanding + reservation.amount }
      else
        let reconciled := { reservation with state := .reconciled, reconciled := true }
        { w with reservation := Function.update w.reservation r (some reconciled) }.drop r
    else w.drop r
  | none => w.drop r

/-- `RECONCILE_SCRIPT`; the reply is the new `credits`. -/
def reconcileScript (s : Store κ ρ) (p : κ) (snapshot : ℚ) (snapshotSequence now renewsAt : ℕ) :
    Store κ ρ × ℚ :=
  let w := (s.reservations p).zrange.foldl (sweepOne snapshotSequence)
    { reservations := s.reservations p, reservation := s.reservation }
  let credits := if snapshot - w.pending < 0 then 0 else snapshot - w.pending
  let pool := s.pool p
  let pool := { pool with
    credits := some credits
    authoritative := some snapshot
    initialized := true
    disabled := snapshot ≤ 0
    cooldownUntil := if pool.cooldownUntil ≤ now then 0 else pool.cooldownUntil
    reserved := w.outstanding
    renewsAt := renewsAt
    updatedAt := now }
  ({ pool := Function.update s.pool p pool
     reservations := Function.update s.reservations p w.reservations
     reservation := w.reservation }, credits)

/-! ## Operations of `RedisCreditLedgerStore` -/

/-- `LedgerReserveResult`. -/
inductive LedgerReserveResult (ρ : Type*)
  | reserved (index sequence : ℕ) (reservationKey : ρ)
  | noCapacity
  | unavailable
deriving DecidableEq

/-- What `reserve` makes of the script's reply. -/
def reserveResult : Option (ReserveReply ρ) → LedgerReserveResult ρ
  | some (.selected i sequence r) => .reserved i sequence r
  | some .noCapacity => .noCapacity
  | some .uninitialized => .unavailable
  | none => .unavailable

/-- `reserve`, when Redis answers. -/
def reserve (s : Store κ ρ) (keys : List (κ × ρ)) (now amount ttl : ℕ) (random : ℚ) :
    Store κ ρ × LedgerReserveResult ρ :=
  if keys.isEmpty then (s, .unavailable)
  else
    let (s, reply) := reserveScript s keys now amount ttl random
    (s, reserveResult reply)

/-- `reconcile`, whose snapshot is `Math.max(0, remainingCredits)`. -/
def reconcile (s : Store κ ρ) (p : κ) (remainingCredits : ℚ) (snapshotSequence now renewsAt : ℕ) :
    Store κ ρ :=
  (reconcileScript s p (max 0 remainingCredits) snapshotSequence now renewsAt).1

/-! ## Interleavings -/

/-- How a reservation was first settled: the usage `settleActualUsage` reported, if it was that,
and what was charged for good. -/
structure Settlement where
  actual : Option ℕ
  charge : ℚ
deriving DecidableEq

/-- What is known of a reservation beyond the lifetime of its hash. -/
structure Record (κ : Type*) where
  pool : κ
  amount : ℕ
  sequence : ℕ
deriving DecidableEq

/-- A ledger with the reservations it issued so far. Only `store` is in Redis. -/
structure System (κ ρ : Type*) where
  store : Store κ ρ
  issued : Finset ρ
  record : ρ → Option (Record κ)
  settlement : ρ → Option Settlement

/-- One script execution, or the expiry of a reservation hash. A settlement goes to the pool
its reservation was issued from. -/
inductive Event (κ ρ : Type*)
  | reserve (keys : List (κ × ρ)) (now amount ttl : ℕ) (random : ℚ)
  | capture (p : κ)
  | settle (r : ρ) (action : SettleAction) (cooldownUntil : ℕ)
  | settleActualUsage (r : ρ) (actual : ℕ)
  | reconcile (p : κ) (remainingCredits : ℚ) (snapshotSequence now renewsAt : ℕ)
  | expire (r : ρ)

/-- The first settlement is recorded, unless its script failed. -/
def recordSettlement (s : System κ ρ) (store : Store κ ρ) (r : ρ) (settlement : Settlement) :
    Option Bool → System κ ρ
  | some _ =>
    if (s.settlement r).isNone then
      { s with store := store, settlement := Function.update s.settlement r (some settlement) }
    else { s with store := store }
  | none => { s with store := store }

/-- The reservation is recorded with the pool it was issued from. -/
def recordReserve (s : System κ ρ) (store : Store κ ρ) (keys : List (κ × ρ)) (amount : ℕ) :
    Option (ReserveReply ρ) → System κ ρ
  | some (.selected i sequence r) =>
    match keys[i]? with
    | some (p, _) => { s with
        store := store
        issued := insert r s.issued
        record := Function.update s.record r (some ⟨p, amount, sequence⟩) }
    | none => { s with store := store }
  | _ => { s with store := store }

/-- What `settleActualUsage` charges: `actual`, as far as the reservation and the pool's credits
at that moment reach. -/
def actualCharge (pool : Pool) (amount actual : ℕ) : ℚ :=
  min (actual : ℚ) (amount + pool.credits.getD 0)

/-- One event. Reservation keys are never used twice, and only issued reservations are
settled. -/
def step (s : System κ ρ) : Event κ ρ → Option (System κ ρ)
  | .reserve keys now amount ttl random =>
    if ∀ k ∈ keys, k.2 ∉ s.issued then
      let (store, reply) := reserveScript s.store keys now amount ttl random
      some (recordReserve s store keys amount reply)
    else none
  | .capture _ => some s
  | .settle r action cooldownUntil =>
    (s.record r).map fun issue =>
      let (store, reply) := settleScript s.store issue.pool r action cooldownUntil
      recordSettlement s store r ⟨none, 0⟩ reply
  | .settleActualUsage r actual =>
    (s.record r).map fun issue =>
      let charge := actualCharge (s.store.pool issue.pool) issue.amount actual
      let (store, reply) := actualUsageScript s.store issue.pool r actual
      recordSettlement s store r ⟨some actual, charge⟩ reply
  | .reconcile p remainingCredits snapshotSequence now renewsAt =>
    some { s with store := reconcile s.store p remainingCredits snapshotSequence now renewsAt }
  | .expire r => some { s with store := s.store.del r }

/-- A ledger without reservations. -/
def System.start (pool : κ → Pool) : System κ ρ where
  store := { pool := pool, reservations := fun _ => .empty, reservation := fun _ => none }
  issued := ∅
  record := fun _ => none
  settlement := fun _ => none

/-- The states an empty store gets to by some interleaving. -/
def Reachable (s : System κ ρ) : Prop :=
  EventMachine.Reachable step (System.start fun _ => {}) s

end CreditLedger
end FirecrawlGateway
