import FirecrawlGateway.Lib.EventMachine
import Mathlib.Tactic

/-!
# The circuit breaker

Model of `apps/api/src/proxy/circuit-breaker.ts`. The class is a record with one function
for each method; `execute` is cut at its only `await`, so that the part before it (`acquire`)
and the part after it (`release`) are two atomic steps. An interleaving of calls is then a
list of `Event`s, and a run of the breaker is a run of `step`.
-/

namespace FirecrawlGateway
namespace CircuitBreaker

/-! ## The class -/

/-- `CircuitState`; `opened` is the source's `open`. -/
inductive CircuitState
  | closed
  | opened
  | halfOpen
deriving DecidableEq, Repr

inductive PermitKind
  | closed
  | probe
deriving DecidableEq, Repr

structure Permit where
  kind : PermitKind
  generation : ℕ
deriving DecidableEq, Repr

/-- `CircuitBreakerOptions` less its callbacks; times are in milliseconds. -/
structure Options where
  failureThreshold : ℕ
  cooldownMs : ℤ

/-- The private fields of `CircuitBreaker`. -/
structure Breaker where
  state : CircuitState := .closed
  consecutiveFailures : ℕ := 0
  openedAt : ℤ := 0
  probeInFlight : Bool := false
  generation : ℕ := 0
deriving DecidableEq, Repr

/-- `transition`; the source returns early when nothing changes, to keep its callback quiet. -/
def transition (b : Breaker) (target : CircuitState) : Breaker :=
  if b.state = target then b else { b with state := target }

/-- `open`. -/
def openCircuit (now : ℤ) (b : Breaker) : Breaker :=
  transition { b with generation := b.generation + 1, openedAt := now } .opened

/-- The half-open part of `acquire`: a single probe at a time. -/
def acquireProbe (b : Breaker) : Breaker × Option Permit :=
  if b.probeInFlight then (b, none)
  else ({ b with probeInFlight := true }, some ⟨.probe, b.generation⟩)

/-- `acquire`; `none` is the source's `"reject"`. -/
def acquire (o : Options) (now : ℤ) (b : Breaker) : Breaker × Option Permit :=
  match b.state with
  | .closed => (b, some ⟨.closed, b.generation⟩)
  | .opened =>
    -- the cooldown starts again at every failed probe, since `open` stamps `openedAt`
    if now - b.openedAt < o.cooldownMs then (b, none)
    else acquireProbe (transition b .halfOpen)
  | .halfOpen => acquireProbe b

/-- `release`. -/
def release (o : Options) (now : ℤ) (b : Breaker) (permit : Permit) (failed : Bool) : Breaker :=
  match permit.kind with
  | .probe =>
    let b := { b with probeInFlight := false }
    if failed then openCircuit now b
    else transition { b with consecutiveFailures := 0 } .closed
  | .closed =>
    -- a call from before the circuit last opened says nothing about the backend now
    if permit.generation ≠ b.generation ∨ b.state ≠ .closed then b
    else if !failed then { b with consecutiveFailures := 0 }
    else
      let b := { b with consecutiveFailures := b.consecutiveFailures + 1 }
      if b.consecutiveFailures ≥ o.failureThreshold then openCircuit now b else b

/-! ## `execute`, cut at its `await` -/

/-- How a call was let through: past a disabled breaker, or with a permit. -/
inductive Admission
  | unguarded
  | permit (p : Permit)
deriving DecidableEq, Repr

/-- How an admitted call ended: `isFailure` of its result, or a rejection. -/
inductive Settlement
  | result (isFailure : Bool)
  | rejection
deriving DecidableEq, Repr

/-- The local `failed` of `execute`, which starts as `true`. -/
def Settlement.failed : Settlement → Bool
  | .result isFailure => isFailure
  | .rejection => true

/-- `execute` up to `await call()`; `none` is a call that is short-circuited and never runs. -/
def execute (o : Options) (now : ℤ) (b : Breaker) : Breaker × Option Admission :=
  -- a threshold of 0 disables the breaker: the call runs and holds no permit
  if o.failureThreshold ≤ 0 then (b, some .unguarded)
  else
    let (b, permit) := acquire o now b
    (b, permit.map .permit)

/-- `execute` after `await call()`: its `finally`. -/
def executeFinally (o : Options) (now : ℤ) (b : Breaker) (a : Admission) (r : Settlement) :
    Breaker :=
  match a with
  | .unguarded => b
  | .permit p => release o now b p r.failed

/-! ## Interleavings of calls -/

/-- A breaker and the calls it let through that have not settled, by call number. -/
structure System where
  breaker : Breaker := {}
  running : ℕ → Option Admission := fun _ => none

/-- A call number starts `execute`, or settles, with the clock reading at that moment. -/
inductive Event
  | start (id : ℕ) (now : ℤ)
  | settle (id : ℕ) (r : Settlement) (now : ℤ)
deriving DecidableEq, Repr

/-- One atomic section of one call. A running call cannot start again, and only a running
call settles. -/
def step (o : Options) (s : System) : Event → Option System
  | .start id now =>
    match s.running id with
    | some _ => none
    | none =>
      let (b, a) := execute o now s.breaker
      some { breaker := b, running := Function.update s.running id a }
  | .settle id r now =>
    match s.running id with
    | none => none
    | some a => some {
        breaker := executeFinally o now s.breaker a r
        running := Function.update s.running id none }

/-- The states a fresh breaker gets to by some interleaving of calls. -/
def Reachable (o : Options) (s : System) : Prop := EventMachine.Reachable (step o) {} s

/-- Call `id` is running and is the probe of a half-open circuit. -/
def IsProbe (s : System) (id : ℕ) : Prop :=
  ∃ generation, s.running id = some (.permit ⟨.probe, generation⟩)

end CircuitBreaker
end FirecrawlGateway
