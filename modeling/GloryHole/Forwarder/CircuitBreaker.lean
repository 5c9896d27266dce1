import GloryHole.Config.Types

/-!
# Circuit breakers and the health of the upstreams

One `CircuitBreaker` per upstream, run sequentially: every atomic read and write is a field access,
and a compare-and-swap finds the state that was just loaded.  Times are nanoseconds.
-/

namespace GloryHole.Forwarder

open Go
open Config (CircuitBreakerConfig)

inductive CircuitState where
  | stateClosed
  | stateOpen
  | stateHalfOpen
  deriving DecidableEq

structure CircuitBreaker where
  state : CircuitState
  failures : Int
  successes : Int
  lastFailTime : Int
  lastStateChange : Int
  halfOpenReqs : Int32
  failureThreshold : Int
  successThreshold : Int
  timeout : Int
  halfOpenMax : Int
  deriving DecidableEq

def newCircuitBreaker (failureThreshold successThreshold timeout now : Int) :
    CircuitBreaker where
  state := .stateClosed
  failures := 0
  successes := 0
  lastFailTime := 0
  lastStateChange := now
  halfOpenReqs := 0
  failureThreshold := failureThreshold
  successThreshold := successThreshold
  timeout := timeout
  halfOpenMax := 3

namespace CircuitBreaker

def onFailure (cb : CircuitBreaker) (now : Int) : CircuitBreaker :=
  let cb := { cb with failures := cb.failures + 1, lastFailTime := now }
  match cb.state with
  | .stateClosed =>
    if cb.failureThreshold ≤ cb.failures then
      { cb with state := .stateOpen, lastStateChange := now }
    else cb
  | .stateHalfOpen =>
    { cb with
      state := .stateOpen, lastStateChange := now, failures := 0, successes := 0 }
  | .stateOpen => cb

def onSuccess (cb : CircuitBreaker) (now : Int) : CircuitBreaker :=
  let cb := { cb with successes := cb.successes + 1, failures := 0 }
  if cb.state = .stateHalfOpen ∧ cb.successThreshold ≤ cb.successes then
    { cb with state := .stateClosed, lastStateChange := now }
  else cb

/-- The first half of `Call`: `none` is the fail-fast answer `ErrCircuitOpen`.
An admitted call in the half-open state holds one of the probe slots. -/
def enter (cb : CircuitBreaker) (now : Int) : Option CircuitBreaker :=
  match cb.state with
  | .stateOpen =>
    if cb.timeout < now - cb.lastStateChange then
      some { cb with
        state := .stateHalfOpen, lastStateChange := now
        successes := 0, failures := 0, halfOpenReqs := 0 }
    else none
  | .stateHalfOpen =>
    if Int32.ofInt cb.halfOpenMax < cb.halfOpenReqs + 1 then none
    else some { cb with halfOpenReqs := cb.halfOpenReqs + 1 }
  | .stateClosed => some cb

def release (entered : CircuitState) (cb : CircuitBreaker) : CircuitBreaker :=
  if entered = .stateHalfOpen then { cb with halfOpenReqs := cb.halfOpenReqs - 1 } else cb

/-- `Call` around a function that starts at `now` and returns at `done`, with
`failed` its verdict.  The second component is `none` when the breaker rejects. -/
def call (cb : CircuitBreaker) (now done : Int) (failed : Bool) :
    CircuitBreaker × Option Bool :=
  match cb.enter now with
  | none => (cb, none)
  | some admitted =>
    let after := if failed then admitted.onFailure done else admitted.onSuccess done
    (release cb.state after, some failed)

def isHealthy (cb : CircuitBreaker) : Bool := cb.state ≠ .stateOpen

/-! ## The closed breaker -/

variable {cb : CircuitBreaker}

theorem call_closed_success (now done : Int) (hclosed : cb.state = .stateClosed) :
    cb.call now done false = (cb.onSuccess done, some false) := by
  simp [call, enter, release, hclosed]

theorem call_closed_failure (now done : Int) (hclosed : cb.state = .stateClosed) :
    cb.call now done true = (cb.onFailure done, some true) := by
  simp [call, enter, release, hclosed]

theorem onSuccess_closed (now : Int) (hclosed : cb.state = .stateClosed) :
    (cb.onSuccess now).state = .stateClosed := by
  simp [onSuccess, hclosed]

@[simp] theorem onSuccess_failures (cb : CircuitBreaker) (now : Int) :
    (cb.onSuccess now).failures = 0 := by
  simp only [onSuccess]
  split <;> rfl

@[simp] theorem onSuccess_failureThreshold (cb : CircuitBreaker) (now : Int) :
    (cb.onSuccess now).failureThreshold = cb.failureThreshold := by
  simp only [onSuccess]
  split <;> rfl

/-- A failure trips a closed breaker exactly when it is the last one allowed. -/
theorem onFailure_closed_state (now : Int) (hclosed : cb.state = .stateClosed) :
    (cb.onFailure now).state =
      if cb.failureThreshold ≤ cb.failures + 1 then .stateOpen else .stateClosed := by
  simp only [onFailure, hclosed]
  split <;> rfl

end CircuitBreaker

/-!
## Health tracking of the upstreams

`UpstreamHealth` maps each configured upstream to its breaker.
-/

/-- `breakers` is the Go map: `none` for an upstream that is not tracked. -/
structure UpstreamHealth where
  breakers : GoString → Option CircuitBreaker
  config : CircuitBreakerConfig

def secondsDuration (seconds : Int) : Int := (seconds * 1000000000).bmod (2 ^ 64)

def newUpstreamHealth (upstreams : List GoString) (config : CircuitBreakerConfig)
    (now : Int) : UpstreamHealth where
  breakers := fun u =>
    if u ∈ upstreams then
      some (newCircuitBreaker config.failureThreshold config.successThreshold
        (secondsDuration config.timeoutSeconds) now)
    else none
  config := config

namespace UpstreamHealth

/-- `IsHealthy`: an unknown upstream is assumed healthy. -/
def isHealthy (uh : UpstreamHealth) (upstream : GoString) : Bool :=
  match uh.breakers upstream with
  | none => true
  | some breaker => breaker.isHealthy

def getHealthyUpstreams (uh : UpstreamHealth) (upstreams : List GoString) :
    List GoString :=
  upstreams.filter uh.isHealthy

def setBreaker (uh : UpstreamHealth) (upstream : GoString) (breaker : CircuitBreaker) :
    UpstreamHealth :=
  { uh with breakers := fun u => if u = upstream then some breaker else uh.breakers u }

def recordResult (uh : UpstreamHealth) (upstream : GoString) (failed : Bool) (now : Int) :
    UpstreamHealth :=
  match uh.breakers upstream with
  | none => uh
  | some breaker =>
    uh.setBreaker upstream
      (if failed then breaker.onFailure now else breaker.onSuccess now)

@[simp] theorem setBreaker_same (uh : UpstreamHealth) (upstream : GoString)
    (breaker : CircuitBreaker) :
    (uh.setBreaker upstream breaker).breakers upstream = some breaker := by
  simp [setBreaker]

theorem setBreaker_setBreaker (uh : UpstreamHealth) (upstream : GoString)
    (b₁ b₂ : CircuitBreaker) :
    (uh.setBreaker upstream b₁).setBreaker upstream b₂ = uh.setBreaker upstream b₂ := by
  unfold setBreaker
  congr 1
  funext u
  by_cases hu : u = upstream <;> simp [hu]

theorem mem_getHealthyUpstreams {uh : UpstreamHealth} {u : GoString}
    {upstreams : List GoString} :
    u ∈ uh.getHealthyUpstreams upstreams ↔
      u ∈ upstreams ∧ ∀ b, uh.breakers u = some b → b.state ≠ .stateOpen := by
  unfold getHealthyUpstreams isHealthy
  rw [List.mem_filter]
  cases hb : uh.breakers u with
  | none => simp
  | some b => simp [CircuitBreaker.isHealthy]

end UpstreamHealth

end GloryHole.Forwarder
