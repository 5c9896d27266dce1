import GloryHole.Forwarder.CircuitBreaker
import GloryHole.Support.Threads

/-!
# Concurrent calls of one circuit breaker

`Call` with its atomic operations as the steps of a thread over the breaker.  A call is at the
operation it does next, with what it has read and whether it has taken a half-open slot, which its
deferred decrement gives back.  A step is given a reading of the clock and the verdict of the
function.
-/

namespace GloryHole.Forwarder

open Support.Runs Support.Threads

inductive CallPhase where
  -- The check of the state.
  | loadState
  | loadChange
  | swapHalfOpen
  | resetChange
  | resetSuccesses
  | resetFailures
  | resetReqs
  | takeSlot
  -- The function is called next; it is under way.
  | start (slot : Bool)
  | executing (slot : Bool)
  -- `onFailure`.
  | addFailure (slot : Bool)
  | storeFailTime (slot : Bool) (failures : Int)
  | loadFailed (slot : Bool) (failures : Int)
  | swapClosedOpen (slot : Bool)
  | storeOpened (slot : Bool)
  | swapHalfOpenOpen (slot : Bool)
  | storeReopened (slot : Bool)
  | clearFailures (slot : Bool)
  | clearSuccesses (slot : Bool)
  -- `onSuccess`.
  | addSuccess (slot : Bool)
  | storeFailures (slot : Bool) (successes : Int)
  | loadSucceeded (slot : Bool) (successes : Int)
  | swapClosed (slot : Bool)
  | storeClosed (slot : Bool)
  -- The deferred decrement, and what the call returns: `none` is `ErrCircuitOpen`.
  | release (verdict : Option Bool)
  | returned (verdict : Option Bool)
  deriving DecidableEq

structure CallInput where
  now : Int
  failed : Bool

def CallPhase.finish (slot : Bool) (verdict : Option Bool) : CallPhase :=
  if slot then .release verdict else .returned verdict

namespace CircuitBreaker

def callStep (cb : CircuitBreaker) (phase : CallPhase) (input : CallInput) :
    CircuitBreaker × CallPhase :=
  match phase with
  | .loadState =>
    match cb.state with
    | .stateOpen => (cb, .loadChange)
    | .stateHalfOpen => (cb, .takeSlot)
    | .stateClosed => (cb, .start false)
  | .loadChange =>
    if cb.timeout < input.now - cb.lastStateChange then (cb, .swapHalfOpen)
    else (cb, .returned none)
  | .swapHalfOpen =>
    -- A call that finds the state changed executes its function all the same.
    if cb.state = .stateOpen then ({ cb with state := .stateHalfOpen }, .resetChange)
    else (cb, .start false)
  | .resetChange => ({ cb with lastStateChange := input.now }, .resetSuccesses)
  | .resetSuccesses => ({ cb with successes := 0 }, .resetFailures)
  | .resetFailures => ({ cb with failures := 0 }, .resetReqs)
  | .resetReqs => ({ cb with halfOpenReqs := 0 }, .start false)
  | .takeSlot =>
    let current := cb.halfOpenReqs + 1
    ({ cb with halfOpenReqs := current },
      if Int32.ofInt cb.halfOpenMax < current then .release none else .start true)
  | .start slot => (cb, .executing slot)
  | .executing slot => (cb, if input.failed then .addFailure slot else .addSuccess slot)
  | .addFailure slot =>
    ({ cb with failures := cb.failures + 1 }, .storeFailTime slot (cb.failures + 1))
  | .storeFailTime slot failures =>
    ({ cb with lastFailTime := input.now }, .loadFailed slot failures)
  | .loadFailed slot failures =>
    match cb.state with
    | .stateClosed =>
      (cb, if cb.failureThreshold ≤ failures then .swapClosedOpen slot
        else .finish slot (some true))
    | .stateHalfOpen => (cb, .swapHalfOpenOpen slot)
    | .stateOpen => (cb, .finish slot (some true))
  | .swapClosedOpen slot =>
    if cb.state = .stateClosed then ({ cb with state := .stateOpen }, .storeOpened slot)
    else (cb, .finish slot (some true))
  | .storeOpened slot => ({ cb with lastStateChange := input.now }, .finish slot (some true))
  | .swapHalfOpenOpen slot =>
    if cb.state = .stateHalfOpen then ({ cb with state := .stateOpen }, .storeReopened slot)
    else (cb, .finish slot (some true))
  | .storeReopened slot => ({ cb with lastStateChange := input.now }, .clearFailures slot)
  | .clearFailures slot => ({ cb with failures := 0 }, .clearSuccesses slot)
  | .clearSuccesses slot => ({ cb with successes := 0 }, .finish slot (some true))
  | .addSuccess slot =>
    ({ cb with successes := cb.successes + 1 }, .storeFailures slot (cb.successes + 1))
  | .storeFailures slot successes => ({ cb with failures := 0 }, .loadSucceeded slot successes)
  | .loadSucceeded slot successes =>
    (cb, if cb.state = .stateHalfOpen ∧ cb.successThreshold ≤ successes then .swapClosed slot
      else .finish slot (some false))
  | .swapClosed slot =>
    if cb.state = .stateHalfOpen then ({ cb with state := .stateClosed }, .storeClosed slot)
    else (cb, .finish slot (some false))
  | .storeClosed slot => ({ cb with lastStateChange := input.now }, .finish slot (some false))
  | .release verdict => ({ cb with halfOpenReqs := cb.halfOpenReqs - 1 }, .returned verdict)
  | .returned verdict => (cb, .returned verdict)

end CircuitBreaker

abbrev Calls := Pool CircuitBreaker CallPhase

abbrev CallTurn := Turn Unit CallInput

namespace Calls

def step (p : Calls) (turn : CallTurn) : Calls :=
  Pool.step (fun _ => CallPhase.loadState) CircuitBreaker.callStep p turn

def new (failureThreshold successThreshold timeout now : Int) : Calls :=
  ⟨newCircuitBreaker failureThreshold successThreshold timeout now, []⟩

end Calls

/-! ## Where calls are -/

namespace CallPhase

def isExecuting : CallPhase → Bool
  | .executing _ => true
  | _ => false

def underWay : CallPhase → Bool
  | .loadState => false
  | .returned _ => false
  | _ => true

end CallPhase

end GloryHole.Forwarder
