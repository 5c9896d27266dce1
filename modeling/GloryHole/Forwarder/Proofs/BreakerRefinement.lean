import GloryHole.Forwarder.CircuitBreaker
import GloryHole.Support.Bisimulation

/-!
# The breaker as three states

The abstract breaker remembers the verdicts since it closed or became half-open, and the time
at which it opened.  The counters of the circuit breaker are read off these: in each state
one of them matters, and the others hold what an earlier state has left.
-/

namespace GloryHole.Forwarder

open Support.Runs Support.Bisimulation

/-! ## The abstract breaker -/

/-- Verdicts are the newest first, true for a failure. -/
inductive Breaker where
  | closed (verdicts : List Bool)
  | opened (since : Int)
  | halfOpen (verdicts : List Bool)
  deriving DecidableEq

def consecutiveFailures (verdicts : List Bool) : Nat := (verdicts.takeWhile id).length

structure Call where
  now : Int
  done : Int
  failed : Bool
  deriving DecidableEq

namespace Breaker

def state : Breaker → CircuitState
  | .closed _ => .stateClosed
  | .opened _ => .stateOpen
  | .halfOpen _ => .stateHalfOpen

section

variable (failureThreshold successThreshold timeout : Int)

def allow (now : Int) : Breaker → Option Breaker
  | .opened since => if timeout < now - since then some (.halfOpen []) else none
  | b => some b

def judge (done : Int) (failed : Bool) : Breaker → Breaker
  | .closed verdicts =>
    if failureThreshold ≤ consecutiveFailures (failed :: verdicts) then .opened done
    else .closed (failed :: verdicts)
  | .halfOpen verdicts =>
    if failed then .opened done
    else if successThreshold ≤ ((failed :: verdicts).count false : Nat) then .closed []
    else .halfOpen (failed :: verdicts)
  | .opened since => .opened since

/-- A call, with what is visible of it: its verdict or that it failed fast, and the state. -/
def call (b : Breaker) (c : Call) : Breaker × (Option Bool × CircuitState) :=
  match b.allow timeout c.now with
  | none => (b, none, b.state)
  | some admitted =>
    let after := admitted.judge failureThreshold successThreshold c.done c.failed
    (after, some c.failed, after.state)

end

end Breaker

def CircuitBreaker.visibleCall (cb : CircuitBreaker) (c : Call) :
    CircuitBreaker × (Option Bool × CircuitState) :=
  let (after, verdict) := cb.call c.now c.done c.failed
  (after, verdict, after.state)

/-! ## The relation -/

/-- The counters that matter in a state.  No probe is left running between calls. -/
def Counts (cb : CircuitBreaker) : Breaker → Prop
  | .closed verdicts =>
    cb.state = .stateClosed ∧ cb.failures = consecutiveFailures verdicts
  | .opened since => cb.state = .stateOpen ∧ cb.lastStateChange = since
  | .halfOpen verdicts =>
    cb.state = .stateHalfOpen ∧ cb.successes = (verdicts.count false : Nat) ∧
      cb.halfOpenReqs = 0

structure Stands (failureThreshold successThreshold timeout : Int) (cb : CircuitBreaker)
    (b : Breaker) : Prop where
  failureThreshold : cb.failureThreshold = failureThreshold
  successThreshold : cb.successThreshold = successThreshold
  timeout : cb.timeout = timeout
  halfOpenMax : cb.halfOpenMax = 3
  counts : Counts cb b

section

variable {failureThreshold successThreshold timeout : Int} {cb : CircuitBreaker} {b : Breaker}

theorem Stands.state_eq (h : Stands failureThreshold successThreshold timeout cb b) :
    cb.state = b.state := by
  have hcounts := h.counts
  cases b with
  | closed verdicts | opened since | halfOpen verdicts => exact hcounts.1

theorem newCircuitBreaker_stands (now : Int) :
    Stands failureThreshold successThreshold timeout
      (newCircuitBreaker failureThreshold successThreshold timeout now) (.closed []) :=
  ⟨rfl, rfl, rfl, rfl, rfl, rfl⟩

/-! ## Calls, state by state -/

theorem consecutiveFailures_success (verdicts : List Bool) :
    consecutiveFailures (false :: verdicts) = 0 := rfl

theorem consecutiveFailures_failure (verdicts : List Bool) :
    consecutiveFailures (true :: verdicts) = consecutiveFailures verdicts + 1 := by
  simp [consecutiveFailures]

/-- A closed breaker counts the failures in a row. -/
theorem Stands.closed {verdicts : List Bool} (hthreshold : 1 ≤ failureThreshold)
    (h : Stands failureThreshold successThreshold timeout cb (.closed verdicts)) (c : Call) :
    Stands failureThreshold successThreshold timeout (cb.call c.now c.done c.failed).1
        (Breaker.judge failureThreshold successThreshold c.done c.failed (.closed verdicts)) ∧
      (cb.call c.now c.done c.failed).2 = some c.failed := by
  obtain ⟨hF, hS, ht, hmax, hclosed, hfailures⟩ := h
  cases hverdict : c.failed with
  | true =>
    rw [CircuitBreaker.call_closed_failure _ _ hclosed]
    refine ⟨?_, rfl⟩
    simp only [Breaker.judge, CircuitBreaker.onFailure, hclosed,
      consecutiveFailures_failure, Nat.cast_add, Nat.cast_one, hF, hfailures]
    split
    · exact ⟨rfl, hS, ht, hmax, rfl, rfl⟩
    · refine ⟨rfl, hS, ht, hmax, rfl, ?_⟩
      change (consecutiveFailures verdicts : Int) + 1 = _
      rw [consecutiveFailures_failure]
      rfl
  | false =>
    rw [CircuitBreaker.call_closed_success _ _ hclosed]
    have hjudge : Breaker.judge failureThreshold successThreshold c.done false
        (.closed verdicts) = .closed (false :: verdicts) := by
      rw [Breaker.judge, consecutiveFailures_success, if_neg (by omega)]
    rw [hjudge]
    refine ⟨?_, rfl⟩
    simp only [CircuitBreaker.onSuccess, hclosed, reduceCtorEq, false_and, if_false]
    exact ⟨hF, hS, ht, hmax, rfl, rfl⟩

/-- The probe of a half-open breaker, whether it was half-open before the call or became it. -/
theorem Stands.probe {verdicts : List Bool}
    (h : Stands failureThreshold successThreshold timeout cb (.halfOpen verdicts)) (done : Int)
    (failed : Bool) :
    Stands failureThreshold successThreshold timeout
      (if failed then cb.onFailure done else cb.onSuccess done)
      (Breaker.judge failureThreshold successThreshold done failed (.halfOpen verdicts)) := by
  obtain ⟨hF, hS, ht, hmax, hhalf, hsuccesses, hprobes⟩ := h
  cases failed with
  | true =>
    simp only [if_true, Breaker.judge, CircuitBreaker.onFailure, hhalf]
    exact ⟨hF, hS, ht, hmax, rfl, rfl⟩
  | false =>
    simp only [Bool.false_eq_true, if_false, Breaker.judge, CircuitBreaker.onSuccess, hhalf,
      true_and, List.count_cons_self, Nat.cast_add, Nat.cast_one, hS, hsuccesses]
    split
    · exact ⟨hF, rfl, ht, hmax, rfl, rfl⟩
    · refine ⟨hF, rfl, ht, hmax, rfl, ?_, hprobes⟩
      simp

/-- The slot of a probe is given back when its call returns. -/
theorem release_probe (cb : CircuitBreaker) (done : Int) (failed : Bool) :
    CircuitBreaker.release .stateHalfOpen
        (if failed then
          { cb with halfOpenReqs := cb.halfOpenReqs + 1 }.onFailure done
        else { cb with halfOpenReqs := cb.halfOpenReqs + 1 }.onSuccess done) =
      if failed then cb.onFailure done else cb.onSuccess done := by
  have hslot : cb.halfOpenReqs + 1 - 1 = cb.halfOpenReqs := Int32.add_sub_cancel _ _
  cases failed with
  | true =>
    simp only [if_true, CircuitBreaker.release, CircuitBreaker.onFailure]
    cases cb.state with
    | stateClosed =>
      by_cases hopens : cb.failureThreshold ≤ cb.failures + 1
      · simp only [if_pos hopens, hslot]
      · simp only [if_neg hopens, hslot]
    | stateOpen | stateHalfOpen => simp [hslot]
  | false =>
    simp only [Bool.false_eq_true, if_false, if_true, CircuitBreaker.release,
      CircuitBreaker.onSuccess]
    by_cases hcloses : cb.state = .stateHalfOpen ∧ cb.successThreshold ≤ cb.successes + 1
    · simp only [if_pos hcloses, hslot]
    · simp only [if_neg hcloses, hslot]

theorem Breaker.call_state (b : Breaker) (c : Call) :
    (b.call failureThreshold successThreshold timeout c).2.2 =
      (b.call failureThreshold successThreshold timeout c).1.state := by
  unfold Breaker.call
  split <;> rfl

theorem call_of_enter_none {now : Int} (h : cb.enter now = none) (done : Int) (failed : Bool) :
    cb.call now done failed = (cb, none) := by
  rw [CircuitBreaker.call, h]

theorem call_of_enter_some {now : Int} {admitted : CircuitBreaker}
    (h : cb.enter now = some admitted) (done : Int) (failed : Bool) :
    cb.call now done failed =
      (CircuitBreaker.release cb.state
        (if failed then admitted.onFailure done else admitted.onSuccess done), some failed) := by
  rw [CircuitBreaker.call, h]

/-- An open breaker fails fast until the timeout has passed; then the call is a probe. -/
theorem Stands.opened {since : Int}
    (h : Stands failureThreshold successThreshold timeout cb (.opened since)) (c : Call) :
    Stands failureThreshold successThreshold timeout (cb.call c.now c.done c.failed).1
        (Breaker.call failureThreshold successThreshold timeout (.opened since) c).1 ∧
      (cb.call c.now c.done c.failed).2 =
        (Breaker.call failureThreshold successThreshold timeout (.opened since) c).2.1 := by
  have hstands := h
  obtain ⟨hF, hS, rfl, hmax, hopen, rfl⟩ := h
  by_cases hpassed : cb.timeout < c.now - cb.lastStateChange
  · have henter : cb.enter c.now = some
        { cb with
          state := .stateHalfOpen, lastStateChange := c.now
          successes := 0, failures := 0, halfOpenReqs := 0 } := by
      rw [CircuitBreaker.enter, hopen]
      exact if_pos hpassed
    have hbecomes : Stands failureThreshold successThreshold cb.timeout
        { cb with
          state := .stateHalfOpen, lastStateChange := c.now
          successes := 0, failures := 0, halfOpenReqs := 0 } (.halfOpen []) :=
      ⟨hF, hS, rfl, hmax, rfl, rfl, rfl⟩
    have hallow : Breaker.allow cb.timeout c.now (.opened cb.lastStateChange) =
      some (.halfOpen []) := if_pos hpassed
    rw [call_of_enter_some henter, hopen, Breaker.call, hallow]
    exact ⟨hbecomes.probe c.done c.failed, rfl⟩
  · have henter : cb.enter c.now = none := by
      rw [CircuitBreaker.enter, hopen]
      exact if_neg hpassed
    have hallow : Breaker.allow cb.timeout c.now (.opened cb.lastStateChange) = none :=
      if_neg hpassed
    rw [call_of_enter_none henter, Breaker.call, hallow]
    exact ⟨hstands, rfl⟩

/-- A half-open breaker lets a call through, as no other probe is running. -/
theorem Stands.halfOpen {verdicts : List Bool}
    (h : Stands failureThreshold successThreshold timeout cb (.halfOpen verdicts)) (c : Call) :
    Stands failureThreshold successThreshold timeout (cb.call c.now c.done c.failed).1
        (Breaker.call failureThreshold successThreshold timeout (.halfOpen verdicts) c).1 ∧
      (cb.call c.now c.done c.failed).2 =
        (Breaker.call failureThreshold successThreshold timeout (.halfOpen verdicts) c).2.1 := by
  have hstands := h
  obtain ⟨-, -, -, hmax, hhalf, -, hprobes⟩ := h
  have henter : cb.enter c.now = some { cb with halfOpenReqs := cb.halfOpenReqs + 1 } := by
    rw [CircuitBreaker.enter, hhalf]
    exact if_neg (by rw [hmax, hprobes]; decide)
  have hrelease := release_probe cb c.done c.failed
  rw [← hhalf] at hrelease
  rw [call_of_enter_some henter, hrelease]
  exact ⟨hstands.probe c.done c.failed, rfl⟩

theorem Stands.call_eq (hthreshold : 1 ≤ failureThreshold)
    (h : Stands failureThreshold successThreshold timeout cb b) (c : Call) :
    Stands failureThreshold successThreshold timeout (cb.call c.now c.done c.failed).1
        (b.call failureThreshold successThreshold timeout c).1 ∧
      (cb.call c.now c.done c.failed).2 =
        (b.call failureThreshold successThreshold timeout c).2.1 := by
  cases b with
  | closed verdicts => exact h.closed hthreshold c
  | opened since => exact h.opened c
  | halfOpen verdicts => exact h.halfOpen c

/-- One call: the two breakers stay together and show the same. -/
theorem Stands.visibleCall (hthreshold : 1 ≤ failureThreshold)
    (h : Stands failureThreshold successThreshold timeout cb b) (c : Call) :
    Stands failureThreshold successThreshold timeout (cb.visibleCall c).1
        (b.call failureThreshold successThreshold timeout c).1 ∧
      (cb.visibleCall c).2 = (b.call failureThreshold successThreshold timeout c).2 := by
  obtain ⟨hstands, hverdict⟩ := h.call_eq hthreshold c
  refine ⟨hstands, Prod.ext hverdict ?_⟩
  rw [Breaker.call_state]
  exact hstands.state_eq

end

/-- In every run the circuit breaker shows what the abstract breaker shows: which calls are
executed, which fail fast, and the state after each. -/
theorem breaker_refines (failureThreshold successThreshold timeout start : Int)
    (hthreshold : 1 ≤ failureThreshold) (calls : List Call) :
    outputs CircuitBreaker.visibleCall
        (newCircuitBreaker failureThreshold successThreshold timeout start) calls =
      outputs (Breaker.call failureThreshold successThreshold timeout) (.closed []) calls := by
  have hstep : ∀ cb b c, Stands failureThreshold successThreshold timeout cb b → True →
      Stands failureThreshold successThreshold timeout (cb.visibleCall c).1
          (b.call failureThreshold successThreshold timeout c).1 ∧
        (cb.visibleCall c).2 = (b.call failureThreshold successThreshold timeout c).2 :=
    fun cb b c hstands _ => hstands.visibleCall hthreshold c
  exact outputs_eq hstep (newCircuitBreaker_stands start)
    (allSteps_of_forall (fun _ _ => trivial) _ calls)

/-- Two failures open the breaker for 10 nanoseconds; two successes close it again. -/
theorem breaker_refines_two :
    outputs CircuitBreaker.visibleCall (newCircuitBreaker 2 2 10 0)
        [⟨1, 2, true⟩, ⟨3, 4, true⟩, ⟨14, 14, false⟩, ⟨15, 16, false⟩, ⟨17, 18, false⟩] =
      outputs (Breaker.call 2 2 10) (.closed [])
        [⟨1, 2, true⟩, ⟨3, 4, true⟩, ⟨14, 14, false⟩, ⟨15, 16, false⟩, ⟨17, 18, false⟩] :=
  breaker_refines 2 2 10 0 (by decide) _

end GloryHole.Forwarder
