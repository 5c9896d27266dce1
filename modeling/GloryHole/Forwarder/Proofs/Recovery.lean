import GloryHole.Forwarder.Upstreams
import GloryHole.Support.Runs

/-!
# Open upstreams and the candidate set

The transition out of the open state is in `CircuitBreaker.call`; the filter in front of it is in
the health tracker.  In runs of `Forward` calls and clock advances no open upstream passes the
filter, so an upstream that has tripped once stays out of the candidate set.
-/

set_option linter.dupNamespace false

namespace GloryHole.Forwarder.Proofs.Recovery

open Go Dns Support.Runs
open Config (Config)
open GloryHole.Forwarder

/-! ## The machine -/

inductive Event where
  | forward (env : Nat → Attempt)
  | advance (d : Nat)

def advance (w : World) (d : Nat) : World := { w with now := w.now + d }

def step (w : World) : Event → World
  | .forward env => (forward env w).1
  | .advance d => advance w d

def boot (cfg : Config) (now : Int) : World := ⟨newForwarder cfg now, now⟩

/-- Every upstream whose breaker has been open for longer than its timeout is a
candidate of the next selection. -/
def OpenIsCandidate (w : World) : Prop :=
  ∀ u ∈ w.fwd.upstreams, ∀ b, w.fwd.getBreaker u = some b → b.state = .stateOpen →
    b.timeout < w.now - b.lastStateChange → u ∈ w.fwd.candidates

/-- The outcome is one failure too many for the breaker: the exchange fails with
one failure left, or returns nothing and a single failure is enough. -/
def LastFailure (b : CircuitBreaker) : Exchange → Prop
  | .failed _ => b.failureThreshold ≤ b.failures + 1
  | .nilResp => b.failureThreshold ≤ 1
  | .resp _ => False

def Trips (w : World) (a : Attempt) : Prop :=
  a.cancelled = none ∧ ∃ f u b, w.fwd.selectUpstream = (f, .ok u) ∧
    w.fwd.getBreaker u = some b ∧ b.state = .stateClosed ∧ LastFailure b (a.udp u)

def LoopTrips (env : Nat → Attempt) : Nat → Nat → World → Prop
  | 0, _, _ => False
  | n + 1, i, w =>
    Trips w (env i) ∨
      match attempt w (env i) with
      | (w', .next _, _) => LoopTrips env n (i + 1) w'
      | (_, .done _, _) => False

def TripFree (w : World) : Event → Prop
  | .forward env => ¬ LoopTrips env w.fwd.attempts 0 w
  | .advance _ => True

/-! ## What an attempt does to the breakers -/

variable {u : GoString} {b : CircuitBreaker} {w : World} {a : Attempt}

/-- A candidate's breaker, if it has one, is not open. -/
theorem candidate_not_open {f : Forwarder} (hu : u ∈ f.candidates) (hb : f.getBreaker u = some b) :
    b.state ≠ .stateOpen := by
  unfold Forwarder.candidates at hu
  unfold Forwarder.getBreaker at hb
  cases hh : f.health with
  | none => simp [hh] at hb
  | some uh =>
    simp only [hh] at hu hb
    exact (UpstreamHealth.mem_getHealthyUpstreams.mp hu).2 b hb

def afterExchange (b : CircuitBreaker) (done : Int) : Exchange → CircuitBreaker
  | .failed _ => b.onFailure done
  | .nilResp => (b.onSuccess done).onFailure done
  | .resp _ => b.onSuccess done

theorem getBreaker_setBreaker {f : Forwarder} {v : GoString} {b' : CircuitBreaker}
    (hb : f.getBreaker u = some b) :
    (f.setBreaker u b').getBreaker v = if v = u then some b' else f.getBreaker v := by
  unfold Forwarder.setBreaker Forwarder.getBreaker at *
  cases hh : f.health with
  | none => simp [hh] at hb
  | some uh => simp [UpstreamHealth.setBreaker]

/-- The forwarder after an attempt that selects an upstream with a closed breaker. -/
theorem attempt_closed {f : Forwarder} (hc : a.cancelled = none)
    (hsel : w.fwd.selectUpstream = (f, .ok u)) (hb : w.fwd.getBreaker u = some b)
    (hclosed : b.state = .stateClosed) :
    (attempt w a).1.fwd =
      f.setBreaker u (afterExchange b (w.now + a.took) (a.udp u)) := by
  obtain ⟨-, rfl⟩ := selectUpstream_ok hsel
  have hb' : ({ w.fwd with index := w.fwd.index + 1 } : Forwarder).getBreaker u = some b := hb
  cases hex : a.udp u with
  | failed err =>
    simp only [attempt, attemptChosen, hc, hsel, exchangeUDP, hb', hex, Exchange.isFailed,
      Exchange.toResult, CircuitBreaker.call_closed_failure _ _ hclosed, afterExchange]
    split
    · split <;> rfl
    · rfl
  | nilResp =>
    simp only [attempt, attemptChosen, hc, hsel, exchangeUDP, hb', hex, Exchange.isFailed,
      Exchange.toResult, CircuitBreaker.call_closed_success _ _ hclosed, afterExchange,
      recordFailure, Forwarder.setBreaker]
    congr 1
    cases hh : w.fwd.health with
    | none => simp [Forwarder.getBreaker, hh] at hb
    | some uh =>
      simp [UpstreamHealth.recordResult, UpstreamHealth.setBreaker_setBreaker]
  | resp m =>
    simp only [attempt, attemptChosen, hc, hsel, exchangeUDP, hb', hex, Exchange.isFailed,
      Exchange.toResult, CircuitBreaker.call_closed_success _ _ hclosed, afterExchange]
    split <;> rfl

/-- An attempt that is cancelled, finds no candidate or selects an upstream
without a breaker leaves every breaker as it is. -/
theorem attempt_untracked
    (h : a.cancelled = none →
      ∀ f u, w.fwd.selectUpstream = (f, .ok u) → w.fwd.getBreaker u = none) :
    (attempt w a).1.fwd.health = w.fwd.health ∧
      (attempt w a).1.fwd.upstreams = w.fwd.upstreams := by
  cases hc : a.cancelled with
  | some err => simp [attempt, hc]
  | none =>
    rcases hsel : w.fwd.selectUpstream with ⟨f, _ | u⟩
    · obtain rfl := selectUpstream_error hsel
      simp [attempt, hc, hsel]
    · have hb := h hc f u hsel
      obtain ⟨-, rfl⟩ := selectUpstream_ok hsel
      have hb' : ({ w.fwd with index := w.fwd.index + 1 } : Forwarder).getBreaker u = none :=
        hb
      cases hex : a.udp u with
      | failed err =>
        simp only [attempt, attemptChosen, hc, hsel, exchangeUDP, hb', hex, Exchange.toResult]
        split
        · split <;> exact ⟨rfl, rfl⟩
        · exact ⟨rfl, rfl⟩
      | nilResp =>
        simp only [attempt, attemptChosen, hc, hsel, exchangeUDP, hb', hex, Exchange.toResult,
          recordFailure, and_true]
        cases hh : w.fwd.health with
        | none => rfl
        | some uh =>
          have hnone : uh.breakers u = none := by
            simpa [Forwarder.getBreaker, hh] using hb
          simp [UpstreamHealth.recordResult, hnone]
      | resp m =>
        simp only [attempt, attemptChosen, hc, hsel, exchangeUDP, hb', hex, Exchange.toResult]
        split <;> exact ⟨rfl, rfl⟩

theorem afterExchange_state (done : Int) (ex : Exchange) (hclosed : b.state = .stateClosed) :
    (LastFailure b ex ∧ (afterExchange b done ex).state = .stateOpen) ∨
      (¬ LastFailure b ex ∧ (afterExchange b done ex).state = .stateClosed) := by
  have hsucc := CircuitBreaker.onSuccess_closed done hclosed
  cases ex with
  | failed err =>
    simp only [LastFailure, afterExchange, CircuitBreaker.onFailure_closed_state done hclosed]
    split <;> simp_all
  | nilResp =>
    simp only [LastFailure, afterExchange, CircuitBreaker.onFailure_closed_state done hsucc,
      CircuitBreaker.onSuccess_failures, CircuitBreaker.onSuccess_failureThreshold]
    split <;> simp_all
  | resp m => exact Or.inr ⟨id, hsucc⟩

/-- No breaker is half-open: `Call` is only reached through the candidate filter,
which holds back the open breakers that could become so. -/
def NeverHalfOpen (w : World) : Prop :=
  ∀ u b, w.fwd.getBreaker u = some b → b.state ≠ .stateHalfOpen

def AllClosed (w : World) : Prop :=
  ∀ u b, w.fwd.getBreaker u = some b → b.state = .stateClosed

def SomeOpen (w : World) : Prop :=
  ∃ u ∈ w.fwd.upstreams, ∃ b, w.fwd.getBreaker u = some b ∧ b.state = .stateOpen

/-- Everything an attempt can do to the breakers: nothing, or the update of the
closed breaker of the upstream it selects. -/
theorem attempt_breaker (a : Attempt) (hinv : NeverHalfOpen w) :
    (attempt w a).1.fwd.upstreams = w.fwd.upstreams ∧
      ((¬ Trips w a ∧ (attempt w a).1.fwd.getBreaker = w.fwd.getBreaker) ∨
        ∃ u b, u ∈ w.fwd.upstreams ∧ w.fwd.getBreaker u = some b ∧ b.state = .stateClosed ∧
          (Trips w a ↔ LastFailure b (a.udp u)) ∧
          ∀ v, (attempt w a).1.fwd.getBreaker v =
            if v = u then some (afterExchange b (w.now + a.took) (a.udp u))
            else w.fwd.getBreaker v) := by
  by_cases h : a.cancelled = none → ∀ f u, w.fwd.selectUpstream = (f, .ok u) →
      w.fwd.getBreaker u = none
  · obtain ⟨hhealth, hups⟩ := attempt_untracked h
    refine ⟨hups, Or.inl ⟨?_, ?_⟩⟩
    · rintro ⟨hc, f, u, b, hsel, hb, -, -⟩
      simp [h hc f u hsel] at hb
    · funext v
      simp [Forwarder.getBreaker, hhealth]
  · push Not at h
    obtain ⟨hc, f, u, hsel, hb⟩ := h
    obtain ⟨b, hb⟩ := Option.ne_none_iff_exists'.mp hb
    obtain ⟨hget, hf⟩ := selectUpstream_ok hsel
    have hcand := List.mem_of_getElem? hget
    have hclosed : b.state = .stateClosed := by
      have hnot := candidate_not_open hcand hb
      have hhalf := hinv u b hb
      cases hs : b.state <;> simp_all
    have hfwd := attempt_closed hc hsel hb hclosed
    refine ⟨by rw [hfwd, hf]; rfl, Or.inr ⟨u, b, candidate_mem_upstreams hcand, hb, hclosed,
      ?_, ?_⟩⟩
    · constructor
      · rintro ⟨-, f', u', b', hsel', hb', -, hlast⟩
        rw [hsel] at hsel'
        obtain ⟨-, hu⟩ := Prod.mk.inj hsel'
        obtain rfl := Except.ok.inj hu
        rw [hb] at hb'
        obtain rfl := Option.some.inj hb'
        exact hlast
      · exact fun hlast => ⟨hc, f, u, b, hsel, hb, hclosed, hlast⟩
    · intro v
      have hbf : f.getBreaker u = some b := by rw [hf]; exact hb
      rw [hfwd, getBreaker_setBreaker hbf, hf]
      rfl

theorem attempt_neverHalfOpen (a : Attempt) (hinv : NeverHalfOpen w) :
    NeverHalfOpen (attempt w a).1 := by
  intro v b' hb'
  rcases (attempt_breaker a hinv).2 with ⟨-, hsame⟩ | ⟨u, b, -, -, hclosed, -, hall⟩
  · rw [hsame] at hb'
    exact hinv v b' hb'
  · rw [hall v] at hb'
    split at hb'
    · obtain rfl := Option.some.inj hb'
      rcases afterExchange_state (w.now + a.took) (a.udp u) hclosed with ⟨-, h⟩ | ⟨-, h⟩ <;>
        simp [h]
    · exact hinv v b' hb'

theorem attempt_allClosed (hall : AllClosed w) (hfree : ¬ Trips w a) :
    AllClosed (attempt w a).1 := by
  have hinv : NeverHalfOpen w := fun u b hb => by simp [hall u b hb]
  intro v b' hb'
  rcases (attempt_breaker a hinv).2 with ⟨-, hsame⟩ | ⟨u, b, -, -, hclosed, htrips, heff⟩
  · rw [hsame] at hb'
    exact hall v b' hb'
  · rw [heff v] at hb'
    split at hb'
    · obtain rfl := Option.some.inj hb'
      rcases afterExchange_state (w.now + a.took) (a.udp u) hclosed with ⟨hlast, -⟩ | ⟨-, h⟩
      · exact absurd (htrips.mpr hlast) hfree
      · exact h
    · exact hall v b' hb'

/-- An attempt that trips leaves the upstream it selected open. -/
theorem attempt_someOpen_of_trips (hinv : NeverHalfOpen w) (htrips : Trips w a) :
    SomeOpen (attempt w a).1 := by
  obtain ⟨hups, ⟨hfree, -⟩ | ⟨u, b, hu, -, hclosed, hiff, heff⟩⟩ := attempt_breaker a hinv
  · exact absurd htrips hfree
  · refine ⟨u, by rw [hups]; exact hu, _, by simpa using heff u, ?_⟩
    rcases afterExchange_state (w.now + a.took) (a.udp u) hclosed with ⟨-, h⟩ | ⟨hnot, -⟩
    · exact h
    · exact absurd (hiff.mp htrips) hnot

/-- Open is absorbing: the selected upstream is never an open one. -/
theorem attempt_someOpen (a : Attempt) (hinv : NeverHalfOpen w) (hopen : SomeOpen w) :
    SomeOpen (attempt w a).1 := by
  obtain ⟨v, hv, b', hb', hstate⟩ := hopen
  obtain ⟨hups, ⟨-, hsame⟩ | ⟨u, b, -, hb, hclosed, -, heff⟩⟩ := attempt_breaker a hinv
  · exact ⟨v, by rw [hups]; exact hv, b', by rw [hsame]; exact hb', hstate⟩
  · have hne : v ≠ u := by
      rintro rfl
      rw [hb] at hb'
      obtain rfl := Option.some.inj hb'
      simp [hclosed] at hstate
    refine ⟨v, by rw [hups]; exact hv, b', ?_, hstate⟩
    rw [heff v, if_neg hne]
    exact hb'

/-! ## Whole calls -/

/-- What every attempt keeps, the loop of `Forward` keeps. -/
theorem forwardLoop_invariant {inv : World → Prop} (env : Nat → Attempt)
    (hattempt : ∀ w a, inv w → inv (attempt w a).1) :
    ∀ n i w lastErr, inv w → inv (forwardLoop env n i w lastErr).1 := by
  intro n
  induction n with
  | zero => exact fun _ _ _ hw => hw
  | succ n ih =>
    intro i w lastErr hw
    have hnext := hattempt w (env i) hw
    unfold forwardLoop
    rcases hatt : attempt w (env i) with ⟨w', result | err, sent⟩
    · simpa [hatt] using hnext
    · simp only [hatt] at hnext ⊢
      exact ih (i + 1) w' (some err) hnext

theorem forwardLoop_allClosed (env : Nat → Attempt) :
    ∀ n i w lastErr, AllClosed w → ¬ LoopTrips env n i w →
      AllClosed (forwardLoop env n i w lastErr).1 := by
  intro n
  induction n with
  | zero => exact fun _ _ _ hw _ => hw
  | succ n ih =>
    intro i w lastErr hw hfree
    simp only [LoopTrips, not_or] at hfree
    have hnext := attempt_allClosed hw hfree.1
    unfold forwardLoop
    rcases hatt : attempt w (env i) with ⟨w', result | err, sent⟩
    · simpa [hatt] using hnext
    · simp only [hatt] at hnext hfree ⊢
      exact ih (i + 1) w' (some err) hnext hfree.2

theorem forwardLoop_someOpen_of_trips (env : Nat → Attempt) :
    ∀ n i w lastErr, NeverHalfOpen w → LoopTrips env n i w →
      SomeOpen (forwardLoop env n i w lastErr).1 := by
  intro n
  induction n with
  | zero => exact fun _ _ _ _ h => h.elim
  | succ n ih =>
    intro i w lastErr hinv htrips
    have hinv' := attempt_neverHalfOpen (env i) hinv
    -- once open, the remaining attempts leave the upstream open
    have hkeep : ∀ m j v e, SomeOpen v ∧ NeverHalfOpen v →
        SomeOpen (forwardLoop env m j v e).1 ∧ NeverHalfOpen (forwardLoop env m j v e).1 :=
      forwardLoop_invariant env fun v a hv =>
        ⟨attempt_someOpen a hv.2 hv.1, attempt_neverHalfOpen a hv.2⟩
    unfold forwardLoop
    unfold LoopTrips at htrips
    rcases hatt : attempt w (env i) with ⟨w', result | err, sent⟩
    · simp only [hatt, or_false] at htrips
      simpa [hatt] using attempt_someOpen_of_trips hinv htrips
    · simp only [hatt] at htrips hinv'
      rcases htrips with htrips | htrips
      · have hopen := attempt_someOpen_of_trips hinv htrips
        simp only [hatt] at hopen
        exact (hkeep n (i + 1) w' (some err) ⟨hopen, hinv'⟩).1
      · exact ih (i + 1) w' (some err) hinv' htrips

/-! ## Whole runs -/

theorem step_allClosed (w : World) (e : Event) (hfree : TripFree w e) (hw : AllClosed w) :
    AllClosed (step w e) := by
  cases e with
  | advance d => exact hw
  | forward env =>
    change AllClosed (forward env w).1
    unfold forward
    split
    · exact hw
    · exact forwardLoop_allClosed env _ _ _ _ hw hfree

theorem step_someOpen_of_not_tripFree {e : Event} (hw : AllClosed w) (htrip : ¬ TripFree w e) :
    SomeOpen (step w e) := by
  have hinv : NeverHalfOpen w := fun u b hb => by simp [hw u b hb]
  cases e with
  | advance d => exact absurd trivial htrip
  | forward env =>
    have hloop : LoopTrips env w.fwd.attempts 0 w := not_not.mp htrip
    change SomeOpen (forward env w).1
    unfold forward
    split
    · next hnone =>
        have hzero : w.fwd.attempts = 0 := by
          rw [Forwarder.attempts, hnone]
          exact Int.toNat_eq_zero.mpr (Int.min_le_right _ _)
        rw [hzero] at hloop
        exact hloop.elim
    · exact forwardLoop_someOpen_of_trips env _ _ _ _ hinv hloop

theorem newUpstreamHealth_closed {upstreams : List GoString}
    {cb : GloryHole.Config.CircuitBreakerConfig} {now : Int}
    (hb : (newUpstreamHealth upstreams cb now).breakers u = some b) :
    b.state = .stateClosed := by
  simp only [newUpstreamHealth] at hb
  split at hb
  · obtain rfl := Option.some.inj hb
    rfl
  · simp at hb

theorem boot_allClosed (cfg : Config) (now : Int) : AllClosed (boot cfg now) := by
  intro u b hb
  simp only [boot, newForwarder, Forwarder.getBreaker] at hb
  split at hb
  · simp at hb
  · next uh huh =>
      simp only [Option.ite_none_right_eq_some, Option.some.injEq] at huh
      obtain ⟨-, rfl⟩ := huh
      exact newUpstreamHealth_closed hb

/-- An open upstream is not a candidate, so once it has been open for longer than
its timeout the property fails. -/
theorem not_openIsCandidate_of_someOpen (hopen : SomeOpen w) :
    ∃ d, ¬ OpenIsCandidate (advance w d) := by
  obtain ⟨u, hu, b, hb, hstate⟩ := hopen
  refine ⟨(b.timeout - (w.now - b.lastStateChange)).toNat + 1, fun hcand => ?_⟩
  have hlate : b.timeout < (advance w
      ((b.timeout - (w.now - b.lastStateChange)).toNat + 1)).now - b.lastStateChange := by
    simp only [advance]
    omega
  exact candidate_not_open (hcand u hu b hb hstate hlate) hb hstate

theorem openIsCandidate_of_allClosed (hw : AllClosed w) : OpenIsCandidate w := by
  intro u _ b hb hstate
  rw [hw u b hb] at hstate
  exact absurd hstate (by simp)

/-- **Recovery.**  In all states that a run of `Forward` calls and clock advances reaches, however
long the clock then goes on, every upstream that has been open for longer than its timeout is a
candidate again exactly when no attempt of the run trips a breaker. -/
theorem openIsCandidate_iff_tripFree (cfg : Config) (now : Int) (run : List Event) :
    (∀ w ∈ states step (boot cfg now) run, ∀ d, OpenIsCandidate (advance w d)) ↔
      AllSteps step TripFree (boot cfg now) run := by
  constructor
  · intro hall
    have hboot := boot_allClosed cfg now
    generalize boot cfg now = w at hall hboot
    induction run generalizing w with
    | nil => trivial
    | cons e run ih =>
      have hfree : TripFree w e := by
        by_contra htrip
        obtain ⟨d, hd⟩ :=
          not_openIsCandidate_of_someOpen (step_someOpen_of_not_tripFree hboot htrip)
        exact hd (hall _ (List.mem_cons_of_mem _ (mem_states_self _ _)) d)
      exact ⟨hfree, ih _ (fun v hv => hall v (List.mem_cons_of_mem _ hv))
        (step_allClosed w e hfree hboot)⟩
  · intro hrun w hw d
    have hclosed : AllClosed w :=
      invariant_states step_allClosed hrun (boot_allClosed cfg now) w hw
    exact openIsCandidate_of_allClosed (w := advance w d) hclosed

def oneUpstream : Config :=
  { upstreamDNSServers := [lit "9.9.9.9:53"]
    forwarder := { circuitBreaker := { enabled := true, failureThreshold := 1 } } }

def silence : Attempt where
  cancelled := none
  udp := fun _ => .failed "i/o timeout"
  took := 2000000000
  tcp := fun _ => .failed "i/o timeout"
  tcpTook := 2000000000

/-- One failed query, then an hour of quiet: the upstream is still not a candidate. -/
theorem openIsCandidate_fails :
    ¬ ∀ (cfg : Config) (now : Int) (run : List Event),
      cfg.forwarder.circuitBreaker.enabled = true →
      (∀ u ∈ (newForwarder cfg now).upstreams, isLocalUpstream u = false) →
      ∀ w ∈ states step (boot cfg now) run, OpenIsCandidate w := by
  intro hclaim
  have h := hclaim oneUpstream 0 [.forward fun _ => silence, .advance 3600000000000]
    rfl (by decide) _ (exec_mem_states _ _)
  have hcand := h (lit "9.9.9.9:53") (by decide) _ rfl (by decide) (by decide)
  revert hcand
  decide

end GloryHole.Forwarder.Proofs.Recovery
