import GloryHole.Forwarder.ConcurrentCalls

/-!
# The slots of the half-open state

A call that finds the breaker half-open counts itself in `halfOpenReqs`; the call that makes it
half-open does not, nor does one that began in another state, and the counter is then set to zero,
whoever is counted.  So the counter is right, and the limit kept, as long as a half-open period
begins with no other call under way, its first call is over before another one looks at the state,
and the calls that are counted do not fill 32 bits.
-/

namespace GloryHole.Forwarder

open Support.Runs Support.Threads

/-! ## Calls with and without a slot -/

inductive CallKind where
  | idle
  | outside
  | resetting
  | asking
  | counted
  | refused
  | over
  deriving DecidableEq

def CallKind.ofSlot (slot : Bool) : CallKind := if slot then .counted else .outside

@[simp] theorem CallKind.ofSlot_ne_idle (slot : Bool) : CallKind.ofSlot slot ≠ .idle := by
  cases slot <;> decide

namespace CallPhase

def kind : CallPhase → CallKind
  | .loadState => .idle
  | .loadChange | .swapHalfOpen => .outside
  | .resetChange | .resetSuccesses | .resetFailures | .resetReqs => .resetting
  | .takeSlot => .asking
  | .start slot | .executing slot => .ofSlot slot
  | .addFailure slot | .storeFailTime slot _ | .loadFailed slot _ | .swapClosedOpen slot
  | .storeOpened slot | .swapHalfOpenOpen slot | .storeReopened slot | .clearFailures slot
  | .clearSuccesses slot => .ofSlot slot
  | .addSuccess slot | .storeFailures slot _ | .loadSucceeded slot _ | .swapClosed slot
  | .storeClosed slot => .ofSlot slot
  | .release none => .refused
  | .release (some _) => .counted
  | .returned _ => .over

def withoutSlot (phase : CallPhase) : Bool :=
  decide (phase.kind = .outside) || decide (phase.kind = .resetting)

def is (k : CallKind) (phase : CallPhase) : Bool := decide (phase.kind = k)

theorem executing_kind {phase : CallPhase} (h : phase.isExecuting = true) :
    phase.is .counted = true ∨ phase.is .outside = true := by
  cases phase with
  | executing slot => cases slot <;> simp [is, kind, CallKind.ofSlot]
  | _ => cases h

theorem kind_eq_idle {phase : CallPhase} (h : phase.kind = .idle) : phase = .loadState := by
  cases phase with
  | loadState => rfl
  | release verdict => cases verdict <;> simp [kind] at h
  | _ => simp [kind] at h

theorem underWay_of_kind {phase : CallPhase} (hidle : phase.kind ≠ .idle)
    (hover : phase.kind ≠ .over) : phase.underWay = true := by
  cases phase <;> first | rfl | exact absurd rfl hidle | exact absurd rfl hover

end CallPhase

/-! ## What a step does -/

/-- What a step can do to the state, to the counter and to the call that takes it. -/
inductive CallMove (cb : CircuitBreaker) : CallKind → CircuitBreaker → CallKind → Prop where
  | look (hstate : cb.state ≠ .stateHalfOpen) : CallMove cb .idle cb .outside
  | ask (hstate : cb.state = .stateHalfOpen) : CallMove cb .idle cb .asking
  | change (hstate : cb.state = .stateOpen) :
      CallMove cb .outside { cb with state := .stateHalfOpen } .resetting
  | reset (cb' : CircuitBreaker) (hstate : cb'.state = cb.state)
      (hreqs : cb'.halfOpenReqs = cb.halfOpenReqs) (hmax : cb'.halfOpenMax = cb.halfOpenMax) :
      CallMove cb .resetting cb' .resetting
  | resetReqs : CallMove cb .resetting { cb with halfOpenReqs := 0 } .outside
  | take (hfree : ¬ Int32.ofInt cb.halfOpenMax < cb.halfOpenReqs + 1) :
      CallMove cb .asking { cb with halfOpenReqs := cb.halfOpenReqs + 1 } .counted
  | refuse : CallMove cb .asking { cb with halfOpenReqs := cb.halfOpenReqs + 1 } .refused
  | work (slot : Bool) (cb' : CircuitBreaker)
      (hstate : cb'.state = .stateHalfOpen → cb.state = .stateHalfOpen)
      (hreqs : cb'.halfOpenReqs = cb.halfOpenReqs) (hmax : cb'.halfOpenMax = cb.halfOpenMax) :
      CallMove cb (.ofSlot slot) cb' (.ofSlot slot)
  | leave (cb' : CircuitBreaker)
      (hstate : cb'.state = .stateHalfOpen → cb.state = .stateHalfOpen)
      (hreqs : cb'.halfOpenReqs = cb.halfOpenReqs) (hmax : cb'.halfOpenMax = cb.halfOpenMax) :
      CallMove cb .outside cb' .over
  | release : CallMove cb .counted { cb with halfOpenReqs := cb.halfOpenReqs - 1 } .over
  | releaseRefused : CallMove cb .refused { cb with halfOpenReqs := cb.halfOpenReqs - 1 } .over
  | stay : CallMove cb .over cb .over

namespace CallMove

variable {cb cb' : CircuitBreaker} {slot : Bool}

/-- The end of `Call` is a step of a call with or without a slot. -/
theorem finish (verdict : Bool) (hstate : cb'.state = .stateHalfOpen → cb.state = .stateHalfOpen)
    (hreqs : cb'.halfOpenReqs = cb.halfOpenReqs) (hmax : cb'.halfOpenMax = cb.halfOpenMax) :
    CallMove cb (.ofSlot slot) cb' (CallPhase.finish slot (some verdict)).kind := by
  cases slot with
  | false => exact .leave cb' hstate hreqs hmax
  | true => exact .work true cb' hstate hreqs hmax

theorem work_same (slot : Bool) : CallMove cb (.ofSlot slot) cb (.ofSlot slot) :=
  .work slot cb id rfl rfl

end CallMove

theorem callStep_move (cb : CircuitBreaker) (phase : CallPhase) (input : CallInput) :
    CallMove cb phase.kind (cb.callStep phase input).1 (cb.callStep phase input).2.kind := by
  cases phase with
  | loadState =>
    simp only [CircuitBreaker.callStep]
    cases hstate : cb.state with
    | stateClosed | stateOpen => exact .look (by simp [hstate])
    | stateHalfOpen => exact .ask hstate
  | loadChange =>
    simp only [CircuitBreaker.callStep]
    split
    · exact .work_same false
    · exact .leave cb id rfl rfl
  | swapHalfOpen =>
    simp only [CircuitBreaker.callStep]
    split
    next hopen => exact .change hopen
    next => exact .work_same false
  | resetChange | resetSuccesses | resetFailures => exact .reset _ rfl rfl rfl
  | resetReqs => exact .resetReqs
  | takeSlot =>
    simp only [CircuitBreaker.callStep]
    split
    next => exact .refuse
    next hfree => exact .take hfree
  | start slot => exact .work_same slot
  | executing slot =>
    simp only [CircuitBreaker.callStep]
    split <;> exact .work_same slot
  | addFailure slot | storeFailTime slot _ | storeReopened slot | clearFailures slot
  | addSuccess slot | storeFailures slot _ => exact .work slot _ id rfl rfl
  | loadFailed slot failures =>
    simp only [CircuitBreaker.callStep]
    split
    · split
      · exact .work_same slot
      · exact .finish true id rfl rfl
    · exact .work_same slot
    · exact .finish true id rfl rfl
  | swapClosedOpen slot | swapHalfOpenOpen slot | swapClosed slot =>
    simp only [CircuitBreaker.callStep]
    split
    · exact .work slot _ (by simp) rfl rfl
    · exact .finish _ id rfl rfl
  | storeOpened slot | clearSuccesses slot | storeClosed slot => exact .finish _ id rfl rfl
  | loadSucceeded slot successes =>
    simp only [CircuitBreaker.callStep]
    split
    · exact .work_same slot
    · exact .finish false id rfl rfl
  | release verdict =>
    cases verdict with
    | none => exact .releaseRefused
    | some failed => exact .release
  | returned verdict => exact .stay

/-! ## The account -/

theorem toInt_succ {x : Int32} (hpos : 0 ≤ x.toInt) (hlt : x.toInt + 1 < 2 ^ 31) :
    (x + 1).toInt = x.toInt + 1 := by
  rw [Int32.toInt_add]
  exact Int.bmod_eq_of_le (by simp; omega) (by simp; omega)

theorem toInt_pred {x : Int32} (hpos : 0 < x.toInt) : (x - 1).toInt = x.toInt - 1 := by
  have hlt := x.toInt_lt
  rw [Int32.toInt_sub]
  exact Int.bmod_eq_of_le (by simp; omega) (by simp; omega)

/-- With `n` calls of each kind the counter is the number of calls that have a slot, those that were
turned away included.  A half-open breaker has no call without a slot, or only one call at all. -/
structure Balanced (cb : CircuitBreaker) (n : CallKind → Nat) : Prop where
  halfOpenMax : cb.halfOpenMax = 3
  halfOpenReqs : cb.halfOpenReqs.toInt = (n .counted + n .refused : Nat)
  counted : n .counted ≤ 3
  halfOpen : cb.state = .stateHalfOpen →
    n .outside + n .resetting = 0 ∨
      n .outside + n .resetting + n .asking + n .counted + n .refused ≤ 1
  resetting : n .resetting ≠ 0 → cb.state = .stateHalfOpen

def Shifted (k k' : CallKind) (n n' : CallKind → Nat) : Prop :=
  0 < n k ∧ ∀ j, n' j + (if k = j then 1 else 0) = n j + (if k' = j then 1 else 0)

theorem Balanced.move {cb cb' : CircuitBreaker} {k k' : CallKind} {n n' : CallKind → Nat}
    (h : Balanced cb n) (hmove : CallMove cb k cb' k') (hshifted : Shifted k k' n n')
    (hask : k = .idle → cb.state = .stateHalfOpen → n .outside + n .resetting = 0)
    (hchange : cb.state ≠ .stateHalfOpen → cb'.state = .stateHalfOpen →
      n .outside + n .resetting + n .asking + n .counted + n .refused ≤ 1)
    (hroom : k = .asking → n .counted + n .refused + 1 < 2 ^ 31) :
    Balanced cb' n' := by
  obtain ⟨hmax, hreqs, hcounted, hhalf, hresetting⟩ := h
  obtain ⟨hpos, hn⟩ := hshifted
  have ho := hn .outside
  have hr := hn .resetting
  have ha := hn .asking
  have hc := hn .counted
  have hf := hn .refused
  clear hn
  -- A call without a slot in a half-open breaker is the only one.
  have honly : cb.state = .stateHalfOpen → n .outside + n .resetting ≠ 0 →
      n .outside + n .resetting + n .asking + n .counted + n .refused ≤ 1 :=
    fun hstate hsome => (hhalf hstate).resolve_left hsome
  cases hmove
  case work slot hstate hreqs' hmax' =>
    -- A call at work is a second one beside a call that resets the counters.
    have hsecond : n .resetting = 0 := by
      by_contra hne
      have hone := honly (hresetting hne) (by omega)
      cases slot <;>
        simp only [CallKind.ofSlot, if_true, if_false, Bool.false_eq_true] at hpos <;>
        omega
    have hsame : n' .outside = n .outside ∧ n' .counted = n .counted := by
      cases slot <;> simp [CallKind.ofSlot] at ho hc <;> omega
    have hothers : n' .resetting = n .resetting ∧ n' .asking = n .asking ∧
        n' .refused = n .refused := by
      cases slot <;> simp [CallKind.ofSlot] at hr ha hf <;> omega
    rw [← hreqs'] at hreqs
    refine ⟨by omega, by omega, by omega, fun hs => ?_, fun h => absurd hsecond (by omega)⟩
    have := hhalf (hstate hs)
    omega
  all_goals simp only [reduceCtorEq, if_false, if_true] at ho hr ha hc hf
  case look hstate =>
    exact ⟨hmax, by omega, by omega, fun hs => absurd hs hstate, fun h => hresetting (by omega)⟩
  case ask hstate =>
    have hnone := hask rfl hstate
    exact ⟨hmax, by omega, by omega, fun _ => Or.inl (by omega), fun _ => hstate⟩
  case change hstate =>
    have hone := hchange (by simp [hstate]) rfl
    refine ⟨hmax, ?_, by omega, fun _ => Or.inr (by omega), fun _ => rfl⟩
    change cb.halfOpenReqs.toInt = _
    omega
  case reset hstate hreqs' hmax' =>
    have hhalf' := hresetting (by omega)
    have hone := honly hhalf' (by omega)
    refine ⟨by omega, ?_, by omega, fun _ => Or.inr (by omega), fun _ => hstate.trans hhalf'⟩
    rw [hreqs']
    omega
  case resetReqs =>
    have hhalf' := hresetting (by omega)
    have hone := honly hhalf' (by omega)
    refine ⟨hmax, ?_, by omega, fun _ => Or.inr (by omega), fun _ => hhalf'⟩
    change (0 : Int) = _
    omega
  case take hfree =>
    have hlt := hroom rfl
    have hsucc := @toInt_succ cb.halfOpenReqs (by omega) (by omega)
    have hle : (cb.halfOpenReqs + 1).toInt ≤ (3 : Int32).toInt :=
      Int32.le_iff_toInt_le.mp (Int32.not_lt.mp (by rw [hmax] at hfree; exact hfree))
    have hthree : (3 : Int32).toInt = 3 := rfl
    refine ⟨hmax, hsucc.trans (by omega), by omega, fun hs => ?_, fun h => hresetting (by omega)⟩
    have := hhalf hs
    omega
  case refuse =>
    have hlt := hroom rfl
    have hsucc := @toInt_succ cb.halfOpenReqs (by omega) (by omega)
    refine ⟨hmax, hsucc.trans (by omega), by omega, fun hs => ?_, fun h => hresetting (by omega)⟩
    have := hhalf hs
    omega
  case release | releaseRefused =>
    have hpred := @toInt_pred cb.halfOpenReqs (by omega)
    refine ⟨hmax, hpred.trans (by omega), by omega, fun hs => ?_, fun h => hresetting (by omega)⟩
    have := hhalf hs
    omega
  case leave hstate hreqs' hmax' =>
    have hsecond : n .resetting = 0 := by
      by_contra hne
      have hone := honly (hresetting hne) (by omega)
      omega
    rw [← hreqs'] at hreqs
    refine ⟨by omega, by omega, by omega, fun hs => ?_, fun h => absurd hsecond (by omega)⟩
    have := hhalf (hstate hs)
    omega
  case stay =>
    refine ⟨hmax, by omega, by omega, fun hs => ?_, fun h => hresetting (by omega)⟩
    have := hhalf hs
    omega

/-! ## Runs -/

def Calls.kinds (p : Calls) (k : CallKind) : Nat := p.count (CallPhase.is k)

/-- What a step needs: if it makes the breaker half-open, no other call is under way; a call that
looks at a half-open breaker finds no call under way without a slot; and one that asks for a slot
finds fewer than 2 ^ 31 - 1 counted. -/
def Spaced (p : Calls) : CallTurn → Prop
  | .spawn _ => True
  | .run i input =>
    (p.memory.state ≠ .stateHalfOpen → (p.step (.run i input)).memory.state = .stateHalfOpen →
      p.Alone CallPhase.underWay i) ∧
    (p.threads[i]? = some .loadState → p.memory.state = .stateHalfOpen →
      p.count CallPhase.withoutSlot = 0) ∧
    (p.threads[i]?.map CallPhase.kind = some .asking →
      p.kinds .counted + p.kinds .refused + 1 < 2 ^ 31)

instance (p : Calls) : ∀ turn, Decidable (Spaced p turn)
  | .spawn _ => isTrue trivial
  | .run _ _ => inferInstanceAs (Decidable (_ ∧ _))

section Run

variable {p : Calls} {i : Nat} {phase : CallPhase} {input : CallInput}

theorem Calls.kinds_run (hphase : p.threads[i]? = some phase) :
    Shifted phase.kind (p.memory.callStep phase input).2.kind p.kinds
      (p.step (.run i input)).kinds := by
  refine ⟨Pool.count_pos hphase (by simp [CallPhase.is]), fun k => ?_⟩
  have hrun := @Pool.count_run _ _ Unit _ (fun _ => .loadState) CircuitBreaker.callStep p
    (CallPhase.is k) i input phase hphase
  simp only [CallPhase.is, decide_eq_true_eq] at hrun
  exact hrun

/-- A new call has no slot and asks for none yet. -/
theorem Calls.kinds_spawn (p : Calls) {k : CallKind} (hidle : k ≠ .idle) :
    (p.step (.spawn ())).kinds k = p.kinds k := by
  refine (Pool.count_spawn ()).trans ?_
  rw [if_neg (by simp [CallPhase.is, CallPhase.kind, hidle.symm]), Nat.add_zero]
  rfl

theorem Calls.kinds_alone (hphase : p.threads[i]? = some phase)
    (h : p.Alone CallPhase.underWay i) {k : CallKind} (hidle : k ≠ .idle) (hover : k ≠ .over) :
    p.kinds k = if phase.kind = k then 1 else 0 := by
  have halone : p.Alone (CallPhase.is k) i := by
    intro j u hu hk
    obtain rfl : u.kind = k := by simpa [CallPhase.is] using hk
    exact h j u hu (CallPhase.underWay_of_kind hidle hover)
  have hcount := halone.count_eq hphase
  simp only [CallPhase.is, decide_eq_true_eq] at hcount
  exact hcount

/-- A call under way alone is the only one that has or asks for a slot or has none. -/
theorem Calls.kinds_alone_le (hphase : p.threads[i]? = some phase)
    (h : p.Alone CallPhase.underWay i) :
    p.kinds .outside + p.kinds .resetting + p.kinds .asking + p.kinds .counted +
      p.kinds .refused ≤ 1 := by
  have hkinds {k : CallKind} := @Calls.kinds_alone p i phase hphase h k
  rw [hkinds (by decide) (by decide), hkinds (by decide) (by decide),
    hkinds (by decide) (by decide), hkinds (by decide) (by decide),
    hkinds (by decide) (by decide)]
  cases phase.kind <;> decide

theorem kinds_without_slot (h : p.count CallPhase.withoutSlot = 0) :
    p.kinds .outside + p.kinds .resetting = 0 := by
  have houtside : p.kinds .outside ≤ p.count CallPhase.withoutSlot :=
    Pool.count_mono fun t ht => by
      simp only [CallPhase.withoutSlot, Bool.or_eq_true]
      exact Or.inl ht
  have hresetting : p.kinds .resetting ≤ p.count CallPhase.withoutSlot :=
    Pool.count_mono fun t ht => by
      simp only [CallPhase.withoutSlot, Bool.or_eq_true]
      exact Or.inr ht
  omega

end Run

theorem balanced_new (failureThreshold successThreshold timeout now : Int) :
    Balanced (newCircuitBreaker failureThreshold successThreshold timeout now) fun _ => 0 :=
  ⟨rfl, rfl, Nat.zero_le _, fun _ => Or.inl rfl, fun h => absurd rfl h⟩

/-- One step keeps the account. -/
theorem balanced_step (p : Calls) (turn : CallTurn) (hspaced : Spaced p turn)
    (h : Balanced p.memory p.kinds) :
    Balanced (p.step turn).memory (p.step turn).kinds := by
  cases turn with
  | spawn k =>
    have hkinds {k : CallKind} := @Calls.kinds_spawn p k
    obtain ⟨hmax, hreqs, hcounted, hhalf, hresetting⟩ := h
    refine ⟨hmax, ?_, ?_, ?_, ?_⟩
    · rw [hkinds (by decide), hkinds (by decide)]
      exact hreqs
    · rw [hkinds (by decide)]
      exact hcounted
    · rw [hkinds (by decide), hkinds (by decide), hkinds (by decide), hkinds (by decide),
        hkinds (by decide)]
      exact hhalf
    · rw [hkinds (by decide)]
      exact hresetting
  | run i input =>
    cases hphase : p.threads[i]? with
    | none =>
      have hstep : p.step (.run i input) = p := Pool.step_run_none hphase
      rw [hstep]
      exact h
    | some phase =>
      have hmemory : (p.step (.run i input)).memory = (p.memory.callStep phase input).1 :=
        congrArg Pool.memory (Pool.step_run hphase)
      have hchange := hspaced.1
      rw [hmemory] at hchange ⊢
      apply h.move (callStep_move p.memory phase input) (Calls.kinds_run hphase)
      · intro hidle hstate
        have hload := CallPhase.kind_eq_idle hidle
        subst hload
        exact kinds_without_slot (hspaced.2.1 hphase hstate)
      · intro hbefore hafter
        exact Calls.kinds_alone_le hphase (hchange hbefore hafter)
      · intro hasking
        exact hspaced.2.2 (by rw [hphase, Option.map_some, hasking])

/-- What the account says: at most three calls execute while the breaker is half-open, and the
counter counts. -/
theorem Balanced.limit {p : Calls} (h : Balanced p.memory p.kinds) :
    (p.memory.state = .stateHalfOpen →
        (p.count CallPhase.isExecuting : Int) ≤ p.memory.halfOpenMax) ∧
      0 ≤ p.memory.halfOpenReqs ∧
      (p.count CallPhase.underWay = 0 → p.memory.halfOpenReqs = 0) := by
  obtain ⟨hmax, hreqs, hcounted, hhalf, -⟩ := h
  refine ⟨fun hstate => ?_, Int32.le_iff_toInt_le.mpr ?_, fun hnone => ?_⟩
  · have hexecuting : p.count CallPhase.isExecuting ≤ p.kinds .counted + p.kinds .outside :=
      Pool.count_add fun t => CallPhase.executing_kind
    rcases hhalf hstate with hwithout | hone
    · omega
    · omega
  · rw [hreqs]
    exact Int.natCast_nonneg _
  · have hkind {k : CallKind} (hidle : k ≠ .idle) (hover : k ≠ .over) : p.kinds k = 0 := by
      have hle : p.kinds k ≤ p.count CallPhase.underWay := by
        refine Pool.count_mono fun t ht => ?_
        obtain rfl : t.kind = k := by simpa [CallPhase.is] using ht
        exact CallPhase.underWay_of_kind hidle hover
      omega
    have := hkind (k := .counted) (by decide) (by decide)
    have := hkind (k := .refused) (by decide) (by decide)
    apply Int32.toInt_inj.mp
    rw [hreqs, Int32.toInt_zero]
    omega

/-- In every run whose steps are spaced, no more than the allowed calls execute at once while the
breaker is half-open, and the counter is never negative and is zero when no call is under way. -/
theorem half_open_accounting (failureThreshold successThreshold timeout start : Int)
    (turns : List CallTurn)
    (hrun : AllSteps Calls.step Spaced
      (Calls.new failureThreshold successThreshold timeout start) turns) :
    ∀ p ∈ states Calls.step (Calls.new failureThreshold successThreshold timeout start) turns,
      (p.memory.state = .stateHalfOpen →
          (p.count CallPhase.isExecuting : Int) ≤ p.memory.halfOpenMax) ∧
        0 ≤ p.memory.halfOpenReqs ∧
        (p.count CallPhase.underWay = 0 → p.memory.halfOpenReqs = 0) := by
  intro p hp
  have hbalanced : Balanced p.memory p.kinds :=
    invariant_states balanced_step hrun
      (balanced_new failureThreshold successThreshold timeout start) p hp
  exact hbalanced.limit

/-! ## Runs that keep the limit and runs that do not -/

def stepsOf (i n : Nat) (now : Int) (failed : Bool) : List CallTurn :=
  List.replicate n (.run i ⟨now, failed⟩)

def untilHalfOpen (calls : Nat) : List CallTurn :=
  List.replicate calls (.spawn ()) ++ stepsOf 0 8 1 true ++ stepsOf 1 8 20 true

def spacedRun : List CallTurn :=
  untilHalfOpen 6 ++ stepsOf 1 4 21 false ++ stepsOf 2 3 22 false ++ stepsOf 3 3 22 false ++
    stepsOf 4 3 22 false ++ stepsOf 5 3 22 false

theorem spaced_half_open_accounting :
    (∃ p ∈ states Calls.step (Calls.new 1 2 10 0) spacedRun,
      p.memory.state = .stateHalfOpen ∧ p.count CallPhase.isExecuting = 3) ∧
    ∀ p ∈ states Calls.step (Calls.new 1 2 10 0) spacedRun,
      (p.memory.state = .stateHalfOpen →
          (p.count CallPhase.isExecuting : Int) ≤ p.memory.halfOpenMax) ∧
        0 ≤ p.memory.halfOpenReqs ∧
        (p.count CallPhase.underWay = 0 → p.memory.halfOpenReqs = 0) :=
  ⟨⟨_, exec_mem_states _ _, by decide +kernel⟩,
    half_open_accounting 1 2 10 0 spacedRun (by decide +kernel)⟩

def crowdedRun : List CallTurn :=
  untilHalfOpen 5 ++ stepsOf 2 3 21 false ++ stepsOf 3 3 21 false ++ stepsOf 4 3 21 false

/-- Call 2 has a slot when call 1 fails; call 3 makes the breaker half-open again, and then all
return. -/
def overlappingRun : List CallTurn :=
  untilHalfOpen 4 ++ stepsOf 2 3 21 false ++ stepsOf 1 8 22 true ++ stepsOf 3 12 40 false ++
    stepsOf 2 7 41 false

theorem half_open_miscounted :
    (∃ p ∈ states Calls.step (Calls.new 1 2 10 0) crowdedRun,
      p.memory.state = .stateHalfOpen ∧ p.memory.halfOpenMax = 3 ∧
        p.count CallPhase.isExecuting = 4) ∧
    ∃ p ∈ states Calls.step (Calls.new 1 2 10 0) overlappingRun,
      p.count CallPhase.underWay = 0 ∧ p.memory.halfOpenReqs = -1 :=
  ⟨⟨_, exec_mem_states _ _, by decide +kernel⟩, ⟨_, exec_mem_states _ _, by decide +kernel⟩⟩

end GloryHole.Forwarder
