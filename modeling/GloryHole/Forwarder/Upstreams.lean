import GloryHole.Forwarder.Forward

/-!
# Forwarding a query to given upstreams

`ForwardWithUpstreams` asks the upstreams of a rule in their order.  Unlike `Forward` it does not
look at their health first, and it does not record an empty response as a failure.
-/

set_option linter.dupNamespace false

namespace GloryHole.Forwarder

open Go Dns

inductive ListError where
  | noneProvided
  | cancelled (err : String)
  | allFailed (last : Option AttemptError)
  deriving DecidableEq

/-- One round of the loop of `ForwardWithUpstreams`, once its upstream is chosen. -/
def askUpstream (w : World) (a : Attempt) (upstream : GoString) :
    World × Except AttemptError Msg × List Sent :=
  match exchangeUDP w a upstream with
  | (w, .error err, sent) =>
    if w.fwd.servfailTCPRetry then
      let w := { w with now := w.now + a.tcpTook }
      match retryOverTCP a upstream with
      | some m => (w, .ok m, sent ++ [Sent.tcp upstream])
      | none => (w, .error err, sent ++ [Sent.tcp upstream])
    else (w, .error err, sent)
  | (w, .ok none, sent) => (w, .error (.nilResponse upstream), sent)
  | (w, .ok (some m), sent) =>
    if m.rcode = rcodeServerFailure ∧ w.fwd.servfailTCPRetry then
      let w := { w with now := w.now + a.tcpTook }
      (w, .ok ((retryOverTCP a upstream).getD m), sent ++ [Sent.tcp upstream])
    else (w, .ok m, sent)

def upstreamsLoop (env : Nat → Attempt) (upstreams : List GoString) :
    Nat → Nat → World → Option AttemptError → World × Except ListError Msg × List Sent
  | 0, _, w, lastErr => (w, .error (.allFailed lastErr), [])
  | n + 1, i, w, _ =>
    match (env i).cancelled with
    | some err => (w, .error (.cancelled err), [])
    | none =>
      let upstream := upstreams[i % upstreams.length]?.getD []
      match askUpstream w (env i) upstream with
      | (w, .ok m, sent) => (w, .ok m, sent)
      | (w, .error err, sent) =>
        let (w, result, sent') := upstreamsLoop env upstreams n (i + 1) w (some err)
        (w, result, sent ++ sent')

def forwardWithUpstreams (env : Nat → Attempt) (w : World) (upstreams : List GoString) :
    World × Except ListError Msg × List Sent :=
  if upstreams = [] then (w, .error .noneProvided, [])
  else
    upstreamsLoop env upstreams (min w.fwd.retries upstreams.length).toNat 0 w none

/-! ## Selecting an upstream -/

theorem selectUpstream_ok {f f' : Forwarder} {u : GoString}
    (h : f.selectUpstream = (f', .ok u)) :
    f.candidates[((f.index + 1) % UInt32.ofNat f.candidates.length).toNat]? = some u ∧
      f' = { f with index := f.index + 1 } := by
  unfold Forwarder.selectUpstream at h
  simp only at h
  split at h
  · simp at h
  · split at h
    · simp at h
    · split at h
      · simp at h
      · next hget =>
          obtain ⟨rfl, hu⟩ := Prod.mk.inj h
          obtain rfl := Except.ok.inj hu
          exact ⟨hget, rfl⟩

theorem selectUpstream_error {f f' : Forwarder} {e : ForwardError}
    (h : f.selectUpstream = (f', .error e)) : f' = f := by
  unfold Forwarder.selectUpstream at h
  simp only at h
  split at h
  · exact (Prod.mk.inj h).1.symm
  · split at h
    · exact (Prod.mk.inj h).1.symm
    · split at h
      · exact (Prod.mk.inj h).1.symm
      · simp at h

theorem candidate_mem_upstreams {f : Forwarder} {u : GoString}
    (hu : u ∈ f.candidates) : u ∈ f.upstreams := by
  unfold Forwarder.candidates at hu
  cases hh : f.health with
  | none => simpa [hh] using hu
  | some uh =>
    simp only [hh] at hu
    exact (UpstreamHealth.mem_getHealthyUpstreams.mp hu).1

/-! ## Trials -/

/-- What a round sends to its upstream and what comes of it.  Nothing is sent over UDP if the
breaker rejects the call. -/
structure Trial where
  upstream : GoString
  udp : Option Exchange
  tcp : Option Exchange

/-- The breaker of the upstream turns a call away. -/
def Forwarder.rejects (f : Forwarder) (now : Int) (upstream : GoString) : Bool :=
  (f.getBreaker upstream).any fun breaker => (breaker.enter now).isNone

def Exchange.usable : Exchange → Option Msg
  | .resp m => if m.rcode = rcodeServerFailure then none else some m
  | _ => none

namespace Trial

def sent (t : Trial) : List Sent :=
  (t.udp.map fun _ => Sent.udp t.upstream).toList ++
    (t.tcp.map fun _ => Sent.tcp t.upstream).toList

/-- The answer of the trial: that over UDP unless it is SERVFAIL, that over TCP unless it is, or
the SERVFAIL. -/
def answer (t : Trial) : Option Msg :=
  match t.udp with
  | some (.resp m) =>
    if m.rcode = rcodeServerFailure then some ((t.tcp.bind Exchange.usable).getD m) else some m
  | _ => t.tcp.bind Exchange.usable

def retries : Option Exchange → Bool
  | some .nilResp => false
  | some (.resp m) => m.rcode = rcodeServerFailure
  | _ => true

/-- The trial is made in the world `w`, in a call that began with the forwarder `f`. -/
structure Of (f : Forwarder) (w : World) (a : Attempt) (t : Trial) : Prop where
  udp : t.udp = if w.fwd.rejects w.now t.upstream then none else some (a.udp t.upstream)
  tcp : t.tcp = if f.servfailTCPRetry && retries t.udp then some (a.tcp t.upstream) else none

end Trial

structure SameSettings (w w' : World) : Prop where
  upstreams : w'.fwd.upstreams = w.fwd.upstreams
  servfailTCPRetry : w'.fwd.servfailTCPRetry = w.fwd.servfailTCPRetry
  index : w'.fwd.index = w.fwd.index

theorem SameSettings.trans {w w' w'' : World} (h : SameSettings w w') (h' : SameSettings w' w'') :
    SameSettings w w'' where
  upstreams := h'.upstreams.trans h.upstreams
  servfailTCPRetry := h'.servfailTCPRetry.trans h.servfailTCPRetry
  index := h'.index.trans h.index

theorem exchangeUDP_eq (w : World) (a : Attempt) (upstream : GoString) :
    ∃ w', SameSettings w w' ∧ exchangeUDP w a upstream =
      if w.fwd.rejects w.now upstream then (w', .error .circuitOpen, [])
      else (w', (a.udp upstream).toResult, [.udp upstream]) := by
  refine ⟨(exchangeUDP w a upstream).1, ?_⟩
  unfold exchangeUDP Forwarder.rejects
  cases w.fwd.getBreaker upstream with
  | none => exact ⟨⟨rfl, rfl, rfl⟩, rfl⟩
  | some breaker =>
    cases henter : breaker.enter w.now with
    | none | some admitted =>
      simp only [CircuitBreaker.call, henter, Option.any_some]
      exact ⟨⟨rfl, rfl, rfl⟩, rfl⟩

theorem retryOverTCP_eq (a : Attempt) (upstream : GoString) :
    retryOverTCP a upstream = (a.tcp upstream).usable := by
  unfold retryOverTCP Exchange.usable
  cases a.tcp upstream <;> rfl

/-- Asking an upstream is a trial. -/
theorem askUpstream_trial (w : World) (a : Attempt) (upstream : GoString) :
    ∃ t : Trial, t.upstream = upstream ∧ t.Of w.fwd w a ∧
      SameSettings w (askUpstream w a upstream).1 ∧ (askUpstream w a upstream).2.2 = t.sent ∧
      (askUpstream w a upstream).2.1.toOption = t.answer := by
  obtain ⟨w', hsettings, hexchange⟩ := exchangeUDP_eq w a upstream
  obtain ⟨udp, hof, hexchange⟩ :
      ∃ udp, udp = (if w.fwd.rejects w.now upstream then none else some (a.udp upstream)) ∧
        exchangeUDP w a upstream =
          (w', udp.elim (.error .circuitOpen) Exchange.toResult,
            (udp.map fun _ => Sent.udp upstream).toList) := by
    refine ⟨_, rfl, hexchange.trans ?_⟩
    split <;> rfl
  refine ⟨⟨upstream, udp,
    if w.fwd.servfailTCPRetry && Trial.retries udp then some (a.tcp upstream) else none⟩,
    rfl, ⟨hof, rfl⟩, ?_⟩
  have hsame (now : Int) : SameSettings w { w' with now := now } :=
    ⟨hsettings.upstreams, hsettings.servfailTCPRetry, hsettings.index⟩
  have hretry := hsettings.servfailTCPRetry
  unfold askUpstream
  rw [hexchange, retryOverTCP_eq]
  cases hb : w.fwd.servfailTCPRetry with
  | false =>
    rw [hb] at hretry
    rcases udp with _ | err | _ | m
    all_goals simp [Exchange.toResult, Trial.sent, Trial.answer, hretry, Except.toOption]
    all_goals exact hsame w'.now
  | true =>
    rw [hb] at hretry
    rcases udp with _ | err | _ | m
    · cases husable : (a.tcp upstream).usable <;>
        simp [Trial.sent, Trial.answer, Trial.retries, hretry, husable, Except.toOption, hsame]
    · cases husable : (a.tcp upstream).usable <;>
        simp [Exchange.toResult, Trial.sent, Trial.answer, Trial.retries, hretry, husable,
          Except.toOption, hsame]
    · simp [Exchange.toResult, Trial.sent, Trial.answer, Trial.retries, Except.toOption]
      exact hsame w'.now
    · by_cases hm : m.rcode = rcodeServerFailure
      · simp [Exchange.toResult, Trial.sent, Trial.answer, Trial.retries, hretry, hm, hsame,
          Except.toOption]
      · simp [Exchange.toResult, Trial.sent, Trial.answer, Trial.retries, hm, Except.toOption]
        exact hsame w'.now

def Verdict.ofResult : Except AttemptError Msg → Verdict
  | .ok m => .done (.ok m)
  | .error err => .next err

/-- A round of `Forward` that chooses an upstream asks it. -/
theorem attempt_asks {w : World} {a : Attempt} {fwd : Forwarder} {upstream : GoString}
    (hcancelled : a.cancelled = none) (hselect : w.fwd.selectUpstream = (fwd, .ok upstream)) :
    ∃ w', SameSettings (askUpstream { w with fwd := fwd } a upstream).1 w' ∧
      attempt w a = (w', .ofResult (askUpstream { w with fwd := fwd } a upstream).2.1,
        (askUpstream { w with fwd := fwd } a upstream).2.2) := by
  have hrefl (w : World) : SameSettings w w := ⟨rfl, rfl, rfl⟩
  rcases hexchange : exchangeUDP { w with fwd := fwd } a upstream with ⟨w', err | _ | m, sent⟩
  · simp only [attempt, attemptChosen, hcancelled, hselect, askUpstream, hexchange]
    split
    · cases retryOverTCP a upstream with
      | none | some m => exact ⟨_, hrefl _, rfl⟩
    · exact ⟨_, hrefl _, rfl⟩
  · simp only [attempt, attemptChosen, hcancelled, hselect, askUpstream, hexchange]
    exact ⟨recordFailure w' upstream, ⟨rfl, rfl, rfl⟩, rfl⟩
  · simp only [attempt, attemptChosen, hcancelled, hselect, askUpstream, hexchange]
    split
    · exact ⟨_, hrefl _, rfl⟩
    · exact ⟨_, hrefl _, rfl⟩

/-- What a round of `Forward` can do: stop for the context, stop for want of an upstream, or try
one. -/
theorem attempt_cases (w : World) (a : Attempt) :
    (∃ err, a.cancelled = some err ∧ attempt w a = (w, .done (.error (.cancelled err)), [])) ∨
    a.cancelled = none ∧
      ((∃ err, w.fwd.selectUpstream = (w.fwd, .error err) ∧
          attempt w a = (w, .done (.error err), [])) ∨
        ∃ t : Trial, ∃ w' result, t.upstream ∈ w.fwd.upstreams ∧ t.Of w.fwd w a ∧
          w.fwd.selectUpstream = ({ w.fwd with index := w.fwd.index + 1 }, .ok t.upstream) ∧
          SameSettings { w with fwd := { w.fwd with index := w.fwd.index + 1 } } w' ∧
          attempt w a = (w', .ofResult result, t.sent) ∧ result.toOption = t.answer) := by
  cases hcancelled : a.cancelled with
  | some err => exact Or.inl ⟨err, rfl, by simp only [attempt, hcancelled]⟩
  | none =>
    refine Or.inr ⟨rfl, ?_⟩
    rcases hselect : w.fwd.selectUpstream with ⟨fwd, err | upstream⟩
    · obtain rfl := selectUpstream_error hselect
      exact Or.inl ⟨err, rfl, by simp only [attempt, hcancelled, hselect]⟩
    · obtain ⟨hcandidate, rfl⟩ := selectUpstream_ok hselect
      obtain ⟨t, rfl, hof, hsame, hsent, hanswer⟩ :=
        askUpstream_trial { w with fwd := { w.fwd with index := w.fwd.index + 1 } } a upstream
      obtain ⟨w', hsame', hattempt⟩ := attempt_asks hcancelled hselect
      have hmem := candidate_mem_upstreams (List.mem_of_getElem? hcandidate)
      rw [hsent] at hattempt
      exact Or.inr ⟨t, w', _, hmem, ⟨hof.udp, hof.tcp⟩, rfl, hsame.trans hsame', hattempt, hanswer⟩

/-- The worlds in which rounds of `Forward` choose an upstream, with their choices. -/
def choices (env : Nat → Attempt) : Nat → Nat → World → List (World × GoString)
  | 0, _, _ => []
  | n + 1, i, w =>
    match (env i).cancelled, w.fwd.selectUpstream with
    | none, (_, .ok upstream) =>
      (w, upstream) ::
        match attempt w (env i) with
        | (w', .next _, _) => choices env n (i + 1) w'
        | _ => []
    | _, _ => []

/-- What `n` rounds of `Forward` come to when `i` have been made before: the trials they make, and
the reason they end for. -/
structure Tried (env : Nat → Attempt) (n i : Nat) (w : World)
    (out : World × Except ForwardError Msg × List Sent) (trials : List Trial) : Prop where
  bound : trials.length ≤ n
  sent : out.2.2 = trials.flatMap Trial.sent
  made : ∀ k (t : Trial), trials[k]? = some t → t.upstream ∈ w.fwd.upstreams ∧
    ∃ w', (choices env n i w)[k]? = some (w', t.upstream) ∧ t.Of w.fwd w' (env (i + k))
  upstreams : out.1.fwd.upstreams = w.fwd.upstreams
  answered : ∀ m, out.2.1 = .ok m → ∃ init t, trials = init ++ [t] ∧
    (∀ t ∈ init, t.answer = none) ∧ t.answer = some m
  failed : ∀ err, out.2.1 = .error err → (∀ t ∈ trials, t.answer = none) ∧
    ((∃ e, err = .cancelled e ∧ (env (i + trials.length)).cancelled = some e) ∨
      out.1.fwd.selectUpstream.2 = .error err ∨
      ∃ last, err = .allFailed last ∧ trials.length = n)

section Calls

variable {env : Nat → Attempt} {n i : Nat} {w w' : World} {t : Trial} {m : Msg}

/-- Rounds that end before they make a trial. -/
theorem Tried.nil {err : ForwardError}
    (herr : (∃ e, err = .cancelled e ∧ (env i).cancelled = some e) ∨
      w.fwd.selectUpstream.2 = .error err ∨ ∃ last, err = .allFailed last ∧ 0 = n) :
    Tried env n i w (w, .error err, []) [] where
  bound := Nat.zero_le n
  sent := rfl
  made := by simp
  upstreams := rfl
  answered := by simp
  failed := by
    intro err' heq
    obtain rfl := Except.error.inj heq
    exact ⟨by simp, herr⟩

theorem Tried.single (hmem : t.upstream ∈ w.fwd.upstreams) (hof : t.Of w.fwd w (env i))
    (hchoices : choices env (n + 1) i w = [(w, t.upstream)])
    (hupstreams : w'.fwd.upstreams = w.fwd.upstreams) (hanswer : t.answer = some m) :
    Tried env (n + 1) i w (w', .ok m, t.sent) [t] where
  bound := Nat.le_add_left 1 n
  sent := by simp
  made := by
    intro k t' hget
    obtain ⟨rfl, rfl⟩ : k = 0 ∧ t = t' := by
      cases k with
      | zero => simpa using hget
      | succ k => simp at hget
    exact ⟨hmem, w, by rw [hchoices]; rfl, hof⟩
  upstreams := hupstreams
  answered := by
    intro m' heq
    obtain rfl := Except.ok.inj heq
    exact ⟨[], t, rfl, by simp, hanswer⟩
  failed := by simp

theorem Tried.cons {trials : List Trial} {out : World × Except ForwardError Msg × List Sent}
    (hmem : t.upstream ∈ w.fwd.upstreams) (hof : t.Of w.fwd w (env i))
    (hchoices : choices env (n + 1) i w = (w, t.upstream) :: choices env n (i + 1) w')
    (hupstreams : w'.fwd.upstreams = w.fwd.upstreams)
    (hretry : w'.fwd.servfailTCPRetry = w.fwd.servfailTCPRetry) (hanswer : t.answer = none)
    (h : Tried env n (i + 1) w' out trials) :
    Tried env (n + 1) i w (out.1, out.2.1, t.sent ++ out.2.2) (t :: trials) where
  bound := Nat.succ_le_succ h.bound
  sent := by rw [h.sent, List.flatMap_cons]
  made := by
    intro k t' hget
    rw [hchoices]
    cases k with
    | zero =>
      obtain rfl : t = t' := by simpa using hget
      exact ⟨hmem, w, rfl, hof⟩
    | succ k =>
      obtain ⟨hmem', world, hworld, hof'⟩ := h.made k t' (by simpa using hget)
      rw [hupstreams] at hmem'
      rw [Nat.add_right_comm, Nat.add_assoc] at hof'
      exact ⟨hmem', world, hworld, hof'.udp, by rw [hof'.tcp, hretry]⟩
  upstreams := h.upstreams.trans hupstreams
  answered := by
    intro m heq
    obtain ⟨init, last, rfl, hinit, hlast⟩ := h.answered m heq
    exact ⟨t :: init, last, rfl, by simpa [hanswer] using hinit, hlast⟩
  failed := by
    intro err heq
    obtain ⟨htrials, hreason⟩ := h.failed err heq
    refine ⟨by simpa [hanswer] using htrials, ?_⟩
    rw [List.length_cons, ← Nat.add_assoc, Nat.add_right_comm]
    simpa using hreason

theorem forwardLoop_tried (env : Nat → Attempt) (n i : Nat) (w : World)
    (lastErr : Option AttemptError) :
    ∃ trials, Tried env n i w (forwardLoop env n i w lastErr) trials := by
  induction n generalizing i w lastErr with
  | zero => exact ⟨[], .nil (Or.inr (Or.inr ⟨lastErr, rfl, rfl⟩))⟩
  | succ n ih =>
    rcases attempt_cases w (env i) with ⟨err, hcancelled, hattempt⟩ | ⟨hcancelled, hround⟩
    · simp only [forwardLoop, hattempt]
      exact ⟨[], .nil (Or.inl ⟨err, rfl, hcancelled⟩)⟩
    rcases hround with ⟨err, hselect, hattempt⟩ |
      ⟨t, w', err | m, hmem, hof, hselect, hsame, hattempt, hanswer⟩
    · simp only [forwardLoop, hattempt]
      exact ⟨[], .nil (Or.inr (Or.inl (by rw [hselect])))⟩
    · -- the trial has failed and the remaining rounds follow
      obtain ⟨trials, htried⟩ := ih (i + 1) w' (some err)
      have hchoices : choices env (n + 1) i w = (w, t.upstream) :: choices env n (i + 1) w' := by
        simp only [choices, hcancelled, hselect, hattempt, Verdict.ofResult]
      simp only [forwardLoop, hattempt, Verdict.ofResult]
      exact ⟨t :: trials, htried.cons hmem hof hchoices hsame.upstreams hsame.servfailTCPRetry
        hanswer.symm⟩
    · have hchoices : choices env (n + 1) i w = [(w, t.upstream)] := by
        simp only [choices, hcancelled, hselect, hattempt, Verdict.ofResult]
      simp only [forwardLoop, hattempt, Verdict.ofResult]
      exact ⟨[t], .single hmem hof hchoices hsame.upstreams hanswer.symm⟩

/-! ## Where an answer comes from -/

def Attempt.Sends (a : Attempt) (m : Msg) : Prop :=
  ∃ upstream, a.udp upstream = .resp m ∨ a.tcp upstream = .resp m

/-- The upstream answers over UDP, and not with a SERVFAIL that its TCP answer replaces; or it
answers over TCP, where that is tried. -/
def Attempt.Delivers (retry : Bool) (a : Attempt) (upstream : GoString) (m : Msg) : Prop :=
  a.udp upstream = .resp m ∧
      (m.rcode = rcodeServerFailure → retry = true → (a.tcp upstream).usable = none) ∨
    retry = true ∧ (a.tcp upstream).usable = some m

theorem Exchange.of_usable {e : Exchange} (h : e.usable = some m) : e = .resp m := by
  cases e with
  | failed err | nilResp => simp [usable] at h
  | resp m' =>
    have hm : m' = m := by
      simp only [usable] at h
      split at h
      · simp at h
      · exact Option.some.inj h
    rw [hm]

theorem Attempt.Delivers.sends {retry : Bool} {a : Attempt} {upstream : GoString}
    (h : a.Delivers retry upstream m) : a.Sends m := by
  rcases h with ⟨hudp, -⟩ | ⟨-, htcp⟩
  · exact ⟨upstream, Or.inl hudp⟩
  · exact ⟨upstream, Or.inr (Exchange.of_usable htcp)⟩

theorem Trial.Of.delivers {f : Forwarder} {a : Attempt} (h : t.Of f w a)
    (hanswer : t.answer = some m) : a.Delivers f.servfailTCPRetry t.upstream m := by
  have htcp (hm : t.tcp.bind Exchange.usable = some m) :
      a.Delivers f.servfailTCPRetry t.upstream m := by
    rw [h.tcp] at hm
    split at hm
    · next hretry => exact Or.inr ⟨(Bool.and_eq_true_iff.mp hretry).1, hm⟩
    · simp at hm
  unfold answer at hanswer
  split at hanswer
  · next m' hudp =>
    have hresp : a.udp t.upstream = .resp m' := by
      have hof := h.udp
      rw [hudp] at hof
      split at hof
      · cases hof
      · exact (Option.some.inj hof).symm
    split at hanswer
    · next hfailure =>
      cases hbind : t.tcp.bind Exchange.usable with
      | none =>
        obtain rfl : m' = m := by simpa [hbind] using hanswer
        refine Or.inl ⟨hresp, fun _ hretry => ?_⟩
        have hasked : t.tcp = some (a.tcp t.upstream) := by
          rw [h.tcp, hudp, hretry]
          simp [retries, hfailure]
        simpa [hasked] using hbind
      | some m'' =>
        obtain rfl : m'' = m := by simpa [hbind] using hanswer
        exact htcp hbind
    · next hfine =>
      obtain rfl := Option.some.inj hanswer
      exact Or.inl ⟨hresp, fun hfailure => absurd hfailure hfine⟩
  · exact htcp hanswer

/-- `Forward` returns only what an upstream has delivered. -/
theorem forward_delivers (h : (forward env w).2.1 = .ok m) :
    ∃ i upstream, (env i).Delivers w.fwd.servfailTCPRetry upstream m := by
  unfold forward at h
  split at h
  · cases h
  · obtain ⟨trials, htried⟩ := forwardLoop_tried env w.fwd.attempts 0 w none
    obtain ⟨init, t, rfl, -, hanswer⟩ := htried.answered m h
    obtain ⟨-, w', -, hof⟩ := htried.made init.length t (by simp)
    exact ⟨_, _, hof.delivers hanswer⟩

theorem upstreamsLoop_delivers {upstreams : List GoString} {lastErr : Option AttemptError}
    (h : (upstreamsLoop env upstreams n i w lastErr).2.1 = .ok m) :
    ∃ i upstream, (env i).Delivers w.fwd.servfailTCPRetry upstream m := by
  induction n generalizing i w lastErr with
  | zero => cases h
  | succ n ih =>
    unfold upstreamsLoop at h
    split at h
    · cases h
    · obtain ⟨t, -, hof, hsame, -, hanswer⟩ :=
        askUpstream_trial w (env i) (upstreams[i % upstreams.length]?.getD [])
      rcases hask : askUpstream w (env i) (upstreams[i % upstreams.length]?.getD []) with
        ⟨w', err | m', sent⟩
      · simp only [hask] at h hsame
        rw [← hsame.servfailTCPRetry]
        exact ih h
      · simp only [hask] at h hanswer
        obtain rfl : m' = m := Except.ok.inj h
        exact ⟨i, t.upstream, hof.delivers hanswer.symm⟩

theorem forwardWithUpstreams_delivers {upstreams : List GoString}
    (h : (forwardWithUpstreams env w upstreams).2.1 = .ok m) :
    ∃ i upstream, (env i).Delivers w.fwd.servfailTCPRetry upstream m := by
  unfold forwardWithUpstreams at h
  split at h
  · cases h
  · exact upstreamsLoop_delivers h

end Calls

/-!
## Where queries are sent

`Forward` sends to upstreams of its forwarder only, and leaves their list as it is.
-/

def Sent.upstream : Sent → GoString
  | .udp upstream => upstream
  | .tcp upstream => upstream

def Confined (w w' : World) (sent : List Sent) : Prop :=
  w'.fwd.upstreams = w.fwd.upstreams ∧ ∀ s ∈ sent, s.upstream ∈ w.fwd.upstreams

theorem Trial.upstream_of_mem_sent {t : Trial} {s : Sent} (hs : s ∈ t.sent) :
    s.upstream = t.upstream := by
  rcases List.mem_append.mp hs with hs | hs
  · obtain ⟨-, -, rfl⟩ := by simpa using hs
    rfl
  · obtain ⟨-, -, rfl⟩ := by simpa using hs
    rfl

theorem forward_confined (env : Nat → Attempt) (w : World) :
    Confined w (forward env w).1 (forward env w).2.2 := by
  unfold forward
  split
  · exact ⟨rfl, nofun⟩
  · obtain ⟨trials, htried⟩ := forwardLoop_tried env w.fwd.attempts 0 w none
    refine ⟨htried.upstreams, ?_⟩
    intro s hs
    rw [htried.sent] at hs
    obtain ⟨t, ht, hst⟩ := List.mem_flatMap.mp hs
    obtain ⟨k, hget⟩ := List.getElem?_of_mem ht
    rw [Trial.upstream_of_mem_sent hst]
    exact (htried.made k t hget).1

end GloryHole.Forwarder
