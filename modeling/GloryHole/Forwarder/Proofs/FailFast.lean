import GloryHole.Forwarder.Upstreams

/-!
# What an attempt sends when the breaker rejects it

The error of a rejected call reaches the retry over TCP like the error of a failed exchange, so a
rejected attempt sends nothing exactly if that retry is switched off.  The world in which the call
is made is any, since other queries use the same breakers.
-/

namespace GloryHole.Forwarder

open Go Dns

section

variable {w : World} {a : Attempt} {upstream : GoString}

def Rejects (w : World) (a : Attempt) (upstream : GoString) : Prop :=
  (exchangeUDP w a upstream).2.1 = .error .circuitOpen

theorem Exchange.toResult_ne_circuitOpen (e : Exchange) : e.toResult ≠ .error .circuitOpen := by
  cases e <;> simp [Exchange.toResult]

/-- A rejected exchange sends nothing over UDP and leaves the settings alone. -/
theorem Rejects.exchange (h : Rejects w a upstream) :
    ∃ w', exchangeUDP w a upstream = (w', .error .circuitOpen, []) ∧
      w'.fwd.servfailTCPRetry = w.fwd.servfailTCPRetry := by
  unfold Rejects at h
  obtain ⟨w', hsame, hexchange⟩ := exchangeUDP_eq w a upstream
  by_cases hrejects : w.fwd.rejects w.now upstream
  · exact ⟨w', hexchange.trans (if_pos hrejects), hsame.servfailTCPRetry⟩
  · rw [hexchange, if_neg hrejects] at h
    exact absurd h (Exchange.toResult_ne_circuitOpen _)

theorem attemptChosen_sent (h : Rejects w a upstream) :
    (attemptChosen w a upstream).2.2 =
      if w.fwd.servfailTCPRetry then [Sent.tcp upstream] else [] := by
  obtain ⟨w', hexchange, hretry⟩ := h.exchange
  simp only [attemptChosen, hexchange, hretry]
  split
  · split <;> rfl
  · rfl

theorem askUpstream_sent (h : Rejects w a upstream) :
    (askUpstream w a upstream).2.2 =
      if w.fwd.servfailTCPRetry then [Sent.tcp upstream] else [] := by
  obtain ⟨w', hexchange, hretry⟩ := h.exchange
  simp only [askUpstream, hexchange, hretry]
  split
  · split <;> rfl
  · rfl

end

/-- An attempt of `Forward` or of `ForwardWithUpstreams` that the breaker rejects sends nothing
exactly if the retry over TCP is off. -/
theorem fail_fast_sends_nothing_iff (w : World) (a : Attempt) (upstream : GoString)
    (hrejects : Rejects w a upstream) :
    ((attemptChosen w a upstream).2.2 = [] ↔ w.fwd.servfailTCPRetry = false) ∧
      ((askUpstream w a upstream).2.2 = [] ↔ w.fwd.servfailTCPRetry = false) := by
  rw [attemptChosen_sent hrejects, askUpstream_sent hrejects]
  cases w.fwd.servfailTCPRetry <;> simp

def fragile (servfailTCPRetry : Option Bool) : Config.Config where
  upstreamDNSServers := [lit "9.9.9.9:53"]
  forwarder :=
    { circuitBreaker := { enabled := true, failureThreshold := 1 }
      servfailTCPRetry := servfailTCPRetry }

def silence : Attempt := ⟨none, fun _ => .failed "i/o timeout", 1, fun _ => .failed "refused", 1⟩

def afterSilence (servfailTCPRetry : Option Bool) : World :=
  (forwardWithUpstreams (fun _ => silence) ⟨newForwarder (fragile servfailTCPRetry) 0, 0⟩
    [lit "9.9.9.9:53"]).1

theorem fail_fast_sends_nothing_off :
    Rejects (afterSilence (some false)) silence (lit "9.9.9.9:53") ∧
      (askUpstream (afterSilence (some false)) silence (lit "9.9.9.9:53")).2.2 = [] := by
  have hrejects : Rejects (afterSilence (some false)) silence (lit "9.9.9.9:53") := by
    unfold Rejects
    decide +kernel
  exact ⟨hrejects, (fail_fast_sends_nothing_iff _ _ _ hrejects).2.mpr (by decide +kernel)⟩

def crowded (w : World) (upstream : GoString) : World :=
  let breaker := { newCircuitBreaker 1 2 0 0 with state := .stateHalfOpen, halfOpenReqs := 3 }
  { w with fwd := w.fwd.setBreaker upstream breaker }

/-- By default a rejected attempt sends the query over TCP: a second call for the upstream, and an
attempt of `Forward` when the half-open slots are taken. -/
theorem rejected_attempt_sends :
    (Rejects (afterSilence none) silence (lit "9.9.9.9:53") ∧
      (askUpstream (afterSilence none) silence (lit "9.9.9.9:53")).2.2 =
        [.tcp (lit "9.9.9.9:53")]) ∧
    (Rejects (crowded (afterSilence none) (lit "9.9.9.9:53")) silence (lit "9.9.9.9:53") ∧
      (attempt (crowded (afterSilence none) (lit "9.9.9.9:53")) silence).2.2 =
        [.tcp (lit "9.9.9.9:53")]) := by
  unfold Rejects
  decide +kernel

end GloryHole.Forwarder
