import GloryHole.Dns.Msg
import GloryHole.Forwarder.CircuitBreaker
import GloryHole.Go.Net

/-!
# Forwarding a query to the default upstreams

`Forwarder.forward` is `Forward`: up to `retries` attempts, each with the next healthy upstream,
the UDP exchange inside that upstream's breaker and one TCP retry.  What the network does in an
attempt is an `Attempt` value.
-/

set_option linter.dupNamespace false

namespace GloryHole.Forwarder

open Go Dns
open Config (Config CircuitBreakerConfig)

structure Forwarder where
  upstreams : List GoString
  health : Option UpstreamHealth
  retries : Int
  index : UInt32
  servfailTCPRetry : Bool

def isLocalUpstream (addr : GoString) : Bool :=
  match splitHostPort addr with
  | none => false
  | some (host, _) =>
    match parseIP host with
    | none => false
    | some ip => isLoopback ip

def normalizeUpstream (upstream : GoString) : GoString :=
  match splitHostPort upstream with
  | none => joinHostPort upstream (lit "53")
  | some _ => upstream

/-- The breaker settings `NewForwarder` works with: defaults for zero values, and
no breaker at all for a single local upstream (the managed resolver). -/
def breakerSettings (cb : CircuitBreakerConfig) (upstreams : List GoString) :
    CircuitBreakerConfig where
  enabled :=
    match upstreams with
    | [only] => cb.enabled && !isLocalUpstream only
    | _ => cb.enabled
  failureThreshold := if cb.failureThreshold = 0 then 5 else cb.failureThreshold
  successThreshold := if cb.successThreshold = 0 then 2 else cb.successThreshold
  timeoutSeconds := if cb.timeoutSeconds = 0 then 30 else cb.timeoutSeconds

def newForwarder (cfg : Config) (now : Int) : Forwarder :=
  let rawUpstreams :=
    if cfg.upstreamDNSServers = [] then [lit "1.1.1.1:53", lit "8.8.8.8:53"]
    else cfg.upstreamDNSServers
  let upstreams := rawUpstreams.map normalizeUpstream
  let cb := breakerSettings cfg.forwarder.circuitBreaker upstreams
  { upstreams := upstreams
    health := if cb.enabled then some (newUpstreamHealth upstreams cb now) else none
    retries := 2
    index := 0
    servfailTCPRetry := cfg.forwarder.servfailTCPRetryEnabled }

inductive Exchange where
  | failed (err : String)
  | nilResp
  | resp (m : Msg)

/-- What the environment does in one attempt: the state of the request's context
on entry, and the outcome and duration of either exchange, per upstream. -/
structure Attempt where
  cancelled : Option String
  udp : GoString → Exchange
  took : Nat
  tcp : GoString → Exchange
  tcpTook : Nat

inductive Sent where
  | udp (upstream : GoString)
  | tcp (upstream : GoString)
  deriving DecidableEq

inductive AttemptError where
  | circuitOpen
  | exchange (err : String)
  | nilResponse (upstream : GoString)
  deriving DecidableEq

inductive ForwardError where
  | noneConfigured
  | cancelled (err : String)
  | noHealthyUpstreams
  | noUpstreamsAvailable
  | allFailed (last : Option AttemptError)
  deriving DecidableEq

structure World where
  fwd : Forwarder
  now : Int

namespace Forwarder

def candidates (f : Forwarder) : List GoString :=
  match f.health with
  | none => f.upstreams
  | some uh => uh.getHealthyUpstreams f.upstreams

def selectUpstream (f : Forwarder) : Forwarder × Except ForwardError GoString :=
  let upstreams := f.candidates
  if f.health.isSome ∧ upstreams = [] then (f, .error .noHealthyUpstreams)
  else
    let upstreamCount := UInt32.ofNat upstreams.length
    if upstreamCount = 0 then (f, .error .noUpstreamsAvailable)
    else
      let index := f.index + 1
      match upstreams[(index % upstreamCount).toNat]? with
      | none => (f, .error .noUpstreamsAvailable)
      | some upstream => ({ f with index := index }, .ok upstream)

def getBreaker (f : Forwarder) (upstream : GoString) : Option CircuitBreaker :=
  match f.health with
  | none => none
  | some uh => uh.breakers upstream

def setBreaker (f : Forwarder) (upstream : GoString) (breaker : CircuitBreaker) :
    Forwarder :=
  { f with health := f.health.map fun uh => uh.setBreaker upstream breaker }

end Forwarder

def Exchange.toResult : Exchange → Except AttemptError (Option Msg)
  | .failed err => .error (.exchange err)
  | .nilResp => .ok none
  | .resp m => .ok (some m)

def Exchange.isFailed : Exchange → Bool
  | .failed _ => true
  | _ => false

/-- The UDP exchange of an attempt, inside the upstream's breaker if it has one. -/
def exchangeUDP (w : World) (a : Attempt) (upstream : GoString) :
    World × Except AttemptError (Option Msg) × List Sent :=
  let done := w.now + a.took
  let result := (a.udp upstream).toResult
  match w.fwd.getBreaker upstream with
  | none => ({ w with now := done }, result, [.udp upstream])
  | some breaker =>
    match breaker.call w.now done (a.udp upstream).isFailed with
    | (breaker', none) =>
      ({ w with fwd := w.fwd.setBreaker upstream breaker' }, .error .circuitOpen, [])
    | (breaker', some _) =>
      ({ fwd := w.fwd.setBreaker upstream breaker', now := done }, result,
        [.udp upstream])

/-- `retryOverTCP`: a usable answer is one that is not SERVFAIL again. -/
def retryOverTCP (a : Attempt) (upstream : GoString) : Option Msg :=
  match a.tcp upstream with
  | .resp m => if m.rcode = rcodeServerFailure then none else some m
  | _ => none

def recordFailure (w : World) (upstream : GoString) : World :=
  { w with
    fwd := { w.fwd with
      health := w.fwd.health.map fun uh => uh.recordResult upstream true w.now } }

inductive Verdict where
  | done (result : Except ForwardError Msg)
  | next (err : AttemptError)

/-- The rest of an attempt once its upstream is chosen. -/
def attemptChosen (w : World) (a : Attempt) (upstream : GoString) :
    World × Verdict × List Sent :=
  match exchangeUDP w a upstream with
  | (w, .error err, sent) =>
    if w.fwd.servfailTCPRetry then
      let w := { w with now := w.now + a.tcpTook }
      match retryOverTCP a upstream with
      | some m => (w, .done (.ok m), sent ++ [Sent.tcp upstream])
      | none => (w, .next err, sent ++ [Sent.tcp upstream])
    else (w, .next err, sent)
  | (w, .ok none, sent) => (recordFailure w upstream, .next (.nilResponse upstream), sent)
  | (w, .ok (some m), sent) =>
    if m.rcode = rcodeServerFailure ∧ w.fwd.servfailTCPRetry then
      let w := { w with now := w.now + a.tcpTook }
      (w, .done (.ok ((retryOverTCP a upstream).getD m)), sent ++ [Sent.tcp upstream])
    else (w, .done (.ok m), sent)

def attempt (w : World) (a : Attempt) : World × Verdict × List Sent :=
  match a.cancelled with
  | some err => (w, .done (.error (.cancelled err)), [])
  | none =>
    match w.fwd.selectUpstream with
    | (fwd, .error err) => ({ w with fwd := fwd }, .done (.error err), [])
    | (fwd, .ok upstream) => attemptChosen { w with fwd := fwd } a upstream

/-- The loop of `Forward`: `n` attempts are left and `i` have been made. -/
def forwardLoop (env : Nat → Attempt) :
    Nat → Nat → World → Option AttemptError → World × Except ForwardError Msg × List Sent
  | 0, _, w, lastErr => (w, .error (.allFailed lastErr), [])
  | n + 1, i, w, _ =>
    match attempt w (env i) with
    | (w, .done result, sent) => (w, result, sent)
    | (w, .next err, sent) =>
      let (w, result, sent') := forwardLoop env n (i + 1) w (some err)
      (w, result, sent ++ sent')

def Forwarder.attempts (f : Forwarder) : Nat := (min f.retries f.upstreams.length).toNat

def forward (env : Nat → Attempt) (w : World) :
    World × Except ForwardError Msg × List Sent :=
  if w.fwd.upstreams = [] then (w, .error .noneConfigured, [])
  else forwardLoop env w.fwd.attempts 0 w none

end GloryHole.Forwarder
