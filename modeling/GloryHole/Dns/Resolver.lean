import GloryHole.Dns.Serve
import GloryHole.Forwarder.Upstreams

/-!
# The handler and its forwarder

The machine of the handler, with the forwarder in the place of an answer out of nowhere: a query
that waits for its upstreams gets what `Forward` or `ForwardWithUpstreams` returns, and that
depends on what the upstreams do in each attempt.
-/

namespace GloryHole.Dns

open Go Support.Runs
open Forwarder (Attempt World newForwarder)

structure Resolver where
  server : Server
  fwd : Forwarder.Forwarder

def ask (env : Nat → Attempt) (w : World) : Route → World × Option Msg
  | .default =>
    let (w, result, _) := Forwarder.forward env w
    (w, result.toOption)
  | .upstreams servers =>
    let (w, result, _) := Forwarder.forwardWithUpstreams env w servers
    (w, result.toOption)

inductive ResolverEvent where
  | arrive (id : Nat) (query : Query)
  | lookup (id : Nat) (order : List GoString)
  | forward (id : Nat) (env : Nat → Attempt) (order : List GoString)
  | pass (d : Nat)
  | cleanup
  | clear
  | reconfigure (deps : Deps) (fwd : Forwarder.Forwarder)

namespace Resolver

def forward (s : Resolver) (id : Nat) (env : Nat → Attempt) (order : List GoString) : Resolver :=
  match s.server.pending id with
  | some ⟨_, _, _, .forwarding route⟩ =>
    let (w, resp) := ask env ⟨s.fwd, s.server.now⟩ route
    { server := Dns.step { s.server with now := w.now } (.reply id resp order), fwd := w.fwd }
  | _ => s

def step (s : Resolver) : ResolverEvent → Resolver
  | .arrive id query => { s with server := Dns.step s.server (.arrive id query) }
  | .lookup id order => { s with server := Dns.step s.server (.lookup id order) }
  | .forward id env order => s.forward id env order
  | .pass d => { s with server := Dns.step s.server (.pass d) }
  | .cleanup => { s with server := Dns.step s.server .cleanup }
  | .clear => { s with server := Dns.step s.server .clear }
  | .reconfigure deps fwd =>
    { server := Dns.step s.server (.reconfigure deps), fwd := fwd }

def boot (libs : Libraries) (deps : Deps) (cfg : GloryHole.Config.Config)
    (cache : Option GloryHole.Config.CacheConfig) (now : Int) : Resolver where
  server := Dns.boot libs deps cache now
  fwd := newForwarder cfg now

end Resolver

/-- The forwarder's answer is one that an upstream delivered. -/
theorem ask_delivers {env : Nat → Attempt} {w : World} {route : Route} {m : Msg}
    (h : (ask env w route).2 = some m) :
    ∃ i upstream, (env i).Delivers w.fwd.servfailTCPRetry upstream m := by
  cases route with
  | default =>
    apply @Forwarder.forward_delivers env w
    cases hresult : (Forwarder.forward env w).2.1 with
    | error err => simp [ask, hresult, Except.toOption] at h
    | ok m' => simpa [ask, hresult, Except.toOption] using h
  | upstreams servers =>
    apply @Forwarder.forwardWithUpstreams_delivers env w _ servers
    cases hresult : (Forwarder.forwardWithUpstreams env w servers).2.1 with
    | error err => simp [ask, hresult, Except.toOption] at h
    | ok m' => simpa [ask, hresult, Except.toOption] using h

end GloryHole.Dns
