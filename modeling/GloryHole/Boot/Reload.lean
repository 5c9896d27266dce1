import GloryHole.Boot.Config
import GloryHole.Forwarder.Forward

/-!
# The callback and the forwarder

What the callback for a changed configuration does to the forwarder of the handler and to the
managed Unbound, over the variables that it shares with `main`.  Default queries are forwarded in
between, so a run is a list of reloads, queries and advances of the clock.
-/

namespace GloryHole.Boot

open Go
open Config (Config UnboundConfig)
open Forwarder (Forwarder newForwarder forward Attempt Sent)

def equalUnboundConfig (a b : UnboundConfig) : Bool :=
  a.enabled == b.enabled && a.managed == b.managed && a.listenPort == b.listenPort &&
    a.binaryPath == b.binaryPath && a.configPath == b.configPath &&
    a.controlSocket == b.controlSocket

/-- `cfg` and `unboundSupervisor` of `main`, the latter as the address it listens on, and the
forwarder that is installed in the handler. -/
structure Running where
  config : Config
  supervisor : Option GoString
  forwarder : Option Forwarder
  now : Int

/-- `main` once the servers are made: `NewServer` installs a forwarder if there are upstreams. -/
def Process.serve {δ : Type} (starts : Bool) (now : Int) (p : Process δ) : Running where
  config := p.config
  supervisor :=
    if p.config.unbound.enabled && p.config.unbound.managed && starts then
      some (unboundAddr p.config)
    else none
  forwarder :=
    if p.config.upstreamDNSServers = [] then none else some (newForwarder p.config now)
  now := now

namespace Running

def setForwarder (r : Running) (cfg : Config) : Running :=
  { r with forwarder := some (newForwarder cfg r.now) }

def changeUpstreams (r : Running) (newCfg : Config) : Running :=
  if r.config.upstreamDNSServers = newCfg.upstreamDNSServers then r else r.setForwarder newCfg

/-- The Unbound part of the callback, up to `cfg = newCfg`; `starts` says if an Unbound that is
started here comes up. -/
def changeUnbound (r : Running) (newCfg : Config) (starts : Bool) : Running :=
  if equalUnboundConfig r.config.unbound newCfg.unbound then { r with config := newCfg }
  else if ¬ r.config.unbound.enabled ∧ newCfg.unbound.enabled ∧ newCfg.unbound.managed then
    if starts then
      let newCfg := { newCfg with upstreamDNSServers := [unboundAddr newCfg] }
      { r.setForwarder newCfg with config := newCfg, supervisor := some (unboundAddr newCfg) }
    else { r with config := newCfg }
  else if r.config.unbound.enabled ∧ ¬ newCfg.unbound.enabled then
    { r.setForwarder newCfg with config := newCfg, supervisor := none }
  -- a changed port is only logged
  else { r with config := newCfg }

def onChange (r : Running) (newCfg : Config) (starts : Bool) : Running :=
  (r.changeUpstreams newCfg).changeUnbound newCfg starts

def sent (r : Running) (env : Nat → Attempt) : List Sent :=
  match r.forwarder with
  | none => []
  | some f => (forward env ⟨f, r.now⟩).2.2

def query (r : Running) (env : Nat → Attempt) : Running :=
  match r.forwarder with
  | none => r
  | some f =>
    let w := (forward env ⟨f, r.now⟩).1
    { r with forwarder := some w.fwd, now := w.now }

inductive Step where
  | reload (newCfg : Config) (starts : Bool)
  | query (env : Nat → Attempt)
  | advance (d : Nat)

def step (r : Running) : Step → Running
  | .reload newCfg starts => r.onChange newCfg starts
  | .query env => r.query env
  | .advance d => { r with now := r.now + d }

end Running

end GloryHole.Boot
