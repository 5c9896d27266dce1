import GloryHole.Api.Features
import GloryHole.Dns.Handler

/-!
# Switching the blocklist off

The handler, its cache and the API server as `main` wires them, with what switches the blocklist:
the temporary kill-switch, the switch of the configuration, and the clearing of the cache.
`ServeDNS` is cut where it reads or writes what it shares with the API: it reads the two switches
once, one after the other, and stores a blocked answer after it has asked the blocklist.

`offSwitch` and `offFeatures` record that a request to switch the blocklist off has returned and
that it has stayed off since; nothing reads them.
-/

namespace GloryHole.Dns.Blocking

open Go Policy
open Api (ConfigState FeaturesRequest)
open Config (Config CacheConfig Env Yaml clone save)

/-! ## Queries and requests in flight -/

structure Toggles where
  enablePolicies : Bool
  enableBlocklist : Bool
  deriving DecidableEq

/-- How far a query has come: nothing is read yet; the configuration is; the kill-switches are,
too; the policies have let it pass; the blocklist has matched and the answer has still to be
stored; the blocklist is behind it; it waits for an upstream. -/
inductive Phase where
  | arrived
  | configRead (t : Toggles)
  | toggled (t : Toggles)
  | evaluated (enableBlocklist : Bool)
  | blocked (msg : Msg)
  | unblocked
  | forwarding (route : Route)
  deriving DecidableEq

/-- A query in flight; `startedOff` records that it started while the blocklist was off. -/
structure Flight where
  query : Query
  context : Context
  rule : Option Rule
  phase : Phase
  startedOff : Bool
  deriving DecidableEq

structure Answered where
  served : Served
  startedOff : Bool
  deriving DecidableEq

/-- A request in flight.  `toggled` is the variable `blocklistToggled` of
`handleUpdateFeatures`, `disables` that the request is for the switch to be off. -/
inductive Request where
  | disable
  | cloned (cfg : Config) (toggled disables : Bool)
  | saved (toggled disables : Bool)
  | reloaded (toggled disables : Bool)
  deriving DecidableEq

/-- `apiShares` says that the cache of the API server is the handler's; otherwise it is nil or
one the handler no longer has. -/
structure Site (δ : Type) where
  libs : Libraries
  deps : Deps
  config : ConfigState δ
  blocklistDisabledUntil : Option Int
  policiesDisabledUntil : Option Int
  cache : Option (Cache.Interface Source)
  apiShares : Bool
  now : Int
  flights : Nat → Option Flight
  requests : Nat → Option Request
  offSwitch : Bool
  offFeatures : Bool
  answered : List Answered

def Toggles.apply (t : Toggles) (deps : Deps) : Deps :=
  { deps with
    enablePolicies := t.enablePolicies
    policiesDisabled := false
    enableBlocklist := t.enableBlocklist
    blocklistDisabled := false }

def before (now : Int) : Option Int → Bool
  | none => false
  | some until_ => now < until_

namespace Site

variable {δ : Type}

def off (s : Site δ) : Bool := s.offSwitch || s.offFeatures

def isBlocklistDisabled (s : Site δ) : Bool := before s.now s.blocklistDisabledUntil

def isPoliciesDisabled (s : Site δ) : Bool := before s.now s.policiesDisabledUntil

def setFlight (s : Site δ) (id : Nat) (f : Option Flight) : Site δ :=
  { s with flights := Function.update s.flights id f }

def setRequest (s : Site δ) (id : Nat) (r : Option Request) : Site δ :=
  { s with requests := Function.update s.requests id r }

def answer (s : Site δ) (f : Flight) (msg : Msg) (source : Source) (cached : Bool) : Site δ :=
  { s with
    answered := s.answered ++ [⟨⟨f.query, f.context, f.rule, msg, source, cached⟩, f.startedOff⟩] }

def updateCache (s : Site δ) (f : Cache.Interface Source → Cache.Interface Source) : Site δ :=
  { s with cache := s.cache.map f }

def clearShared (s : Site δ) : Site δ := if s.apiShares then s.updateCache (·.clear) else s

/-! ## `ServeDNS` -/

def arrive (s : Site δ) (id : Nat) (query : Query) : Site δ :=
  let r := query.request
  let msg := baseReply r
  match r.question with
  | [] =>
    let ctx := newContext s.libs query ⟨[], 0, 0⟩
    s.answer ⟨query, ctx, none, .arrived, s.off⟩ (setRcode msg r rcodeFormatError) .handler false
  | q :: _ =>
    let f : Flight := ⟨query, newContext s.libs query q, none, .arrived, s.off⟩
    match s.deps.localRecords q.name q.qtype with
    | some records =>
      s.answer f { msg with answer := msg.answer ++ records } .handler false
    | none => s.setFlight id (some f)

def resolveFeatureToggles (s : Site δ) : Toggles :=
  ⟨s.config.config.server.enablePolicies, s.config.config.server.enableBlocklist⟩

def withKillSwitches (s : Site δ) (t : Toggles) : Toggles :=
  ⟨t.enablePolicies && !s.isPoliciesDisabled, t.enableBlocklist && !s.isBlocklistDisabled⟩

def evaluate (s : Site δ) (id : Nat) (f : Flight) (t : Toggles) : Site δ :=
  let r := f.query.request
  let msg := baseReply r
  let q := r.question.headD ⟨[], 0, 0⟩
  match matchedRule s.libs (t.apply s.deps) f.context with
  | none => s.setFlight id (some { f with phase := .evaluated t.enableBlocklist })
  | some rule =>
    let f := { f with rule := some rule }
    match handlePolicies s.deps rule r msg q with
    | .answer msg => (s.setFlight id none).answer f msg .handler false
    | .forward route => s.setFlight id (some { f with phase := .forwarding route })
    | .goOn => s.setFlight id (some { f with phase := .evaluated t.enableBlocklist })

/-- `handleBlocklistAndOverrides` up to the store. -/
def checkBlocklist (s : Site δ) (id : Nat) (f : Flight) (enableBlocklist : Bool) : Site δ :=
  let r := f.query.request
  let q := r.question.headD ⟨[], 0, 0⟩
  if isBlocked s.libs (Toggles.apply ⟨false, enableBlocklist⟩ s.deps) q.name then
    let msg := blockedReply s.deps.blockPageIP r (baseReply r) q
    s.setFlight id (some { f with phase := .blocked msg })
  else s.setFlight id (some { f with phase := .unblocked })

def store (s : Site δ) (id : Nat) (f : Flight) (msg : Msg) (order : List GoString) : Site δ :=
  let s := s.updateCache (·.setBlocked order s.now f.query.request msg .blocklist)
  (s.setFlight id none).answer f msg .blocklist false

/-- `serveFromCache`, then `forwardToUpstream` up to the call of the forwarder. -/
def lookup (s : Site δ) (id : Nat) (f : Flight) : Site δ :=
  let r := f.query.request
  let hit := s.cache.bind fun c => (c.getWithTrace r s.now).2
  let s := s.updateCache fun c => (c.getWithTrace r s.now).1
  match hit with
  | some (msg, source) =>
    (s.setFlight id none).answer f (handleEDNS0 r { msg with id := r.id }) source true
  | none =>
    if s.deps.hasForwarder then s.setFlight id (some { f with phase := .forwarding .default })
    else (s.setFlight id none).answer f (setRcode (baseReply r) r rcodeNameError) .handler false

def reply (s : Site δ) (id : Nat) (f : Flight) (route : Route) (resp : Option Msg)
    (order : List GoString) : Site δ :=
  let r := f.query.request
  match resp with
  | none =>
    (s.setFlight id none).answer f (setRcode (baseReply r) r rcodeServerFailure) .handler false
  | some resp =>
    let source := Source.upstream ⟨f.query.client, f.rule, route⟩
    let s := s.updateCache (·.set order s.now r resp source)
    (s.setFlight id none).answer f resp source false

/-- The next part of a query.  `resp` is what an upstream answers, `order` how an eviction meets
the keys. -/
def advance (s : Site δ) (id : Nat) (resp : Option Msg) (order : List GoString) : Site δ :=
  match s.flights id with
  | none => s
  | some f =>
    match f.phase with
    | .arrived => s.setFlight id (some { f with phase := .configRead s.resolveFeatureToggles })
    | .configRead t => s.setFlight id (some { f with phase := .toggled (s.withKillSwitches t) })
    | .toggled t => s.evaluate id f t
    | .evaluated enableBlocklist => s.checkBlocklist id f enableBlocklist
    | .blocked msg => s.store id f msg order
    | .unblocked => s.lookup id f
    | .forwarding route => s.reply id f route resp order

/-! ## The kill-switch -/

/-- The duration of a request to disable; one that is out of range is refused. -/
def disableDuration (duration : Int) : Option Int :=
  if duration < 0 ∨ duration > 86400 then none
  else if duration = 0 then some (365 * 24 * Config.hour)
  else some (duration * Config.second)

/-- `handleDisableBlocklist` up to the clearing of the cache. -/
def disable (s : Site δ) (id : Nat) (duration : Int) : Site δ :=
  match disableDuration duration with
  | none => s
  | some d =>
    ({ s with blocklistDisabledUntil := some (s.now + d) } : Site δ).setRequest id (some .disable)

def enable (s : Site δ) : Site δ :=
  { s with blocklistDisabledUntil := none, offSwitch := false }

def pass (s : Site δ) (d : Nat) : Site δ :=
  let s := { s with now := s.now + d }
  { s with offSwitch := s.offSwitch && s.isBlocklistDisabled }

/-! ## The configuration -/

def setConfig (s : Site δ) (config : ConfigState δ) : Site δ :=
  { s with
    config := config
    offFeatures := s.offFeatures && !config.config.server.enableBlocklist }

variable (hash : GoString → Option GoString) (yaml : Yaml δ) (env : Env)

def features (s : Site δ) (id : Nat) (req : FeaturesRequest) : Site δ :=
  match clone hash yaml s.config.config with
  | .error _ => s
  | .ok cfg =>
    if req.blocklistEnabled = none ∧ req.policiesEnabled = none then s
    else
      let toggled := req.blocklistEnabled = some (!cfg.server.enableBlocklist)
      let disables := req.blocklistEnabled = some false
      s.setRequest id (some (.cloned (req.apply cfg) toggled disables))

/-- The next part of a request: the save, the reload, and at last the clearing of the cache and
the answer. -/
def proceed (s : Site δ) (id : Nat) : Site δ :=
  match s.requests id with
  | none => s
  | some .disable => { s.clearShared.setRequest id none with offSwitch := true }
  | some (.cloned cfg toggled disables) =>
    match save yaml cfg with
    | .error _ => s.setRequest id none
    | .ok file =>
      ({ s with config := { s.config with file := file } } : Site δ).setRequest id
        (some (.saved toggled disables))
  | some (.saved toggled disables) =>
    (s.setConfig (s.config.reload hash yaml env)).setRequest id
      (some (.reloaded toggled disables))
  | some (.reloaded toggled disables) =>
    let s := if toggled then s.clearShared else s
    { s.setRequest id none with offFeatures := s.offFeatures || disables }

end Site

/-! ## Runs -/

/-- What can happen next.  The configuration file can be edited and loaded at any time;
`reconfigure` replaces what the handler answers from, a new blocklist included; the last four are
the parts of a change of the cache. -/
inductive Event (δ : Type) where
  | arrive (id : Nat) (query : Query)
  | advance (id : Nat) (resp : Option Msg) (order : List GoString)
  | disable (id : Nat) (duration : Int)
  | enable
  | policies (disabledUntil : Option Int)
  | features (id : Nat) (req : FeaturesRequest)
  | proceed (id : Nat)
  | edit (file : δ)
  | reload
  | reconfigure (deps : Deps)
  | cleanup
  | purge
  | pass (d : Nat)
  | handlerCacheOff
  | handlerCacheNew (cfg : CacheConfig)
  | apiCacheOff
  | apiCacheShared

section

variable {δ : Type} (hash : GoString → Option GoString) (yaml : Yaml δ) (env : Env)

def step (s : Site δ) : Event δ → Site δ
  | .arrive id query => s.arrive id query
  | .advance id resp order => s.advance id resp order
  | .disable id duration => s.disable id duration
  | .enable => s.enable
  | .policies disabledUntil => { s with policiesDisabledUntil := disabledUntil }
  | .features id req => s.features hash yaml id req
  | .proceed id => s.proceed hash yaml env id
  | .edit file => { s with config := { s.config with file := file } }
  | .reload => s.setConfig (s.config.reload hash yaml env)
  | .reconfigure deps => { s with deps := deps }
  | .cleanup => s.updateCache (·.cleanup s.now)
  | .purge => s.clearShared
  | .pass d => s.pass d
  | .handlerCacheOff => { s with cache := none, apiShares := false }
  | .handlerCacheNew cfg => { s with cache := Cache.new cfg, apiShares := false }
  | .apiCacheOff => { s with apiShares := false }
  | .apiCacheShared => { s with apiShares := true }

/-- The site `main` builds: the cache is made by `NewServer` for the handler alone, and the API
server is given a nil one. -/
def boot (libs : Libraries) (deps : Deps) (config : ConfigState δ) (now : Int) : Site δ where
  libs := libs
  deps := deps
  config := config
  blocklistDisabledUntil := none
  policiesDisabledUntil := none
  cache := if config.config.cache.enabled then Cache.new config.config.cache else none
  apiShares := false
  now := now
  flights _ := none
  requests _ := none
  offSwitch := false
  offFeatures := false
  answered := []

end

end GloryHole.Dns.Blocking
