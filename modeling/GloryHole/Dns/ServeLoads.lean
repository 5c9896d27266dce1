import GloryHole.Dns.Deps
import GloryHole.Dns.Msg
import GloryHole.Policy.Engine
import GloryHole.Support.SharedReads

/-!
# The loads of a query

`ServeDNS` once more, as the loads of the dependencies it makes and the components it uses,
step by step: setters of other goroutines run between any two of the steps.  What the
components answer to the query is a parameter.  The logger is left out; it is loaded into a
variable and checked for nil wherever it is used.
-/

namespace GloryHole.Dns

open Go Policy Support

def HandlerDeps.pointer (d : HandlerDeps) : DepField → Option Pointer
  | .storage => d .storage
  | .queryLogger => d .queryLogger
  | .blocklistManager => d .blocklistManager
  | .localRecords => d .localRecords
  | .policyEngine => d .policyEngine
  | .fwd => d .fwd
  | .cache => d .cache
  | .configWatcher => d .configWatcher
  | .killSwitch => d .killSwitch
  | .unboundBuffer => d .unboundBuffer
  | .metrics => d .metrics
  | .logger => d .logger
  | .decisionTrace | .blockPageIP => none

inductive RecordLookup where
  | lookupA
  | lookupAAAA
  | lookupCNAME
  | lookupTXT
  | lookupMX
  | lookupPTR
  | lookupSRV
  | lookupNS
  | lookupSOA
  | lookupCAA
  | resolveCNAME
  deriving DecidableEq

/-- What the components answer to the query: whether the local records have something to send, the
switches, the rules and the one that matches, whether the domain is blocked, whether the cache has
an answer, and whether the forwarder gets one. -/
structure Components where
  lookup : Pointer → RecordLookup → Bool
  enablePolicies : Pointer → Bool
  enableBlocklist : Pointer → Bool
  isPoliciesDisabled : Pointer → Bool
  isBlocklistDisabled : Pointer → Bool
  count : Pointer → Nat
  evaluate : Pointer → Option Rule
  blocked : Pointer → Bool
  legacyBlocked : Bool
  getWithTrace : Pointer → Bool
  forward : Pointer → Bool
  forwardWithUpstreams : Pointer → List GoString → Bool

inductive Answer where
  | formatError
  | localRecords
  | blocked (blockPageIP : GoString)
  | redirected
  | cached
  | upstream
  | serverFailure
  | nameError
  deriving DecidableEq

/-- A part of `ServeDNS`; a use is the field and the component that was taken from it. -/
abbrev Serving := SharedReads.Prog HandlerDeps (DepField × Pointer)

namespace Serving

/-! ## Getters -/

def get (f : DepField) : Serving (Option Pointer) := SharedReads.read fun d => d.pointer f

def getBlockPageIP : Serving GoString := SharedReads.read fun d => d .blockPageIP

def deref (f : DepField) : Option Pointer → Serving Pointer
  | none => .crash
  | some p => .use (f, p) (.done p)

/-- `if x := h.getX(); x != nil`, and a method call on `x`. -/
def ifPresent (f : DepField) : Serving Unit := do
  match ← get f with
  | none => pure ()
  | some p =>
    let _ ← deref f (some p)
    pure ()

def recordBlockedQuery : Serving Unit := ifPresent .metrics
def recordForwardedQuery : Serving Unit := ifPresent .metrics
def enrichFromUnbound : Serving Unit := ifPresent .unboundBuffer

def storeAnswer : Serving Unit := ifPresent .cache

/-! ## Stages -/

def localLookups (qtype : UInt16) : List RecordLookup :=
  if qtype = typeA then [.lookupA, .resolveCNAME]
  else if qtype = typeAAAA then [.lookupAAAA, .resolveCNAME]
  else if qtype = 5 then [.lookupCNAME]
  else if qtype = 16 then [.lookupTXT]
  else if qtype = 15 then [.lookupMX]
  else if qtype = 12 then [.lookupPTR]
  else if qtype = 33 then [.lookupSRV]
  else if qtype = 2 then [.lookupNS]
  else if qtype = 6 then [.lookupSOA]
  else if qtype = 257 then [.lookupCAA]
  else []

-- Every lookup loads the manager again.
def tryLookups (c : Components) : List RecordLookup → Serving (Option Answer)
  | [] => pure none
  | l :: ls => do
      let lr ← deref .localRecords (← get .localRecords)
      if c.lookup lr l then pure (some .localRecords) else tryLookups c ls

def serveFromLocalRecords (c : Components) (qtype : UInt16) : Serving (Option Answer) := do
  match ← get .localRecords with
  | none => pure none
  | some _ => tryLookups c (localLookups qtype)

def resolveFeatureToggles (c : Components) : Serving (Bool × Bool) := do
  match ← get .configWatcher with
  | none => pure (true, true)
  | some p =>
    let cw ← deref .configWatcher (some p)
    pure (c.enablePolicies cw, c.enableBlocklist cw)

def applyKillSwitch (c : Components) (d : HandlerDeps) (toggles : Bool × Bool) :
    Serving (Bool × Bool) :=
  match d.pointer .killSwitch with
  | none => pure toggles
  | some p => do
      let ks ← deref .killSwitch (some p)
      pure (toggles.1 && !c.isPoliciesDisabled ks, toggles.2 && !c.isBlocklistDisabled ks)

/-- The end of the three ways to an upstream, from the call of the forwarder on. -/
def sendUpstream (fwd : Pointer) (forwarded : Pointer → Bool) : Serving (Option Answer) := do
  let fwd ← deref .fwd (some fwd)
  if forwarded fwd then
    recordForwardedQuery
    enrichFromUnbound
    storeAnswer
    pure (some .upstream)
  else pure (some .serverFailure)

def handlePolicyBlock : Serving (Option Answer) := do
  let ip ← getBlockPageIP
  recordBlockedQuery
  pure (some (.blocked ip))

def handlePolicyAllow (c : Components) : Serving (Option Answer) := do
  match ← get .fwd with
  | none => pure (some .nameError)
  | some fwd => sendUpstream fwd c.forward

def handlePolicyForward (c : Components) (rule : Rule) : Serving (Option Answer) := do
  match ← get .fwd with
  | none => pure (some .serverFailure)
  | some fwd =>
    if rule.getUpstreams = [] then pure (some .serverFailure)
    else sendUpstream fwd fun p => c.forwardWithUpstreams p rule.getUpstreams

/-- `handlePolicies` loads the engine again and does not check it. -/
def handlePolicies (c : Components) : Serving (Option Answer) := do
  let pe ← deref .policyEngine (← get .policyEngine)
  match c.evaluate pe with
  | none => pure none
  | some rule =>
    match rule.action with
    | .actionBlock => handlePolicyBlock
    | .actionAllow => handlePolicyAllow c
    | .actionRedirect => pure (some .redirected)
    | .actionForward => handlePolicyForward c rule

/-- The policy stage of `ServeDNS`: the engine of the snapshot is asked for its rules. -/
def policyStage (c : Components) (d : HandlerDeps) (enablePolicies : Bool) :
    Serving (Option Answer) :=
  match enablePolicies, d.pointer .policyEngine with
  | true, some p => do
      let pe ← deref .policyEngine (some p)
      if c.count pe > 0 then handlePolicies c else pure none
  | _, _ => pure none

def handleBlockedDomain : Serving (Option Answer) := do
  let ip ← getBlockPageIP
  recordBlockedQuery
  storeAnswer
  pure (some (.blocked ip))

-- The manager is loaded again, after the check of its caller.
def handleFastBlocklistPath (c : Components) : Serving (Option Answer) := do
  let m ← deref .blocklistManager (← get .blocklistManager)
  if c.blocked m then handleBlockedDomain else pure none

def handleLegacyBlocklistPath (c : Components) : Serving (Option Answer) :=
  if c.legacyBlocked then do
    recordBlockedQuery
    let ip ← getBlockPageIP
    storeAnswer
    pure (some (.blocked ip))
  else pure none

def handleBlocklistAndOverrides (c : Components) : Serving (Option Answer) := do
  match ← get .blocklistManager with
  | some _ => handleFastBlocklistPath c
  | none => handleLegacyBlocklistPath c

def serveFromCache (c : Components) : Serving (Option Answer) := do
  match ← get .cache with
  | none => pure none
  | some p =>
    let cache ← deref .cache (some p)
    if c.getWithTrace cache then pure (some .cached) else pure none

def forwardToUpstream (c : Components) : Serving (Option Answer) := do
  match ← get .fwd with
  | none => pure none
  | some fwd => sendUpstream fwd c.forward

/-! ## ServeDNS -/

def orNext (stage : Serving (Option Answer)) (next : Serving Answer) : Serving Answer := do
  match ← stage with
  | some answer => pure answer
  | none => next

def serveRemote (c : Components) (d : HandlerDeps) : Serving Answer := do
  let toggles ← resolveFeatureToggles c
  let (enablePolicies, enableBlocklist) ← applyKillSwitch c d toggles
  orNext (policyStage c d enablePolicies) <|
    orNext (if enableBlocklist then handleBlocklistAndOverrides c else pure none) <|
      orNext (serveFromCache c) <|
        orNext (forwardToUpstream c) (pure .nameError)

def asyncLogQuery : Serving Unit := do
  let ql ← get .queryLogger
  let st ← get .storage
  match ql, st with
  | some ql, _ =>
    let _ ← deref .queryLogger (some ql)
    pure ()
  | none, some st =>
    let _ ← deref .storage (some st)
    pure ()
  | none, none => pure ()

def answerFrom (c : Components) (r : Msg) (d : HandlerDeps) : Serving Answer :=
  match r.question with
  | [] => pure .formatError
  | q :: _ =>
    match d.pointer .localRecords with
    | none => serveRemote c d
    | some _ => orNext (serveFromLocalRecords c q.qtype) (serveRemote c d)

def serveFrom (c : Components) (r : Msg) (d : HandlerDeps) : Serving Answer := do
  let answer ← answerFrom c r d
  asyncLogQuery
  pure answer

def serveDNS (c : Components) (r : Msg) : Serving Answer := do
  let d ← SharedReads.read id
  serveFrom c r d

end Serving

/-! ## Queries under setters -/

abbrev Serve := SharedReads.State HandlerDeps (DepField × Pointer) Answer

abbrev ServeStep := SharedReads.Step HandlerDeps

def Serve.step : Serve → ServeStep → Serve := SharedReads.step

def Serve.begin (c : Components) (r : Msg) (deps : HandlerDeps) : Serve :=
  Serve.step { record := deps, prog := Serving.serveDNS c r, used := [] } .advance

end GloryHole.Dns
