import GloryHole.Go.Strings
import GloryHole.Support.CloneSwap

/-!
# The handler's dependencies

`handlerDeps` and its setters.  A component is its identity, `none` for nil.  Every getter
is one load of the record; every setter clones the record, sets one field and stores the
clone.
-/

namespace GloryHole.Dns

open Go Support

inductive DepField where
  | storage
  | queryLogger
  | blocklistManager
  | localRecords
  | policyEngine
  | fwd
  | cache
  | configWatcher
  | killSwitch
  | decisionTrace
  | blockPageIP
  | unboundBuffer
  | metrics
  | logger
  deriving DecidableEq

abbrev Pointer := Nat

def DepField.Value : DepField → Type
  | .decisionTrace => Bool
  | .blockPageIP => GoString
  | _ => Option Pointer

abbrev HandlerDeps := (f : DepField) → f.Value

def newHandlerDeps : HandlerDeps
  | .decisionTrace => false
  | .blockPageIP => []
  | .storage | .queryLogger | .blocklistManager | .localRecords | .policyEngine | .fwd | .cache
  | .configWatcher | .killSwitch | .unboundBuffer | .metrics | .logger => none

/-! ## Setters -/

abbrev SetCall := (f : DepField) × f.Value

def setForwarder (f : Option Pointer) : SetCall := ⟨.fwd, f⟩
def setCache (c : Option Pointer) : SetCall := ⟨.cache, c⟩
def setBlocklistManager (m : Option Pointer) : SetCall := ⟨.blocklistManager, m⟩
def setStorage (s : Option Pointer) : SetCall := ⟨.storage, s⟩
def setQueryLogger (ql : Option Pointer) : SetCall := ⟨.queryLogger, ql⟩
def setLocalRecords (l : Option Pointer) : SetCall := ⟨.localRecords, l⟩
def setPolicyEngine (e : Option Pointer) : SetCall := ⟨.policyEngine, e⟩
def setMetrics (m : Option Pointer) : SetCall := ⟨.metrics, m⟩
def setLogger (l : Option Pointer) : SetCall := ⟨.logger, l⟩
def setKillSwitch (ks : Option Pointer) : SetCall := ⟨.killSwitch, ks⟩
def setDecisionTrace (enabled : Bool) : SetCall := ⟨.decisionTrace, enabled⟩
def setConfigWatcher (cw : Option Pointer) : SetCall := ⟨.configWatcher, cw⟩
def setBlockPageIP (ip : GoString) : SetCall := ⟨.blockPageIP, ip⟩
def setUnboundReplyBuffer (rb : Option Pointer) : SetCall := ⟨.unboundBuffer, rb⟩

def SetCall.apply (call : SetCall) (d : HandlerDeps) : HandlerDeps :=
  Function.update d call.1 call.2

abbrev Setters := CloneSwap.Shared DepField.Value

abbrev SetterStep := CloneSwap.Step DepField.Value

def Setters.step : Setters → SetterStep → Setters := CloneSwap.step

def Setters.start (deps : HandlerDeps) : Setters := CloneSwap.start deps

end GloryHole.Dns
