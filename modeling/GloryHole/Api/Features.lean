import GloryHole.Config.Load

/-!
# The feature switches

`handleUpdateFeatures`: the current configuration is cloned, the switches of the request
are set in the clone, the clone is saved and the file is loaded again.
-/

namespace GloryHole.Api

open Go
open Config (Config Env Yaml load clone save)

structure ConfigState (δ : Type) where
  config : Config
  file : δ

/-- `Reload`: a file that does not load leaves the configuration as it is. -/
def ConfigState.reload {δ : Type} (hash : GoString → Option GoString) (yaml : Yaml δ)
    (env : Env) (s : ConfigState δ) : ConfigState δ :=
  match load hash yaml env s.file with
  | .ok cfg => { s with config := cfg }
  | .error _ => s

structure FeaturesRequest where
  blocklistEnabled : Option Bool := none
  policiesEnabled : Option Bool := none
  deriving DecidableEq

structure FeaturesResponse where
  blocklistEnabled : Bool
  policiesEnabled : Bool
  deriving DecidableEq

inductive FeaturesError where
  | invalidJSON
  | failedToProcess
  | noChanges
  | failedToSave
  deriving DecidableEq

def FeaturesError.statusAndMessage : FeaturesError → Nat × GoString
  | .invalidJSON => (400, lit "Invalid JSON")
  | .failedToProcess => (500, lit "Failed to process configuration")
  | .noChanges => (400, lit "No changes specified")
  | .failedToSave => (500, lit "Failed to save configuration")

def FeaturesRequest.apply (req : FeaturesRequest) (cfg : Config) : Config :=
  { cfg with
    server :=
      { cfg.server with
        enableBlocklist := req.blocklistEnabled.getD cfg.server.enableBlocklist
        enablePolicies := req.policiesEnabled.getD cfg.server.enablePolicies } }

def handleUpdateFeatures {δ : Type} (hash : GoString → Option GoString) (yaml : Yaml δ)
    (env : Env) (s : ConfigState δ) (body : Option FeaturesRequest) :
    ConfigState δ × Except FeaturesError FeaturesResponse :=
  match body with
  | none => (s, .error .invalidJSON)
  | some req =>
    match clone hash yaml s.config with
    | .error _ => (s, .error .failedToProcess)
    | .ok cfg =>
      if req.blocklistEnabled = none ∧ req.policiesEnabled = none then
        (s, .error .noChanges)
      else
        let cfg := req.apply cfg
        match save yaml cfg with
        | .error _ => (s, .error .failedToSave)
        | .ok file =>
          (ConfigState.reload hash yaml env { s with file := file },
            .ok ⟨cfg.server.enableBlocklist, cfg.server.enablePolicies⟩)

end GloryHole.Api
