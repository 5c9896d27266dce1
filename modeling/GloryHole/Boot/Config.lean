import GloryHole.Api.ConfigUpdate
import GloryHole.Boot.Policies

/-!
# The configuration at start-up

What `main` does to the configuration it has loaded, and to its file, before the API serves a
request.  The watcher, `main` and the API handlers share one configuration, so every
assignment of `main` is in what a handler copies and saves.
-/

namespace GloryHole.Boot

open Go Policy Storage
open Api (ConfigState Stdlib UpdateRequest)
open Config (Config Env Yaml PolicyRuleEntry load save)

/-- The client list of `dynamic_config`: there is none, it does not decode, or its entries. -/
inductive StoredACL where
  | missing
  | malformed
  | entries (clients : List GoString)
  deriving DecidableEq

structure Store where
  database : Database
  allowedClients : StoredACL

/-- What `main` finds besides the configuration file: its build-time version, the database if
it can be opened, and whether a managed Unbound comes up. -/
structure Surroundings where
  version : GoString
  store : Option Store
  unboundStarts : Bool

def Surroundings.storage (sur : Surroundings) (cfg : Config) : Option Store :=
  if cfg.database.enabled then sur.store else none

structure Process (δ : Type) extends ConfigState δ where
  storage : Option Store

def MigratesWhitelist (storage : Option Store) (c : Config) : Prop :=
  c.whitelist ≠ [] ∧ storage.map (·.database.whitelistMigrated) ≠ some true

def ForwardsConditionally (c : Config) : Prop :=
  c.conditionalForwarding.enabled = true ∧ c.conditionalForwarding.rules ≠ []

instance decidableForwardsConditionally (c : Config) : Decidable (ForwardsConditionally c) :=
  inferInstanceAs (Decidable (_ ∧ _))

def MigratesForwarding (storage : Option Store) (c : Config) : Prop :=
  ForwardsConditionally c ∧ storage.map (·.database.conditionalForwardingMigrated) ≠ some true

instance decidableMigratesWhitelist (storage : Option Store) (c : Config) :
    Decidable (MigratesWhitelist storage c) :=
  inferInstanceAs (Decidable (_ ∧ _))

instance decidableMigratesForwarding (storage : Option Store) (c : Config) :
    Decidable (MigratesForwarding storage c) :=
  inferInstanceAs (Decidable (_ ∧ _))

section

variable {δ : Type} (yaml : Yaml δ)

/-- A best-effort save: a failure leaves the file as it is. -/
def persist (cfg : Config) (file : δ) : δ :=
  match save yaml cfg with
  | .ok file => file
  | .error _ => file

def policyRuleEntry (rule : PolicyRule) : PolicyRuleEntry :=
  { name := rule.name, logic := rule.logic, action := rule.action,
    actionData := rule.actionData, enabled := rule.enabled }

/-- `migrateWhitelistToPolicies` with its save: the file is left alone if the sentinel is
set. -/
def Process.migrateWhitelist (p : Process δ) : Process δ :=
  if p.config.whitelist = [] then p
  else
    match p.storage with
    | some s =>
      let (cfg, db) := migrateWhitelistToPolicies p.config s.database
      { config := cfg
        file := if s.database.whitelistMigrated then p.file else persist yaml cfg p.file
        storage := some { s with database := db } }
    | none =>
      let rules := p.config.policy.rules ++ (whitelistRules p.config).map policyRuleEntry
      let cfg := { p.config with policy := ⟨rules, true⟩, whitelist := [] }
      { p with config := cfg, file := persist yaml cfg p.file }

variable (printable : Nat → Bool)

def Process.migrateConditionalForwarding (p : Process δ) : Process δ :=
  if ¬ p.config.conditionalForwarding.enabled ∨ p.config.conditionalForwarding.rules = [] then p
  else
    match p.storage with
    | some s =>
      let (cfg, db) := migrateConditionalForwardingToPolicies printable p.config s.database
      { config := cfg
        file :=
          if s.database.conditionalForwardingMigrated then p.file else persist yaml cfg p.file
        storage := some { s with database := db } }
    | none =>
      let rules := p.config.policy.rules ++
        (forwardingRules printable p.config).map policyRuleEntry
      let cfg :=
        { p.config with
          policy := ⟨rules, true⟩
          conditionalForwarding := { rules := [], enabled := false } }
      { p with config := cfg, file := persist yaml cfg p.file }

def Process.saves (p : Process δ) : List δ :=
  let p' := p.migrateWhitelist yaml
  (if MigratesWhitelist p.storage p.config then (save yaml p'.config).toOption.toList else []) ++
    (if MigratesForwarding p'.storage p'.config then
      (save yaml (p'.migrateConditionalForwarding yaml printable).config).toOption.toList
    else [])

def Process.seed (p : Process δ) : Process δ :=
  { p with
    storage := p.storage.map fun s =>
      { s with database := { s.database with table := seedPolicies p.config s.database.table } } }

/-- A stored client list replaces the configured one; if there is none, the configured one is
stored. -/
def Process.loadAllowedClients (p : Process δ) : Process δ :=
  match p.storage with
  | none => p
  | some s =>
    match s.allowedClients with
    | .entries clients =>
      { p with
        config :=
          { p.config with server := { p.config.server with allowedClients := clients } } }
    | .malformed => p
    | .missing =>
      if p.config.server.allowedClients = [] then p
      else
        { p with
          storage := some { s with allowedClients := .entries p.config.server.allowedClients } }

def unboundAddr (cfg : Config) : GoString := lit "127.0.0.1:" ++ itoa cfg.unbound.listenPort

def Process.startUnbound (starts : Bool) (p : Process δ) : Process δ :=
  if p.config.unbound.enabled && p.config.unbound.managed && starts then
    { p with config := { p.config with upstreamDNSServers := [unboundAddr p.config] } }
  else p

variable (hash : GoString → Option GoString) (env : Env)

/-- `main` up to the migrations: the configuration is loaded and the database opened. -/
def launch (sur : Surroundings) (file : δ) : Except GoString (Process δ) := do
  let cfg ← wrap (lit "failed to load initial config: ") (load hash yaml env file)
  let cfg := { cfg with telemetry := { cfg.telemetry with serviceVersion := sur.version } }
  pure { config := cfg, file := file, storage := sur.storage cfg }

/-- `main` from the migrations to the API server. -/
def Process.prepare (starts : Bool) (p : Process δ) : Process δ :=
  let p := p.migrateWhitelist yaml
  let p := p.migrateConditionalForwarding yaml printable
  p.seed.loadAllowedClients.startUnbound starts

def start (sur : Surroundings) (file : δ) : Except GoString (Process δ) := do
  let p ← launch yaml hash env sur file
  pure (p.prepare yaml printable sur.unboundStarts)

end

/-! ## Runs -/

section

variable {δ σ : Type} (lib : Stdlib) (yaml : Yaml δ) (printable : Nat → Bool)
  (hash : σ → GoString → Option GoString) (env : Env)

/-- The documents that requests save, in order; each comes with the salt its load hashes
under. -/
def requestSaves : ConfigState δ → List (σ × UpdateRequest) → List δ
  | _, [] => []
  | s, (salt, r) :: rs =>
    match s.update lib (hash salt) yaml env r with
    | (s', .ok _) => s'.file :: requestSaves s' rs
    | (s', .error _) => requestSaves s' rs

def written (sur : Surroundings) (file : δ) (salt : σ) (rs : List (σ × UpdateRequest)) : List δ :=
  match launch yaml (hash salt) env sur file with
  | .error _ => []
  | .ok p =>
    p.saves yaml printable ++
      requestSaves lib yaml hash env
        (p.prepare yaml printable sur.unboundStarts).toConfigState rs

end

end GloryHole.Boot
