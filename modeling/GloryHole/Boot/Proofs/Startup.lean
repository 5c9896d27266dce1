import GloryHole.Api.Proofs.SectionFrame
import GloryHole.Boot.Config

/-!
# What start-up leaves

The memory and the file after `main` has migrated the whitelist and the forwarding rules,
taken over the stored client list and started Unbound.
-/

namespace GloryHole.Boot

open Go Api
open Config (Config Env Yaml ConditionalForwardingConfig Loadable applyDefaults
  loadable_iff save)

variable {δ : Type} {yaml : Yaml δ} {hash : GoString → Option GoString} {env : Env}

/-! ## Migrations -/

def drained (c : Config) : ConditionalForwardingConfig :=
  if ForwardsConditionally c then { rules := [], enabled := false } else c.conditionalForwarding

theorem unmarshal_persist (hyaml : yaml.Faithful) (c : Config) (file : δ) :
    yaml.unmarshal (persist yaml c file) = .ok c := by
  obtain ⟨data, hmarshal, hunmarshal⟩ := hyaml c
  simp only [persist, save, hmarshal, wrap]
  exact hunmarshal

/-- What a migration of the whitelist does to the configuration and the file. -/
theorem Process.migrateWhitelist_spec (hyaml : yaml.Faithful) (p : Process δ) :
    ∃ policy, (p.migrateWhitelist yaml).config =
        { p.config with whitelist := [], policy := policy } ∧
      (p.migrateWhitelist yaml).storage.map (·.allowedClients) =
        p.storage.map (·.allowedClients) ∧
      (p.migrateWhitelist yaml).storage.map (·.database.conditionalForwardingMigrated) =
        p.storage.map (·.database.conditionalForwardingMigrated) ∧
      (MigratesWhitelist p.storage p.config →
        yaml.unmarshal (p.migrateWhitelist yaml).file = .ok (p.migrateWhitelist yaml).config) ∧
      (¬ MigratesWhitelist p.storage p.config →
        (p.migrateWhitelist yaml).file = p.file ∧ policy = p.config.policy) := by
  unfold Process.migrateWhitelist MigratesWhitelist
  by_cases hnil : p.config.whitelist = []
  · rw [if_pos hnil]
    refine ⟨p.config.policy, ?_, rfl, rfl, fun h => absurd hnil h.1, fun _ => ⟨rfl, rfl⟩⟩
    rw [← hnil]
  · rw [if_neg hnil]
    cases hstorage : p.storage with
    | none =>
      exact ⟨_, rfl, rfl, rfl, fun _ => unmarshal_persist hyaml _ _,
        fun h => absurd ⟨hnil, nofun⟩ h⟩
    | some s =>
      cases hdone : s.database.whitelistMigrated with
      | true =>
        simp only [migrateWhitelistToPolicies, if_neg hnil, hdone, if_true]
        exact ⟨p.config.policy, rfl, trivial, trivial, fun h => absurd (by simp [hdone]) h.2,
          fun _ => ⟨trivial, rfl⟩⟩
      | false =>
        simp only [migrateWhitelistToPolicies, if_neg hnil, hdone]
        exact ⟨_, rfl, rfl, rfl, fun _ => unmarshal_persist hyaml _ _,
          fun h => absurd ⟨hnil, by simp [hdone]⟩ h⟩

theorem Process.migrateConditionalForwarding_spec (printable : Nat → Bool)
    (hyaml : yaml.Faithful) (p : Process δ) :
    ∃ policy, (p.migrateConditionalForwarding yaml printable).config =
        { p.config with
          policy := policy
          conditionalForwarding := drained p.config } ∧
      (p.migrateConditionalForwarding yaml printable).storage.map (·.allowedClients) =
        p.storage.map (·.allowedClients) ∧
      (MigratesForwarding p.storage p.config →
        yaml.unmarshal (p.migrateConditionalForwarding yaml printable).file =
          .ok (p.migrateConditionalForwarding yaml printable).config) ∧
      (¬ MigratesForwarding p.storage p.config →
        (p.migrateConditionalForwarding yaml printable).file = p.file ∧
          policy = p.config.policy) := by
  unfold Process.migrateConditionalForwarding MigratesForwarding drained
  by_cases hforwards : ForwardsConditionally p.config
  · have hactive : ¬ (¬ p.config.conditionalForwarding.enabled ∨
        p.config.conditionalForwarding.rules = []) := by
      simpa [ForwardsConditionally] using hforwards
    rw [if_neg hactive, if_pos hforwards]
    cases hstorage : p.storage with
    | none =>
      exact ⟨_, rfl, rfl, fun _ => unmarshal_persist hyaml _ _,
        fun h => absurd ⟨hforwards, nofun⟩ h⟩
    | some s =>
      cases hdone : s.database.conditionalForwardingMigrated with
      | true =>
        simp only [migrateConditionalForwardingToPolicies, if_neg hactive, hdone, if_true]
        exact ⟨p.config.policy, rfl, trivial, fun h => absurd (by simp [hdone]) h.2,
          fun _ => ⟨trivial, rfl⟩⟩
      | false =>
        simp only [migrateConditionalForwardingToPolicies, if_neg hactive, hdone]
        exact ⟨_, rfl, rfl, fun _ => unmarshal_persist hyaml _ _,
          fun h => absurd ⟨hforwards, by simp [hdone]⟩ h⟩
  · have hactive : ¬ p.config.conditionalForwarding.enabled ∨
        p.config.conditionalForwarding.rules = [] := by
      simpa [ForwardsConditionally, or_iff_not_imp_left] using hforwards
    rw [if_pos hactive, if_neg hforwards]
    exact ⟨p.config.policy, rfl, rfl, fun h => absurd h.1 hforwards, fun _ => ⟨rfl, rfl⟩⟩

/-- The process after both migrations.  One that has run before takes its rules out of the
memory and leaves them in the file; one that runs now saves what it leaves in the memory. -/
structure Migrated (yaml : Yaml δ) (p p' : Process δ) (policy : Config.PolicyConfig) : Prop where
  config : p'.config =
    { p.config with
      whitelist := [], policy := policy, conditionalForwarding := drained p.config }
  allowedClients : p'.storage.map (·.allowedClients) = p.storage.map (·.allowedClients)
  left : ForwardsConditionally p.config → ¬ MigratesForwarding p.storage p.config →
    p'.file = p.file ∨ ∃ c, yaml.unmarshal p'.file = .ok c ∧
      c.conditionalForwarding = p.config.conditionalForwarding
  saved : (ForwardsConditionally p.config → MigratesForwarding p.storage p.config) →
    MigratesWhitelist p.storage p.config ∨ MigratesForwarding p.storage p.config →
      yaml.unmarshal p'.file = .ok p'.config
  kept : ¬ MigratesWhitelist p.storage p.config → ¬ MigratesForwarding p.storage p.config →
    p'.file = p.file ∧ policy = p.config.policy

theorem Process.exists_migrated (printable : Nat → Bool) (hyaml : yaml.Faithful)
    (p : Process δ) : ∃ policy,
      Migrated yaml p ((p.migrateWhitelist yaml).migrateConditionalForwarding yaml printable)
        policy := by
  obtain ⟨policy₁, hconfig₁, hacl₁, hsentinel, hsaved₁, hkept₁⟩ := p.migrateWhitelist_spec hyaml
  obtain ⟨policy₂, hconfig₂, hacl₂, hsaved₂, hkept₂⟩ :=
    (p.migrateWhitelist yaml).migrateConditionalForwarding_spec printable hyaml
  have hforwards : ForwardsConditionally (p.migrateWhitelist yaml).config ↔
      ForwardsConditionally p.config := by
    rw [hconfig₁]
    rfl
  have hmigrates : MigratesForwarding (p.migrateWhitelist yaml).storage
      (p.migrateWhitelist yaml).config ↔ MigratesForwarding p.storage p.config := by
    unfold MigratesForwarding
    rw [hforwards, hsentinel]
  have hdrained : drained (p.migrateWhitelist yaml).config = drained p.config := by
    rw [hconfig₁]
    rfl
  rw [hmigrates] at hsaved₂ hkept₂
  refine ⟨policy₂, ?_, hacl₂.trans hacl₁, ?_, ?_, ?_⟩
  · rw [hconfig₂, hdrained, hconfig₁]
  · intro _ hnot
    rw [(hkept₂ hnot).1]
    by_cases hwhitelist : MigratesWhitelist p.storage p.config
    · refine Or.inr ⟨_, hsaved₁ hwhitelist, ?_⟩
      rw [hconfig₁]
    · exact Or.inl (hkept₁ hwhitelist).1
  · intro hall hsome
    by_cases hforwarding : MigratesForwarding p.storage p.config
    · exact hsaved₂ hforwarding
    · -- There are no rules to drain, and the save of the whitelist is the last one.
      have hwhitelist := hsome.resolve_right hforwarding
      have hnone : ¬ ForwardsConditionally (p.migrateWhitelist yaml).config :=
        fun h => hforwarding (hall (hforwards.mp h))
      rw [(hkept₂ hforwarding).1, hsaved₁ hwhitelist, hconfig₂, (hkept₂ hforwarding).2, drained,
        if_neg hnone]
  · intro hwhitelist hforwarding
    obtain ⟨hfile₁, rfl⟩ := hkept₁ hwhitelist
    obtain ⟨hfile₂, rfl⟩ := hkept₂ hforwarding
    refine ⟨hfile₂.trans hfile₁, ?_⟩
    rw [hconfig₁]

/-! ## What `main` sets -/

def clientsInUse (storage : Option Store) (c : Config) : List GoString :=
  match storage.map Store.allowedClients with
  | some (.entries clients) => clients
  | _ => c.server.allowedClients

def usesUnbound (starts : Bool) (c : Config) : Bool :=
  c.unbound.enabled && c.unbound.managed && starts

def injected (starts : Bool) (storage : Option Store) (c : Config) : Config :=
  { c with
    server := { c.server with allowedClients := clientsInUse storage c }
    upstreamDNSServers :=
      if usesUnbound starts c then [unboundAddr c] else c.upstreamDNSServers }

theorem Process.startUnbound_eq (starts : Bool) (p : Process δ) :
    (p.startUnbound starts).toConfigState =
      ⟨{ p.config with
          upstreamDNSServers :=
            if usesUnbound starts p.config then [unboundAddr p.config]
            else p.config.upstreamDNSServers }, p.file⟩ := by
  unfold startUnbound usesUnbound
  split <;> rfl

theorem Process.loadAllowedClients_eq (p : Process δ) :
    p.loadAllowedClients.toConfigState =
      ⟨{ p.config with
          server := { p.config.server with allowedClients := clientsInUse p.storage p.config } },
        p.file⟩ := by
  unfold loadAllowedClients clientsInUse
  cases hstorage : p.storage with
  | none => rfl
  | some s =>
    cases hacl : s.allowedClients with
    | entries clients | malformed => simp [hacl]
    | missing =>
      simp only [Option.map_some, hacl]
      split <;> rfl

theorem Process.injects (starts : Bool) (p : Process δ) :
    (p.seed.loadAllowedClients.startUnbound starts).toConfigState =
      ⟨injected starts p.storage p.config, p.file⟩ := by
  have hclients : clientsInUse p.seed.storage p.config = clientsInUse p.storage p.config := by
    unfold clientsInUse seed
    rw [Option.map_map]
    rfl
  have hload := p.seed.loadAllowedClients_eq
  rw [show p.seed.config = p.config from rfl, hclients] at hload
  have hconfig := congrArg ConfigState.config hload
  have hfile := congrArg ConfigState.file hload
  simp only at hconfig hfile
  rw [Process.startUnbound_eq, hconfig, hfile]
  rfl

variable (hash env) in
def loaded (sur : Surroundings) (file : δ) (raw : Config) (cf : ConditionalForwardingConfig) :
    Process δ where
  config :=
    { applyDefaults hash raw with
      auth := raw.auth.effective hash env
      conditionalForwarding := cf
      telemetry := { raw.telemetry.applyDefaults with serviceVersion := sur.version } }
  file := file
  storage := sur.storage raw

theorem launch_ok {sur : Surroundings} {file : δ} {p : Process δ}
    (h : launch yaml hash env sur file = .ok p) :
    ∃ raw cf, yaml.unmarshal file = .ok raw ∧ raw.conditionalForwarding.validate = .ok cf ∧
      p = loaded hash env sur file raw cf ∧ Loadable hash env p.config := by
  simp only [launch, bind_eq_ok, wrap_eq_ok, pure_eq_ok] at h
  obtain ⟨c, hload, rfl⟩ := h
  obtain ⟨hserver, hlogging, husable, hrules⟩ := loadable_iff.mp (Config.loadable_of_load hload)
  obtain ⟨raw, cf, hraw, hcf, rfl⟩ := Config.load_ok hload
  exact ⟨raw, cf, hraw, hcf, rfl,
    loadable_iff.mpr ⟨hserver, hlogging, husable, hrules⟩⟩

theorem Process.prepare_eq (printable : Nat → Bool) (starts : Bool) (hyaml : yaml.Faithful)
    (p : Process δ) : ∃ p' policy, Migrated yaml p p' policy ∧
      (p.prepare yaml printable starts).toConfigState =
        ⟨injected starts p'.storage p'.config, p'.file⟩ := by
  obtain ⟨policy, hmigrated⟩ := p.exists_migrated printable hyaml
  exact ⟨_, policy, hmigrated, Process.injects _ _⟩

theorem start_ok {sur : Surroundings} {printable : Nat → Bool} {file : δ} {p : Process δ}
    (hyaml : yaml.Faithful) (h : start yaml printable hash env sur file = .ok p) :
    ∃ raw cf p' policy, yaml.unmarshal file = .ok raw ∧
      raw.conditionalForwarding.validate = .ok cf ∧
      Migrated yaml (loaded hash env sur file raw cf) p' policy ∧
      p.toConfigState = ⟨injected sur.unboundStarts p'.storage p'.config, p'.file⟩ := by
  simp only [start, bind_eq_ok, pure_eq_ok] at h
  obtain ⟨p₀, hlaunch, rfl⟩ := h
  obtain ⟨raw, cf, hraw, hcf, rfl, -⟩ := launch_ok hlaunch
  obtain ⟨p', policy, hmigrated, hp⟩ :=
    (loaded hash env sur file raw cf).prepare_eq printable sur.unboundStarts hyaml
  exact ⟨raw, cf, p', policy, hraw, hcf, hmigrated, hp⟩

/-- Nothing start-up does to the configuration keeps it from being loaded again. -/
theorem Process.loadable_prepare {p : Process δ} (printable : Nat → Bool) (starts : Bool)
    (hyaml : yaml.Faithful) (h : Loadable hash env p.config) :
    Loadable hash env (p.prepare yaml printable starts).config := by
  obtain ⟨p', policy, hmigrated, hp⟩ := p.prepare_eq printable starts hyaml
  rw [hp, hmigrated.config]
  obtain ⟨hserver, hlogging, hauth, hcf⟩ := loadable_iff.mp h
  refine loadable_iff.mpr ⟨?_, hlogging, hauth, ?_⟩
  · exact ⟨hserver.address, hserver.keyPair, hserver.autocert, hserver.source, hserver.acme⟩
  · change ∃ cf, (drained p.config).validate = .ok cf
    unfold drained
    split
    · exact ⟨_, rfl⟩
    · exact hcf

theorem Process.prepare_auth (printable : Nat → Bool) (starts : Bool) (hyaml : yaml.Faithful)
    (p : Process δ) : (p.prepare yaml printable starts).config.auth = p.config.auth := by
  obtain ⟨p', policy, hmigrated, hp⟩ := p.prepare_eq printable starts hyaml
  rw [hp, hmigrated.config]
  rfl

def bare : Surroundings := ⟨lit "dev", none, false⟩

end GloryHole.Boot
