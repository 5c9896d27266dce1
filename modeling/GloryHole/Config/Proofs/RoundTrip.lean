import GloryHole.Api.Features

/-!
# The configuration round trip

A configuration is settled if no field is left for `applyDefaults` to fill.  For a
configuration that `Validate` accepts, being settled with every priority filled in is
the same as surviving a save and a load, a clone and the defaults once more.
-/

set_option linter.dupNamespace false

namespace GloryHole.Config

open Go

/-! ## Settled sections -/

theorem orText_eq_self {s default : GoString} (h : default ≠ []) :
    orText s default = s ↔ s ≠ [] := by
  unfold orText
  split
  · rename_i hs
    simp [hs, h]
  · rename_i hs
    simp [hs]

theorem orInt_eq_self {n default : Int} (h : default ≠ 0) : orInt n default = n ↔ n ≠ 0 := by
  unfold orInt
  split
  · rename_i hn
    simp [hn, h]
  · rename_i hn
    simp [hn]

def CFConfig.Settled (c : CFConfig) : Prop :=
  c.ttl ≠ 0 ∧ c.propagationTimeout ≠ 0 ∧ c.pollingInterval ≠ 0 ∧ c.initialDelay ≠ 0

def ACMEConfig.Settled (upstreams : List GoString) (a : ACMEConfig) : Prop :=
  a.cacheDir ≠ [] ∧ a.renewBefore ≠ 0 ∧ (a.upstreams = [] → upstreams = []) ∧
    a.cloudflare.Settled

def TLSConfig.Settled (upstreams : List GoString) (t : TLSConfig) : Prop :=
  t.autocert.http01Address ≠ [] ∧ t.acme.Settled upstreams

def ServerConfig.Settled (upstreams : List GoString) (s : ServerConfig) : Prop :=
  s.listenAddress ≠ [] ∧ (s.tcpEnabled ∨ s.udpEnabled) ∧ s.webUIAddress ≠ [] ∧
    s.dotAddress ≠ [] ∧ s.tls.Settled upstreams ∧ (s.enableBlocklist ∨ s.enablePolicies)

def SQLiteConfig.Settled (s : SQLiteConfig) : Prop :=
  s.path ≠ [] ∧ s.busyTimeout ≠ 0 ∧ s.cacheSize ≠ 0 ∧ s.mmapSize ≠ 0 ∧ s.walMode

def DatabaseConfig.Settled (d : DatabaseConfig) : Prop :=
  d.backend ≠ [] ∧ d.sqlite.Settled ∧ d.bufferSize ≠ 0 ∧ d.flushInterval ≠ 0 ∧
    d.batchSize ≠ 0 ∧ d.retentionDays ≠ 0 ∧ d.statistics.aggregationInterval ≠ 0

def CacheConfig.Settled (c : CacheConfig) : Prop :=
  c.maxEntries ≠ 0 ∧ c.minTTL ≠ 0 ∧ c.maxTTL ≠ 0 ∧ c.negativeTTL ≠ 0 ∧ c.blockedTTL ≠ 0

def LoggingConfig.Settled (l : LoggingConfig) : Prop :=
  l.level ≠ [] ∧ l.format ≠ [] ∧ l.output ≠ [] ∧ l.maxSize ≠ 0 ∧ l.maxBackups ≠ 0 ∧
    l.maxAge ≠ 0

def TelemetryConfig.Settled (t : TelemetryConfig) : Prop :=
  t.serviceName ≠ [] ∧ t.serviceVersion ≠ [] ∧ t.prometheusPort ≠ 0

def UnboundConfig.Settled (u : UnboundConfig) : Prop :=
  u.configPath ≠ [] ∧ u.controlSocket ≠ [] ∧ u.listenPort ≠ 0

def AuthConfig.Settled (hash : GoString → Option GoString) (a : AuthConfig) : Prop :=
  trimSpace a.header ≠ [] ∧
    (a.password = [] ∨ a.passwordHash ≠ [] ∨ hash a.password = none)

@[mk_iff]
structure Settled (hash : GoString → Option GoString) (c : Config) : Prop where
  server : c.server.Settled c.upstreamDNSServers
  upstreamDNSServers : c.upstreamDNSServers ≠ []
  updateInterval : c.updateInterval ≠ 0
  database : c.database.Settled
  cache : c.cache.Settled
  logging : c.logging.Settled
  telemetry : c.telemetry.Settled
  unbound : c.unbound.Settled
  auth : c.auth.Settled hash

theorem CFConfig.applyDefaults_eq_self {c : CFConfig} : c.applyDefaults = c ↔ c.Settled := by
  cases c
  simp (disch := decide) [applyDefaults, Settled, orInt_eq_self]

variable {upstreams : List GoString}

theorem ACMEConfig.applyDefaults_eq_self {a : ACMEConfig} :
    a.applyDefaults upstreams = a ↔ a.Settled upstreams := by
  cases a
  simp (disch := decide) [applyDefaults, Settled, orInt_eq_self, orText_eq_self,
    CFConfig.applyDefaults_eq_self]
  grind

theorem TLSConfig.applyDefaults_eq_self {t : TLSConfig} :
    t.applyDefaults upstreams = t ↔ t.Settled upstreams := by
  obtain ⟨cert, key, autocert, acme⟩ := t
  cases autocert
  simp (disch := decide) [applyDefaults, Settled, orText_eq_self,
    ACMEConfig.applyDefaults_eq_self]

theorem ServerConfig.applyDefaults_eq_self {s : ServerConfig} :
    s.applyDefaults upstreams = s ↔ s.Settled upstreams := by
  cases s
  simp (disch := decide) [applyDefaults, Settled, orText_eq_self,
    TLSConfig.applyDefaults_eq_self]
  grind

theorem DatabaseConfig.applyDefaults_eq_self {d : DatabaseConfig} :
    d.applyDefaults = d ↔ d.Settled := by
  obtain ⟨backend, sqlite, statistics, _⟩ := d
  cases sqlite
  cases statistics
  simp (disch := decide) [applyDefaults, SQLiteConfig.applyDefaults, Settled,
    SQLiteConfig.Settled, orText_eq_self, orInt_eq_self]
  grind

theorem CacheConfig.applyDefaults_eq_self {c : CacheConfig} :
    c.applyDefaults = c ↔ c.Settled := by
  cases c
  simp (disch := decide) [applyDefaults, Settled, orInt_eq_self]

theorem LoggingConfig.applyDefaults_eq_self {l : LoggingConfig} :
    l.applyDefaults = l ↔ l.Settled := by
  cases l
  simp (disch := decide) [applyDefaults, Settled, orText_eq_self, orInt_eq_self]

theorem TelemetryConfig.applyDefaults_eq_self {t : TelemetryConfig} :
    t.applyDefaults = t ↔ t.Settled := by
  cases t
  simp (disch := decide) [applyDefaults, Settled, orText_eq_self, orInt_eq_self]

theorem UnboundConfig.applyDefaults_eq_self {u : UnboundConfig} :
    u.applyDefaults = u ↔ u.Settled := by
  cases u
  simp (disch := decide) [applyDefaults, Settled, orText_eq_self, orInt_eq_self]

section

variable {hash : GoString → Option GoString}

theorem AuthConfig.normalize_header (a : AuthConfig) :
    (a.normalize hash).header =
      if trimSpace a.header = [] then lit "Authorization" else a.header := by
  unfold normalize migratePasswordToHash
  grind

variable {a : AuthConfig} {c : Config}

theorem AuthConfig.normalize_password {h : GoString} (hplain : a.password ≠ [])
    (hnone : a.passwordHash = []) (hhash : hash a.password = some h) :
    (a.normalize hash).password = [] := by
  unfold normalize migratePasswordToHash
  by_cases hheader : trimSpace a.header = []
  · simp [hheader, hplain, hnone, hhash]
  · simp [hheader, hplain, hnone, hhash]

theorem AuthConfig.normalize_eq_self :
    a.normalize hash = a ↔ a.Settled hash := by
  constructor
  · intro h
    constructor
    · intro hempty
      have hheader := @normalize_header hash a
      rw [h, if_pos hempty] at hheader
      rw [hheader] at hempty
      exact absurd hempty (by decide)
    · by_contra hplain
      simp only [not_or, not_not, ← ne_eq] at hplain
      obtain ⟨v, hv⟩ := Option.ne_none_iff_exists'.mp hplain.2.2
      have hpassword := normalize_password hplain.1 hplain.2.1 hv
      rw [h] at hpassword
      exact hplain.1 hpassword
  · rintro ⟨hheader, hplain⟩
    unfold normalize migratePasswordToHash
    simp only [if_neg hheader]
    split
    · rename_i hmigrate
      have hfails : hash a.password = none := by
        rcases hplain with h | h | h
        · exact absurd h hmigrate.1
        · exact absurd hmigrate.2 h
        · exact h
      rw [hfails]
    · rfl

/-- The defaults change nothing exactly in a settled configuration. -/
theorem applyDefaults_eq_self : applyDefaults hash c = c ↔ Settled hash c := by
  cases c
  simp (disch := decide) [applyDefaults, settled_iff, orInt_eq_self,
    ServerConfig.applyDefaults_eq_self, DatabaseConfig.applyDefaults_eq_self,
    CacheConfig.applyDefaults_eq_self, LoggingConfig.applyDefaults_eq_self,
    TelemetryConfig.applyDefaults_eq_self, UnboundConfig.applyDefaults_eq_self,
    AuthConfig.normalize_eq_self]
  grind [defaultUpstreams]

theorem orText_ne_nil {s default : GoString} (h : default ≠ []) : orText s default ≠ [] := by
  unfold orText
  split <;> assumption

theorem orInt_ne_zero {n default : Int} (h : default ≠ 0) : orInt n default ≠ 0 := by
  unfold orInt
  split <;> assumption

theorem AuthConfig.normalize_settled (a : AuthConfig) : (a.normalize hash).Settled hash := by
  constructor
  · rw [normalize_header]
    split
    · decide
    · assumption
  · unfold normalize migratePasswordToHash
    by_cases hheader : trimSpace a.header = []
    · simp only [if_pos hheader]
      grind
    · simp only [if_neg hheader]
      grind

theorem ServerConfig.applyDefaults_settled {upstreams upstreams' : List GoString}
    {s : ServerConfig} :
    (s.applyDefaults upstreams).Settled upstreams' ↔
      (s.tls.acme.upstreams = [] → upstreams = [] → upstreams' = []) := by
  simp (disch := decide) only [Settled, applyDefaults, TLSConfig.Settled,
    TLSConfig.applyDefaults, ACMEConfig.Settled, ACMEConfig.applyDefaults, CFConfig.Settled,
    CFConfig.applyDefaults, ne_eq, orText_ne_nil, orInt_ne_zero, not_false_eq_true, true_and]
  grind

/-- The defaults are applied for good the first time, except that an ACME section without
upstreams of its own inherits the default ones only the second time. -/
theorem applyDefaults_applyDefaults_iff :
    applyDefaults hash (applyDefaults hash c) = applyDefaults hash c ↔
      c.server.tls.acme.upstreams ≠ [] ∨ c.upstreamDNSServers ≠ [] := by
  rw [applyDefaults_eq_self, settled_iff]
  simp (disch := decide) only [applyDefaults, ServerConfig.applyDefaults_settled,
    AuthConfig.normalize_settled, DatabaseConfig.Settled, DatabaseConfig.applyDefaults,
    SQLiteConfig.Settled, SQLiteConfig.applyDefaults, CacheConfig.Settled,
    CacheConfig.applyDefaults, LoggingConfig.Settled, LoggingConfig.applyDefaults,
    TelemetryConfig.Settled, TelemetryConfig.applyDefaults, UnboundConfig.Settled,
    UnboundConfig.applyDefaults, ne_eq, orText_ne_nil, orInt_ne_zero, not_false_eq_true,
    and_self, and_true]
  grind [defaultUpstreams]

/-! ## Validation -/

theorem AuthConfig.validate_ok {a' : AuthConfig} (h : a.validate hash = .ok a')
    (hsettled : a.Settled hash) : a' = a := by
  unfold validate at h
  rw [normalize_eq_self.mpr hsettled] at h
  split at h
  · simp only [bind_eq_ok, pure_eq_ok] at h
    obtain ⟨-, -, rfl⟩ := h
    rfl
  · exact (pure_eq_ok.mp h).symm

theorem ForwardingRule.validate_ok {r r' : ForwardingRule} (h : r.validate = .ok r') :
    r' = { r with priority := orInt r.priority 50 } := by
  simp only [validate, bind_eq_ok, pure_eq_ok] at h
  grind

theorem validateRules_ok {rules rules' : List ForwardingRule}
    (h : validateRules rules = .ok rules') :
    rules' = rules.map fun r => { r with priority := orInt r.priority 50 } := by
  induction rules generalizing rules' with
  | nil => exact (pure_eq_ok.mp h).symm
  | cons r rules ih =>
    simp only [validateRules, bind_eq_ok, pure_eq_ok] at h
    obtain ⟨r', hr, tail, htail, rfl⟩ := h
    rw [ForwardingRule.validate_ok hr, ih htail, List.map_cons]

def ConditionalForwardingConfig.Settled (c : ConditionalForwardingConfig) : Prop :=
  c.enabled → ∀ r ∈ c.rules, r.priority ≠ 0

theorem ConditionalForwardingConfig.validate_eq_self {c c' : ConditionalForwardingConfig}
    (h : c.validate = .ok c') : c' = c ↔ c.Settled := by
  obtain ⟨rules, enabled⟩ := c
  unfold validate at h
  cases enabled with
  | false =>
    have := pure_eq_ok.mp h
    simp [Settled, ← this]
  | true =>
    simp only [if_true, bind_eq_ok, pure_eq_ok] at h
    obtain ⟨rules', hrules, rfl⟩ := h
    have hself (r : ForwardingRule) :
        { r with priority := orInt r.priority 50 } = r ↔ r.priority ≠ 0 := by
      cases r
      simp (disch := decide) [orInt_eq_self]
    simp only [Settled, validateRules_ok hrules, ConditionalForwardingConfig.mk.injEq,
      and_true, forall_const, ← hself]
    constructor
    · intro hmap r hr
      exact List.map_inj_left.mp (hmap.trans (List.map_id rules).symm) r hr
    · intro hall
      exact (List.map_congr_left hall).trans (List.map_id rules)

theorem validate_eq_self {c' : Config} (h : validate hash c = .ok c')
    (hauth : c.auth.Settled hash) : c' = c ↔ c.conditionalForwarding.Settled := by
  simp only [validate, bind_eq_ok, wrap_eq_ok, pure_eq_ok] at h
  obtain ⟨-, -, -, -, -, -, auth, hvalid, cf, hcf, rfl⟩ := h
  rw [AuthConfig.validate_ok hvalid hauth, ← ConditionalForwardingConfig.validate_eq_self hcf]
  cases c
  simp

/-! ## The round trip -/

variable {δ : Type} {yaml : Yaml δ}

theorem load_save (hyaml : yaml.Faithful) (hsettled : Settled hash c) :
    (∃ data, save yaml c = .ok data ∧ load hash yaml {} data = .ok c) ↔
      validate hash c = .ok c := by
  obtain ⟨data, hmarshal, hunmarshal⟩ := hyaml c
  have henv : applyEnvOverrides hash {} c = c := by
    have hauth : c.auth.override {} = c.auth := rfl
    rw [applyEnvOverrides, hauth, AuthConfig.normalize_eq_self.mpr hsettled.auth]
  have hload : load hash yaml {} data = .ok c ↔ validate hash c = .ok c := by
    simp only [load, bind_eq_ok, wrap_eq_ok, hunmarshal, Except.ok.injEq, exists_eq_left']
    rw [applyDefaults_eq_self.mpr hsettled, henv]
  simp only [save, wrap_eq_ok, hmarshal, Except.ok.injEq, exists_eq_left', hload]

theorem clone_eq (hyaml : yaml.Faithful) (hsettled : Settled hash c) :
    clone hash yaml c = .ok c := by
  obtain ⟨data, hmarshal, hunmarshal⟩ := hyaml c
  have hauth := AuthConfig.normalize_eq_self.mpr hsettled.auth
  simp only [clone, bind_eq_ok, wrap_eq_ok, pure_eq_ok]
  refine ⟨data, hmarshal, c, hunmarshal, ?_⟩
  rw [applyDefaults_eq_self.mpr hsettled, hauth]

/-- `c` survives a save and a load, a clone, and the defaults once more. -/
def RoundTrips (hash : GoString → Option GoString) (yaml : Yaml δ) (c : Config) : Prop :=
  (∃ data, save yaml c = .ok data ∧ load hash yaml {} data = .ok c) ∧
    clone hash yaml c = .ok c ∧ applyDefaults hash c = c

/-- A configuration that `Validate` accepts round trips exactly when no field is left to
fill: neither by the defaults nor, for a forwarding rule, by `Validate`. -/
theorem roundTrips_iff {hash : GoString → Option GoString} {yaml : Yaml δ} {c c' : Config}
    (hyaml : yaml.Faithful) (hvalid : validate hash c = .ok c') :
    RoundTrips hash yaml c ↔ Settled hash c ∧ c.conditionalForwarding.Settled := by
  have hfilled (hsettled : Settled hash c) :
      validate hash c = .ok c ↔ c.conditionalForwarding.Settled := by
    rw [hvalid, ← validate_eq_self hvalid hsettled.auth, Except.ok.injEq]
  constructor
  · rintro ⟨hload, -, hdefaults⟩
    have hsettled := applyDefaults_eq_self.mp hdefaults
    exact ⟨hsettled, (hfilled hsettled).mp ((load_save hyaml hsettled).mp hload)⟩
  · rintro ⟨hsettled, hrules⟩
    exact ⟨(load_save hyaml hsettled).mpr ((hfilled hsettled).mpr hrules),
      clone_eq hyaml hsettled, applyDefaults_eq_self.mpr hsettled⟩

end

/-! ## Switches that come back on -/

def plainYaml : Yaml Config := ⟨.ok, .ok⟩

def settledConfig : Config :=
  applyDefaults (fun _ => none) (applyDefaults (fun _ => none) {})

theorem roundTrips_iff_defaults :
    RoundTrips (fun _ => none) plainYaml settledConfig ↔
      Settled (fun _ => none) settledConfig ∧ settledConfig.conditionalForwarding.Settled :=
  @roundTrips_iff Config (fun _ => none) plainYaml settledConfig settledConfig
    (fun c => ⟨c, rfl, rfl⟩) rfl

/-- A request that turns both switches off is answered with both off; the configuration
it saves is valid, and loads with both on.  The configuration loaded from an empty file
does not survive either: its ACME section inherits upstreams the second time. -/
theorem switches_off_load_on :
    (let s : Api.ConfigState Config := ⟨settledConfig, settledConfig⟩
      let (s', response) := Api.handleUpdateFeatures (fun _ => none) plainYaml {} s
        (some ⟨some false, some false⟩)
      response = .ok ⟨false, false⟩ ∧
        validate (fun _ => none) s'.file = .ok s'.file ∧
        s'.file.server.enableBlocklist = false ∧ s'.config.server.enableBlocklist = true ∧
        ¬ RoundTrips (fun _ => none) plainYaml s'.file) ∧
      load (fun _ => none) plainYaml {} {} = .ok (loadWithDefaults (fun _ => none) {}) ∧
      ¬ RoundTrips (fun _ => none) plainYaml (loadWithDefaults (fun _ => none) {}) := by
  refine ⟨⟨rfl, rfl, rfl, rfl, ?_⟩, rfl, ?_⟩
  · rintro ⟨-, -, hdefaults⟩
    revert hdefaults
    decide
  · rintro ⟨-, -, hdefaults⟩
    revert hdefaults
    decide

/-!
## The authentication section under an environment

What a load makes of the authentication section of a file: a plain password is hashed, the
environment overrides what it sets, and what is then a plain password without a hash is
hashed.
-/

variable {hash : GoString → Option GoString}

def migrated (hash : GoString → Option GoString) (password passwordHash : GoString) :
    GoString × GoString :=
  if password ≠ [] ∧ passwordHash = [] then
    match hash password with
    | none => (password, [])
    | some h => ([], h)
  else (password, passwordHash)

namespace AuthConfig

theorem normalize_eq (a : AuthConfig) :
    a.normalize hash =
      { a with
        header := if trimSpace a.header = [] then lit "Authorization" else a.header
        password := (migrated hash a.password a.passwordHash).1
        passwordHash := (migrated hash a.password a.passwordHash).2 } := by
  obtain ⟨enabled, apiKey, header, username, password, passwordHash⟩ := a
  unfold normalize migratePasswordToHash migrated
  by_cases hheader : trimSpace header = []
  all_goals
    simp only [hheader, if_true, if_false]
    by_cases hplain : password ≠ [] ∧ passwordHash = []
    · simp only [if_pos hplain]
      cases hash password with
      | none => simp [hplain.2]
      | some h => rfl
    · simp only [if_neg hplain]

theorem override_eq (env : Env) (a : AuthConfig) :
    a.override env =
      { a with
        enabled := a.enabled || trimSpace env.apiKey ≠ [] || trimSpace env.basicUser ≠ [] ||
          env.basicPass.isSome
        apiKey := if trimSpace env.apiKey ≠ [] then trimSpace env.apiKey else a.apiKey
        username := if trimSpace env.basicUser ≠ [] then trimSpace env.basicUser else a.username
        password := env.basicPass.getD a.password } := by
  obtain ⟨enabled, apiKey, header, username, password, passwordHash⟩ := a
  unfold override
  cases env.basicPass <;> by_cases hkey : trimSpace env.apiKey = [] <;>
    by_cases huser : trimSpace env.basicUser = [] <;> simp [hkey, huser]

def effective (hash : GoString → Option GoString) (env : Env) (a : AuthConfig) : AuthConfig :=
  ((a.normalize hash).override env).normalize hash

/-- Loading a section once more overrides its password once more, and nothing else. -/
theorem override_effective (env : Env) (a : AuthConfig) :
    (a.effective hash env).override env =
      { a.effective hash env with
        password := env.basicPass.getD (a.effective hash env).password } := by
  have henabled : (a.effective hash env).enabled = (a.enabled || trimSpace env.apiKey ≠ [] ||
      trimSpace env.basicUser ≠ [] || env.basicPass.isSome) := by
    simp only [effective, normalize_eq, override_eq]
  have hkey : (a.effective hash env).apiKey =
      if trimSpace env.apiKey ≠ [] then trimSpace env.apiKey else a.apiKey := by
    simp only [effective, normalize_eq, override_eq]
  have huser : (a.effective hash env).username =
      if trimSpace env.basicUser ≠ [] then trimSpace env.basicUser else a.username := by
    simp only [effective, normalize_eq, override_eq]
  rw [override_eq]
  congr 1
  · rw [henabled]
    cases a.enabled <;> cases env.basicPass <;> cases decide (trimSpace env.apiKey ≠ []) <;> simp
  · rw [hkey]
    split <;> rfl
  · rw [huser]
    split <;> rfl

theorem effective_settled (env : Env) (a : AuthConfig) : (a.effective hash env).Settled hash :=
  normalize_settled _

end AuthConfig

theorem load_eq_ok_iff {δ : Type} {yaml : Yaml δ} {env : Env} {data : δ} {cfg : Config} :
    load hash yaml env data = .ok cfg ↔
      ∃ raw, yaml.unmarshal data = .ok raw ∧
        validate hash
          { applyDefaults hash raw with auth := raw.auth.effective hash env } = .ok cfg := by
  simp only [load, bind_eq_ok, wrap_eq_ok]
  rfl

/-- What a load leaves in memory: the sections of the file with their defaults, the
effective authentication section and the priorities of the forwarding rules. -/
theorem load_ok {δ : Type} {yaml : Yaml δ} {env : Env} {data : δ} {cfg : Config}
    (h : load hash yaml env data = .ok cfg) :
    ∃ raw cf, yaml.unmarshal data = .ok raw ∧ raw.conditionalForwarding.validate = .ok cf ∧
      cfg = { applyDefaults hash raw with
        auth := raw.auth.effective hash env, conditionalForwarding := cf } := by
  obtain ⟨raw, hraw, hvalid⟩ := load_eq_ok_iff.mp h
  simp only [validate, bind_eq_ok, wrap_eq_ok, pure_eq_ok] at hvalid
  obtain ⟨-, -, -, -, -, -, auth, hauth, cf, hcf, rfl⟩ := hvalid
  refine ⟨raw, cf, hraw, hcf, ?_⟩
  rw [AuthConfig.validate_ok hauth (AuthConfig.effective_settled env raw.auth)]

theorem load_auth {δ : Type} {yaml : Yaml δ} {env : Env} {data : δ} {raw cfg : Config}
    (hraw : yaml.unmarshal data = .ok raw) (hload : load hash yaml env data = .ok cfg) :
    cfg.auth = raw.auth.effective hash env := by
  obtain ⟨raw', cf, hraw', -, rfl⟩ := load_ok hload
  rw [hraw] at hraw'
  cases hraw'
  rfl

end GloryHole.Config
