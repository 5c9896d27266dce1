import GloryHole.Config.Types

/-!
# Loading and saving a configuration

`applyDefaults`, the environment overrides, `Validate` and the three functions built
from them.  The YAML codec and bcrypt are third-party code: a codec is a structure over
an arbitrary type of documents, the hash a function that can fail.
-/

set_option linter.dupNamespace false

namespace GloryHole.Config

open Go

/-! ## Defaults -/

def orText (s default : GoString) : GoString := if s = [] then default else s

def orInt (n default : Int) : Int := if n = 0 then default else n

def second : Int := 1000000000
def minute : Int := 60 * second
def hour : Int := 60 * minute

section

variable (hash : GoString → Option GoString)

/-- `migratePasswordToHash`: a failed hash keeps the plain text. -/
def AuthConfig.migratePasswordToHash (a : AuthConfig) : AuthConfig :=
  match hash a.password with
  | none => a
  | some h => { a with passwordHash := h, password := [] }

def AuthConfig.normalize (a : AuthConfig) : AuthConfig :=
  let a := if trimSpace a.header = [] then { a with header := lit "Authorization" } else a
  if a.password ≠ [] ∧ a.passwordHash = [] then a.migratePasswordToHash hash else a

end

def CFConfig.applyDefaults (c : CFConfig) : CFConfig :=
  { c with
    ttl := orInt c.ttl 120
    propagationTimeout := orInt c.propagationTimeout (2 * minute)
    pollingInterval := orInt c.pollingInterval (2 * second)
    initialDelay := orInt c.initialDelay (10 * second) }

/-- The resolvers are inherited from `upstreams`, the global list as it is then. -/
def ACMEConfig.applyDefaults (upstreams : List GoString) (a : ACMEConfig) : ACMEConfig :=
  { a with
    cacheDir := orText a.cacheDir (lit "./.cache/acme")
    renewBefore := orInt a.renewBefore (30 * 24 * hour)
    upstreams := if a.upstreams = [] then upstreams else a.upstreams
    cloudflare := a.cloudflare.applyDefaults }

def TLSConfig.applyDefaults (upstreams : List GoString) (t : TLSConfig) : TLSConfig :=
  { t with
    autocert :=
      { t.autocert with http01Address := orText t.autocert.http01Address (lit ":80") }
    acme := t.acme.applyDefaults upstreams }

/-- Two switches that are both off are both switched on. -/
def ServerConfig.applyDefaults (upstreams : List GoString) (s : ServerConfig) :
    ServerConfig :=
  let noTransport := !s.tcpEnabled && !s.udpEnabled
  let noFeature := !s.enableBlocklist && !s.enablePolicies
  { s with
    listenAddress := orText s.listenAddress (lit ":53")
    tcpEnabled := if noTransport then true else s.tcpEnabled
    udpEnabled := if noTransport then true else s.udpEnabled
    webUIAddress := orText s.webUIAddress (lit ":8080")
    dotAddress := orText s.dotAddress (lit ":853")
    tls := s.tls.applyDefaults upstreams
    enableBlocklist := if noFeature then true else s.enableBlocklist
    enablePolicies := if noFeature then true else s.enablePolicies }

def defaultUpstreams : List GoString := [lit "1.1.1.1:53", lit "8.8.8.8:53"]

def SQLiteConfig.applyDefaults (s : SQLiteConfig) : SQLiteConfig :=
  { s with
    path := orText s.path (lit "./glory-hole.db")
    busyTimeout := orInt s.busyTimeout 5000
    cacheSize := orInt s.cacheSize 4096
    mmapSize := orInt s.mmapSize 33554432
    -- whatever was configured
    walMode := true }

def DatabaseConfig.applyDefaults (d : DatabaseConfig) : DatabaseConfig :=
  { d with
    backend := orText d.backend (lit "sqlite")
    sqlite := d.sqlite.applyDefaults
    bufferSize := orInt d.bufferSize 500
    flushInterval := orInt d.flushInterval (5 * second)
    batchSize := orInt d.batchSize 100
    retentionDays := orInt d.retentionDays 7
    statistics :=
      { d.statistics with aggregationInterval := orInt d.statistics.aggregationInterval hour } }

def CacheConfig.applyDefaults (c : CacheConfig) : CacheConfig :=
  { c with
    maxEntries := orInt c.maxEntries 10000
    minTTL := orInt c.minTTL (60 * second)
    maxTTL := orInt c.maxTTL (24 * hour)
    negativeTTL := orInt c.negativeTTL (5 * minute)
    blockedTTL := orInt c.blockedTTL second }

def LoggingConfig.applyDefaults (l : LoggingConfig) : LoggingConfig :=
  { l with
    level := orText l.level (lit "info")
    format := orText l.format (lit "text")
    output := orText l.output (lit "stdout")
    maxSize := orInt l.maxSize 100
    maxBackups := orInt l.maxBackups 3
    maxAge := orInt l.maxAge 7 }

def TelemetryConfig.applyDefaults (t : TelemetryConfig) : TelemetryConfig :=
  { t with
    serviceName := orText t.serviceName (lit "glory-hole")
    serviceVersion := orText t.serviceVersion (lit "dev")
    prometheusPort := orInt t.prometheusPort 9090 }

def UnboundConfig.applyDefaults (u : UnboundConfig) : UnboundConfig :=
  { u with
    configPath := orText u.configPath (lit "/etc/unbound/unbound.conf")
    controlSocket := orText u.controlSocket (lit "/var/run/unbound/control.sock")
    listenPort := orInt u.listenPort 5353 }

section

variable (hash : GoString → Option GoString)

/-- `applyDefaults`.  The server section is filled before the global upstreams are. -/
def applyDefaults (c : Config) : Config :=
  { c with
    server := c.server.applyDefaults c.upstreamDNSServers
    upstreamDNSServers :=
      if c.upstreamDNSServers = [] then defaultUpstreams else c.upstreamDNSServers
    updateInterval := orInt c.updateInterval (24 * hour)
    database := c.database.applyDefaults
    cache := c.cache.applyDefaults
    logging := c.logging.applyDefaults
    telemetry := c.telemetry.applyDefaults
    unbound := c.unbound.applyDefaults
    auth := c.auth.normalize hash }

/-! ## The environment -/

/-- The three variables that override the authentication section: an unset one reads as
the empty text, except for the password, which counts as soon as it is set. -/
structure Env where
  apiKey : GoString := []
  basicUser : GoString := []
  basicPass : Option GoString := none
  deriving DecidableEq

def AuthConfig.override (env : Env) (a : AuthConfig) : AuthConfig :=
  let key := trimSpace env.apiKey
  let a := if key ≠ [] then { a with apiKey := key, enabled := true } else a
  let user := trimSpace env.basicUser
  let a := if user ≠ [] then { a with username := user, enabled := true } else a
  match env.basicPass with
  | some pass => { a with password := pass, enabled := true }
  | none => a

def applyEnvOverrides (env : Env) (c : Config) : Config :=
  { c with auth := (c.auth.override env).normalize hash }

/-! ## Validation -/

def TLSConfig.validate (t : TLSConfig) : Except GoString Unit := do
  let noCert := trimSpace t.certFile = []
  let noKey := trimSpace t.keyFile = []
  let certSet := ¬ noCert ∨ ¬ noKey
  refuse (certSet ∧ (noCert ∨ noKey))
    (lit "tls.cert_file and tls.key_file must both be set when providing manual certificates")
  if t.autocert.enabled then
    refuse (t.autocert.hosts = []) (lit "tls.autocert.hosts must be set when autocert is enabled")
    refuse (trimSpace t.autocert.http01Address = [])
      (lit "tls.autocert.http01_address must be set when autocert is enabled")
  refuse (¬ certSet ∧ ¬ t.autocert.enabled ∧ ¬ t.acme.enabled)
    (lit "DoT requires TLS: provide cert/key, autocert, or acme.dns_provider")
  if t.acme.enabled then
    refuse (t.acme.hosts = []) (lit "tls.acme.hosts must be set when ACME is enabled")
    refuse (t.acme.dnsProvider ≠ lit "cloudflare")
      (lit "tls.acme.dns_provider must be 'cloudflare' (only provider supported)")
    refuse (0 < t.acme.cloudflare.ttl ∧ t.acme.cloudflare.ttl < 120)
      (lit "tls.acme.cloudflare.ttl must be >= 120 seconds")
    refuse (t.acme.cloudflare.propagationTimeout < 0)
      (lit "tls.acme.cloudflare.propagation_timeout must be >= 0")
    refuse (t.acme.cloudflare.pollingInterval < 0)
      (lit "tls.acme.cloudflare.polling_interval must be >= 0")

def ServerConfig.validate (s : ServerConfig) : Except GoString Unit := do
  refuse (s.listenAddress = []) (lit "server.listen_address cannot be empty")
  refuse (¬ s.tcpEnabled ∧ ¬ s.udpEnabled) (lit "at least one of TCP or UDP must be enabled")
  if s.dotEnabled then
    refuse (trimSpace s.dotAddress = [])
      (lit "server.dot_address cannot be empty when DoT is enabled")
    s.tls.validate

def LoggingConfig.validate (l : LoggingConfig) : Except GoString Unit := do
  refuse (l.level ∉ [lit "debug", lit "info", lit "warn", lit "error"])
    (lit "invalid logging level: " ++ l.level ++ lit " (must be debug, info, warn, or error)")
  refuse (l.format ≠ lit "json" ∧ l.format ≠ lit "text")
    (lit "invalid logging format: " ++ l.format ++ lit " (must be json or text)")
  refuse (l.output ∉ [lit "stdout", lit "stderr", lit "file"])
    (lit "invalid logging output: " ++ l.output ++ lit " (must be stdout, stderr, or file)")
  refuse (l.output = lit "file" ∧ l.filePath = [])
    (lit "logging.file_path must be set when output is 'file'")

def AuthConfig.validate (a : AuthConfig) : Except GoString AuthConfig :=
  if a.enabled then do
    let a := a.normalize hash
    let hasAPIKey := trimSpace a.apiKey ≠ []
    let hasCredentials := a.username ≠ [] ∧ (a.password ≠ [] ∨ a.passwordHash ≠ [])
    refuse (¬ hasAPIKey ∧ ¬ hasCredentials)
      (lit "auth requires api_key or username/password when enabled")
    pure a
  else pure a

def configError (field message : GoString) : GoString :=
  lit "config validation error: " ++ field ++ lit ": " ++ message

def ForwardingRule.validate (r : ForwardingRule) : Except GoString ForwardingRule := do
  refuse (r.name = []) (configError (lit "name") (lit "rule name cannot be empty"))
  refuse (r.upstreams = [])
    (configError (lit "upstreams") (lit "at least one upstream is required"))
  refuse ([] ∈ r.upstreams) (configError (lit "upstreams") (lit "upstream cannot be empty"))
  let r := { r with priority := orInt r.priority 50 }
  refuse (r.priority < 1 ∨ r.priority > 100)
    (configError (lit "priority") (lit "priority must be between 1 and 100"))
  refuse (r.domains = [] ∧ r.clientCIDRs = [] ∧ r.queryTypes = [])
    (configError (lit "rules")
      (lit "at least one matching condition required (domains, client_cidrs, or query_types)"))
  pure r

def validateRules : List ForwardingRule → Except GoString (List ForwardingRule)
  | [] => pure []
  | r :: rules => do
      let r ← r.validate
      let rules ← validateRules rules
      pure (r :: rules)

def ConditionalForwardingConfig.validate (c : ConditionalForwardingConfig) :
    Except GoString ConditionalForwardingConfig :=
  if c.enabled then do
    let rules ← validateRules c.rules
    pure { c with rules := rules }
  else pure c

/-- `Validate`: the configuration as the checks leave it, or the first complaint. -/
def validate (c : Config) : Except GoString Config := do
  c.server.validate
  refuse (c.upstreamDNSServers = [])
    (lit "at least one upstream DNS server must be configured")
  c.logging.validate
  let auth ← c.auth.validate hash
  let conditionalForwarding ←
    wrap (lit "conditional_forwarding validation failed: ") c.conditionalForwarding.validate
  pure { c with auth := auth, conditionalForwarding := conditionalForwarding }

/-! ## Documents -/

structure Yaml (δ : Type) where
  marshal : Config → Except GoString δ
  unmarshal : δ → Except GoString Config

def Yaml.Faithful {δ : Type} (yaml : Yaml δ) : Prop :=
  ∀ c, ∃ data, yaml.marshal c = .ok data ∧ yaml.unmarshal data = .ok c

variable {δ : Type} (yaml : Yaml δ)

def load (env : Env) (data : δ) : Except GoString Config := do
  let cfg ← wrap (lit "failed to parse config YAML: ") (yaml.unmarshal data)
  let cfg := applyDefaults hash cfg
  let cfg := applyEnvOverrides hash env cfg
  wrap (lit "config validation failed: ") (validate hash cfg)

def loadWithDefaults (env : Env) : Config :=
  applyEnvOverrides hash env (applyDefaults hash {})

def clone (c : Config) : Except GoString Config := do
  let data ← wrap (lit "failed to marshal config for cloning: ") (yaml.marshal c)
  let clone ← wrap (lit "failed to unmarshal config clone: ") (yaml.unmarshal data)
  let clone := applyDefaults hash clone
  pure { clone with auth := clone.auth.normalize hash }

def save (c : Config) : Except GoString δ :=
  wrap (lit "failed to marshal config: ") (yaml.marshal c)

end

end GloryHole.Config
