import GloryHole.Go.Strings

/-!
# The configuration structs

Field for field the structs of `pkg/config` and the storage section they embed.
Strings are byte strings, integers and durations (in nanoseconds) are `Int`, and a
pointer that means "absent" when nil is an `Option`.  A nil slice and an empty one
are both `[]`: no modelled function tells them apart.
-/

set_option linter.dupNamespace false

namespace GloryHole.Config

open Go

structure CircuitBreakerConfig where
  enabled : Bool := false
  failureThreshold : Int := 0
  successThreshold : Int := 0
  timeoutSeconds : Int := 0
  deriving DecidableEq

structure ForwarderConfig where
  circuitBreaker : CircuitBreakerConfig := {}
  servfailTCPRetry : Option Bool := none
  deriving DecidableEq

def ForwarderConfig.servfailTCPRetryEnabled (f : ForwarderConfig) : Bool :=
  f.servfailTCPRetry.getD true

structure UnboundConfig where
  binaryPath : GoString := []
  configPath : GoString := []
  controlSocket : GoString := []
  listenPort : Int := 0
  enabled : Bool := false
  managed : Bool := false
  deriving DecidableEq

structure QueryLoggerConfig where
  enabled : Bool := false
  bufferSize : Int := 0
  workers : Int := 0
  deriving DecidableEq

structure AutocertConfig where
  enabled : Bool := false
  hosts : List GoString := []
  cacheDir : GoString := []
  email : GoString := []
  http01Address : GoString := []
  deriving DecidableEq

structure CFConfig where
  apiToken : GoString := []
  zoneID : GoString := []
  ttl : Int := 0
  propagationTimeout : Int := 0
  pollingInterval : Int := 0
  initialDelay : Int := 0
  skipAuthNSCheck : Bool := false
  deriving DecidableEq

structure ACMEConfig where
  enabled : Bool := false
  dnsProvider : GoString := []
  hosts : List GoString := []
  upstreams : List GoString := []
  cacheDir : GoString := []
  email : GoString := []
  renewBefore : Int := 0
  cloudflare : CFConfig := {}
  deriving DecidableEq

structure TLSConfig where
  certFile : GoString := []
  keyFile : GoString := []
  autocert : AutocertConfig := {}
  acme : ACMEConfig := {}
  deriving DecidableEq

structure ServerConfig where
  listenAddress : GoString := []
  udpListenAddress : GoString := []
  tcpListenAddress : GoString := []
  webUIAddress : GoString := []
  tcpEnabled : Bool := false
  udpEnabled : Bool := false
  enableBlocklist : Bool := false
  enablePolicies : Bool := false
  decisionTrace : Bool := false
  corsAllowedOrigins : List GoString := []
  dotEnabled : Bool := false
  dotAddress : GoString := []
  allowedClients : List GoString := []
  proxyProtocol : Bool := false
  tls : TLSConfig := {}
  queryLogger : QueryLoggerConfig := {}
  trustedProxies : List GoString := []
  deriving DecidableEq

structure AuthConfig where
  enabled : Bool := false
  apiKey : GoString := []
  header : GoString := []
  username : GoString := []
  password : GoString := []
  passwordHash : GoString := []
  deriving DecidableEq

structure BlockPageConfig where
  enabled : Bool := false
  blockIP : GoString := []
  deriving DecidableEq

structure CacheConfig where
  enabled : Bool := false
  maxEntries : Int := 0
  minTTL : Int := 0
  maxTTL : Int := 0
  negativeTTL : Int := 0
  blockedTTL : Int := 0
  shardCount : Int := 0
  deriving DecidableEq

structure LocalRecordEntry where
  caaFlag : Option UInt8 := none
  priority : Option UInt16 := none
  weight : Option UInt16 := none
  port : Option UInt16 := none
  expire : Option UInt32 := none
  minttl : Option UInt32 := none
  refresh : Option UInt32 := none
  retry : Option UInt32 := none
  serial : Option UInt32 := none
  caaTag : GoString := []
  caaValue : GoString := []
  mbox : GoString := []
  ns : GoString := []
  target : GoString := []
  type : GoString := []
  domain : GoString := []
  txtRecords : List GoString := []
  ips : List GoString := []
  ttl : UInt32 := 0
  wildcard : Bool := false
  deriving DecidableEq

structure LocalRecordsConfig where
  records : List LocalRecordEntry := []
  enabled : Bool := false
  deriving DecidableEq

structure PolicyRuleEntry where
  name : GoString := []
  logic : GoString := []
  action : GoString := []
  actionData : GoString := []
  enabled : Bool := false
  deriving DecidableEq

structure PolicyConfig where
  rules : List PolicyRuleEntry := []
  enabled : Bool := false
  deriving DecidableEq

structure ForwardingRule where
  name : GoString := []
  domains : List GoString := []
  clientCIDRs : List GoString := []
  queryTypes : List GoString := []
  upstreams : List GoString := []
  priority : Int := 0
  enabled : Bool := false
  deriving DecidableEq

structure ConditionalForwardingConfig where
  rules : List ForwardingRule := []
  enabled : Bool := false
  deriving DecidableEq

structure LoggingConfig where
  level : GoString := []
  format : GoString := []
  output : GoString := []
  filePath : GoString := []
  addSource : Bool := false
  maxSize : Int := 0
  maxBackups : Int := 0
  maxAge : Int := 0
  deriving DecidableEq

structure TelemetryConfig where
  serviceName : GoString := []
  serviceVersion : GoString := []
  tracingEndpoint : GoString := []
  prometheusPort : Int := 0
  enabled : Bool := false
  prometheusEnabled : Bool := false
  tracingEnabled : Bool := false
  metricsUsername : GoString := []
  metricsPassword : GoString := []
  deriving DecidableEq

structure SQLiteConfig where
  path : GoString := []
  busyTimeout : Int := 0
  walMode : Bool := false
  cacheSize : Int := 0
  mmapSize : Int := 0
  deriving DecidableEq

structure StatisticsConfig where
  enabled : Bool := false
  aggregationInterval : Int := 0
  deriving DecidableEq

structure DatabaseConfig where
  backend : GoString := []
  sqlite : SQLiteConfig := {}
  statistics : StatisticsConfig := {}
  bufferSize : Int := 0
  flushInterval : Int := 0
  batchSize : Int := 0
  retentionDays : Int := 0
  enabled : Bool := false
  deriving DecidableEq

/-- The whole configuration.  The zero value `{}` is Go's zero value. -/
structure Config where
  telemetry : TelemetryConfig := {}
  server : ServerConfig := {}
  policy : PolicyConfig := {}
  auth : AuthConfig := {}
  localRecords : LocalRecordsConfig := {}
  conditionalForwarding : ConditionalForwardingConfig := {}
  forwarder : ForwarderConfig := {}
  upstreamDNSServers : List GoString := []
  blocklists : List GoString := []
  whitelist : List GoString := []
  logging : LoggingConfig := {}
  database : DatabaseConfig := {}
  cache : CacheConfig := {}
  blockPage : BlockPageConfig := {}
  unbound : UnboundConfig := {}
  updateInterval : Int := 0
  autoUpdateBlocklists : Bool := false
  deriving DecidableEq

end GloryHole.Config
