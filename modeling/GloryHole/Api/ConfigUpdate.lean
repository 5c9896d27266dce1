import GloryHole.Api.Features
import GloryHole.Go.Net
import GloryHole.Go.Utf8

/-!
# The configuration endpoints

Each endpoint makes the configuration to save from the current one and the request, saves it, and
has it loaded again.  Most copy the current configuration and save the copy as it is; the switches
and the local records work on a clone, and the latter validate it.

A body is what its decoding gives: the JSON decoder and `ParseForm` are not modelled.
-/

namespace GloryHole.Api

open Go
open Config (Config Env Yaml clone save validate AutocertConfig ACMEConfig TLSConfig
  ServerConfig CacheConfig LoggingConfig LocalRecordEntry)

/-- The standard library under the handlers: the case tables, the quoting of `%q`,
`time.ParseDuration`, `filepath.Clean`, the scheme of `url.Parse`, and the text of an error of
`net.SplitHostPort`. -/
structure Stdlib where
  lower : Nat → Nat
  upper : Nat → Nat
  quote : GoString → GoString
  parseDuration : GoString → Option Int
  clean : GoString → GoString
  scheme : GoString → Option GoString
  addrError : GoString → GoString

/-! ## Bodies -/

abbrev Form := List (GoString × GoString)

namespace Form

def value (f : Form) (key : String) : GoString :=
  ((f.find? (·.1 == lit key)).map (·.2)).getD []

def has (f : Form) (key : String) : Bool := f.any (·.1 == lit key)

def values (f : Form) (key : String) : List GoString :=
  (f.filter (·.1 == lit key)).map (·.2)

def trimmed (f : Form) (key : String) : GoString := trimSpace (f.value key)

end Form

inductive Body (α : Type) where
  | json (decoded : Except GoString α)
  | form (parsed : Except GoString Form)

def Body.decode {α : Type} (ofForm : Form → Except GoString α) : Body α → Except GoString α
  | .json decoded => wrap (lit "invalid JSON payload: ") decoded
  | .form parsed => do
      let f ← wrap (lit "invalid form payload: ") parsed
      ofForm f

/-! ## Fields -/

section

variable (lib : Stdlib)

def replaceCRLF : GoString → GoString
  | [] => []
  | b :: rest =>
    match rest with
    | [] => [b]
    | c :: more =>
      if b = 0x0D ∧ c = 0x0A then 0x0A :: replaceCRLF more else b :: replaceCRLF (c :: more)

def fieldsFunc (sep : UInt8 → Bool) : GoString → GoString → List GoString
  | field, [] => if field = [] then [] else [field]
  | field, b :: rest =>
    if sep b then
      if field = [] then fieldsFunc sep [] rest else field :: fieldsFunc sep [] rest
    else fieldsFunc sep (field ++ [b]) rest

def splitList (raw : GoString) : List GoString :=
  ((fieldsFunc (fun b => b = 0x0A || b = byte ',' || b = byte ';') [] (replaceCRLF raw)).map
    trimSpace).filter (· ≠ [])

def parseCheckbox (value : GoString) : Bool :=
  toLower lib.lower (trimSpace value) ∈ [lit "true", lit "1", lit "yes", lit "on"]

def isNumeric (value : GoString) : Bool := value ≠ [] && value.all isDigit

def parseDurationField (value : GoString) (field : String) : Except GoString Int := do
  let value := trimSpace value
  refuse (value = []) (lit field ++ lit " is required")
  let value := if isNumeric value then value ++ lit "s" else value
  let message := lit field ++ lit " must be a positive duration (e.g., 30s, 5m, 1h)"
  match lib.parseDuration value with
  | none => .error message
  | some d => if d ≤ 0 then .error message else .ok d

def validateFilePath (path : GoString) : Except GoString Unit :=
  refuse (contains (lib.clean path) (lit "..")) (lit "path traversal not allowed")

def requiredInt (f : Form) (field : String) (message : GoString) : Except GoString Int := do
  refuse (f.trimmed field = []) (lit field ++ lit " is required")
  match atoi (f.trimmed field) with
  | none => .error message
  | some n => .ok n

def required {α : Type} (field : String) : Option α → Except GoString α
  | none => .error (lit field ++ lit " is required")
  | some a => .ok a

/-- The entries of a list, trimmed, checked, and without those that were there in another
case; `seen` are the lower-cased entries so far. -/
def collect (check : GoString → Except GoString Unit) :
    List GoString → List GoString → Except GoString (List GoString)
  | _, [] => .ok []
  | seen, raw :: rest =>
    let entry := trimSpace raw
    if entry = [] then collect check seen rest
    else do
      check entry
      let lower := toLower lib.lower entry
      if lower ∈ seen then collect check seen rest
      else do
        let entries ← collect check (lower :: seen) rest
        pure (entry :: entries)

/-! ## Upstreams -/

structure UpstreamsRequest where
  servers : List GoString := []
  text : GoString := []
  deriving DecidableEq

def UpstreamsRequest.ofForm (f : Form) : Except GoString UpstreamsRequest :=
  .ok { servers := f.values "servers[]", text := f.value "servers" }

def checkServer (entry : GoString) : Except GoString Unit := do
  refuse (¬ containsByte entry (byte ':'))
    (lit "server " ++ lib.quote entry ++ lit " must include a port (e.g., 1.1.1.1:53)")
  refuse (splitHostPort entry = none)
    (lit "invalid upstream server " ++ lib.quote entry ++ lit ": " ++ lib.addrError entry)

def parseUpstreamServers (body : Body UpstreamsRequest) : Except GoString (List GoString) := do
  let req ← body.decode UpstreamsRequest.ofForm
  let candidates := (req.servers.map trimSpace).filter (· ≠ []) ++ splitList req.text
  refuse (candidates = []) (lit "at least one upstream DNS server is required")
  let result ← collect lib (checkServer lib) [] candidates
  refuse (result = []) (lit "at least one upstream DNS server is required")
  pure result

/-! ## Cache -/

structure CacheRequest where
  enabled : Option Bool := none
  maxEntries : Option Int := none
  minTTL : GoString := []
  maxTTL : GoString := []
  negativeTTL : GoString := []
  blockedTTL : GoString := []
  shardCount : Option Int := none
  deriving DecidableEq

def CacheRequest.ofForm (f : Form) : Except GoString CacheRequest := do
  let maxEntries ← requiredInt f "max_entries" (lit "max_entries must be a positive integer")
  let shardCount ← requiredInt f "shard_count" (lit "shard_count must be a non-negative integer")
  pure
    { enabled := some (f.value "enabled" ≠ [] && parseCheckbox lib (f.value "enabled"))
      maxEntries := some maxEntries
      minTTL := f.value "min_ttl"
      maxTTL := f.value "max_ttl"
      negativeTTL := f.value "negative_ttl"
      blockedTTL := f.value "blocked_ttl"
      shardCount := some shardCount }

def parseCachePayload (body : Body CacheRequest) (current : CacheConfig) :
    Except GoString CacheConfig := do
  let req ← body.decode (CacheRequest.ofForm lib)
  let maxEntries ← required "max_entries" req.maxEntries
  refuse (maxEntries ≤ 0) (lit "max_entries must be greater than zero")
  let minTTL ← parseDurationField lib req.minTTL "min_ttl"
  let maxTTL ← parseDurationField lib req.maxTTL "max_ttl"
  refuse (maxTTL < minTTL) (lit "max_ttl must be greater than or equal to min_ttl")
  let negativeTTL ← parseDurationField lib req.negativeTTL "negative_ttl"
  let blockedTTL ← parseDurationField lib req.blockedTTL "blocked_ttl"
  let shardCount ← required "shard_count" req.shardCount
  refuse (shardCount < 0) (lit "shard_count cannot be negative")
  pure
    { enabled := req.enabled.getD current.enabled
      maxEntries := maxEntries
      minTTL := minTTL
      maxTTL := maxTTL
      negativeTTL := negativeTTL
      blockedTTL := blockedTTL
      shardCount := shardCount }

/-! ## Logging -/

structure LoggingRequest where
  level : GoString := []
  format : GoString := []
  output : GoString := []
  filePath : GoString := []
  addSource : Option Bool := none
  maxSize : Option Int := none
  maxBackups : Option Int := none
  maxAge : Option Int := none
  deriving DecidableEq

def LoggingRequest.ofForm (f : Form) : Except GoString LoggingRequest := do
  let maxSize ← requiredInt f "max_size" (lit "max_size must be a positive integer")
  let maxBackups ← requiredInt f "max_backups" (lit "max_backups must be an integer")
  let maxAge ← requiredInt f "max_age" (lit "max_age must be an integer")
  pure
    { level := f.value "level"
      format := f.value "format"
      output := f.value "output"
      filePath := f.value "file_path"
      addSource := some (f.value "add_source" ≠ [] && parseCheckbox lib (f.value "add_source"))
      maxSize := some maxSize
      maxBackups := some maxBackups
      maxAge := some maxAge }

def parseLoggingPayload (body : Body LoggingRequest) (current : LoggingConfig) :
    Except GoString LoggingConfig := do
  let req ← body.decode (LoggingRequest.ofForm lib)
  let level := toLower lib.lower (trimSpace req.level)
  let format := toLower lib.lower (trimSpace req.format)
  let output := toLower lib.lower (trimSpace req.output)
  let filePath := trimSpace req.filePath
  let maxSize ← required "max_size" req.maxSize
  refuse (maxSize ≤ 0) (lit "max_size must be greater than zero")
  let maxBackups ← required "max_backups" req.maxBackups
  let maxAge ← required "max_age" req.maxAge
  refuse (level = []) (lit "level is required")
  refuse (level ∉ [lit "debug", lit "info", lit "warn", lit "error"])
    (lit "invalid log level " ++ lib.quote level)
  refuse (format = []) (lit "format is required")
  refuse (format ≠ lit "json" ∧ format ≠ lit "text") (lit "format must be 'json' or 'text'")
  refuse (output = []) (lit "output is required")
  refuse (output ∉ [lit "stdout", lit "stderr", lit "file"])
    (lit "output must be stdout, stderr, or file")
  refuse (output = lit "file" ∧ filePath = [])
    (lit "file_path is required when output is 'file'")
  refuse (maxBackups < 0) (lit "max_backups cannot be negative")
  refuse (maxAge < 0) (lit "max_age cannot be negative")
  pure
    { level := level
      format := format
      output := output
      filePath := filePath
      addSource := req.addSource.getD current.addSource
      maxSize := maxSize
      maxBackups := maxBackups
      maxAge := maxAge }

/-! ## DNS over TLS -/

structure TLSRequest where
  dotEnabled : Option Bool := none
  dotAddress : GoString := []
  certFile : GoString := []
  keyFile : GoString := []
  autocert : Option AutocertConfig := none
  acme : Option ACMEConfig := none
  deriving DecidableEq

def Form.orCurrent (f : Form) (key : String) (current : GoString) : GoString :=
  if f.trimmed key ≠ [] then f.trimmed key else current

def Form.listOrCurrent (f : Form) (key : String) (current : List GoString) : List GoString :=
  if f.trimmed key ≠ [] then splitList (f.trimmed key) else current

def Form.parsedOrCurrent {α : Type} (f : Form) (parse : GoString → Option α) (key : String)
    (current : α) : α :=
  if f.trimmed key ≠ [] then (parse (f.trimmed key)).getD current else current

def autocertOfForm (f : Form) (current : AutocertConfig) : AutocertConfig :=
  { enabled := parseCheckbox lib (f.value "autocert_enabled")
    hosts := f.listOrCurrent "autocert_hosts" current.hosts
    cacheDir := f.orCurrent "autocert_cache_dir" current.cacheDir
    email := f.orCurrent "autocert_email" current.email
    http01Address := f.orCurrent "autocert_http01_address" current.http01Address }

def acmeOfForm (f : Form) (current : ACMEConfig) : ACMEConfig :=
  let cf := current.cloudflare
  { enabled := parseCheckbox lib (f.value "acme_enabled")
    dnsProvider := f.orCurrent "acme_dns_provider" current.dnsProvider
    hosts := f.listOrCurrent "acme_hosts" current.hosts
    upstreams := f.listOrCurrent "acme_upstreams" current.upstreams
    cacheDir := f.orCurrent "acme_cache_dir" current.cacheDir
    email := f.orCurrent "acme_email" current.email
    renewBefore := f.parsedOrCurrent lib.parseDuration "acme_renew_before" current.renewBefore
    cloudflare :=
      { apiToken := f.orCurrent "acme_cf_api_token" cf.apiToken
        zoneID := f.orCurrent "acme_cf_zone_id" cf.zoneID
        ttl := f.parsedOrCurrent atoi "acme_cf_ttl" cf.ttl
        propagationTimeout :=
          f.parsedOrCurrent lib.parseDuration "acme_cf_propagation_timeout" cf.propagationTimeout
        pollingInterval :=
          f.parsedOrCurrent lib.parseDuration "acme_cf_polling_interval" cf.pollingInterval
        initialDelay :=
          f.parsedOrCurrent lib.parseDuration "acme_cf_initial_delay" cf.initialDelay
        skipAuthNSCheck :=
          if f.has "acme_cf_skip_auth_check" then
            parseCheckbox lib (f.value "acme_cf_skip_auth_check")
          else cf.skipAuthNSCheck } }

/-- The request of a form.  Each of its last two parts is there if one of two fields is. -/
def TLSRequest.ofForm (current : ServerConfig) (f : Form) : TLSRequest where
  dotEnabled :=
    if f.value "dot_enabled" ≠ [] then some (parseCheckbox lib (f.value "dot_enabled")) else none
  dotAddress := f.value "dot_address"
  certFile := f.value "cert_file"
  keyFile := f.value "key_file"
  autocert :=
    if f.has "autocert_enabled" || f.has "autocert_hosts" then
      some (autocertOfForm lib f current.tls.autocert)
    else none
  acme :=
    if f.has "acme_enabled" || f.has "acme_hosts" then some (acmeOfForm lib f current.tls.acme)
    else none

structure TLSPayload where
  dotEnabled : Bool
  dotAddress : GoString
  tls : TLSConfig
  deriving DecidableEq

def pathOrCurrent (path current : GoString) (message : GoString) : Except GoString GoString := do
  if trimSpace path ≠ [] then
    wrap message (validateFilePath lib path)
    pure path
  else pure current

def parseTLSPayload (body : Body TLSRequest) (current : ServerConfig) :
    Except GoString TLSPayload := do
  let req ← body.decode fun f => .ok (TLSRequest.ofForm lib current f)
  let certFile ← pathOrCurrent lib req.certFile current.tls.certFile
    (lit "invalid cert_file path: ")
  let keyFile ← pathOrCurrent lib req.keyFile current.tls.keyFile (lit "invalid key_file path: ")
  pure
    { dotEnabled := req.dotEnabled.getD current.dotEnabled
      dotAddress := if trimSpace req.dotAddress ≠ [] then req.dotAddress else current.dotAddress
      tls :=
        { certFile := certFile
          keyFile := keyFile
          autocert := req.autocert.getD current.tls.autocert
          acme := req.acme.getD current.tls.acme } }

/-! ## Block page and blocklists -/

structure BlockPageRequest where
  enabled : Bool := false
  blockIP : GoString := []
  deriving DecidableEq

def checkBlockPage (req : BlockPageRequest) : Except GoString Unit :=
  if req.enabled then do
    refuse (trimSpace req.blockIP = []) (lit "block_ip is required when block page is enabled")
    refuse (parseIP (trimSpace req.blockIP) = none) (lit "block_ip must be a valid IP address")
  else .ok ()

def checkSource (source : GoString) : Except GoString Unit :=
  refuse (lib.scheme source ≠ some (lit "http") ∧ lib.scheme source ≠ some (lit "https"))
    (lit "Invalid URL " ++ lib.quote source ++ lit ": must use http or https scheme")

/-! ## Local records -/

structure LocalRecordAddRequest where
  domain : GoString := []
  type : GoString := []
  target : GoString := []
  ips : List GoString := []
  txtRecords : List GoString := []
  ttl : UInt32 := 0
  priority : Option UInt16 := none
  weight : Option UInt16 := none
  port : Option UInt16 := none
  wildcard : Bool := false
  deriving DecidableEq

def checkIPs : List GoString → Except GoString Unit
  | [] => .ok ()
  | ip :: ips => do
      refuse (parseIP ip = none) (lit "Invalid IP address: " ++ ip)
      checkIPs ips

def newLocalRecord (req : LocalRecordAddRequest) : Except GoString LocalRecordEntry := do
  refuse (req.domain = []) (lit "Domain is required")
  refuse (req.type = []) (lit "Record type is required")
  let type := toUpper lib.upper req.type
  let req := if req.ttl = 0 then { req with ttl := 300 } else req
  let req ←
    if type = lit "A" ∨ type = lit "AAAA" then do
      refuse (req.ips = []) (lit "IPs are required for A/AAAA records")
      checkIPs req.ips
      pure req
    else if type = lit "CNAME" ∨ type = lit "PTR" then do
      refuse (req.target = []) (lit "Target is required for " ++ req.type ++ lit " records")
      pure req
    else if type = lit "MX" then do
      refuse (req.target = []) (lit "Target is required for MX records")
      pure { req with priority := some (req.priority.getD 10) }
    else if type = lit "SRV" then do
      refuse (req.target = []) (lit "Target is required for SRV records")
      refuse (req.priority = none ∨ req.weight = none ∨ req.port = none)
        (lit "Priority, weight, and port are required for SRV records")
      pure req
    else if type = lit "TXT" then do
      refuse (req.txtRecords = []) (lit "TXT records are required for TXT type")
      pure req
    else .error (lit "Unsupported record type: " ++ req.type)
  pure
    { domain := req.domain
      type := type
      target := req.target
      ips := req.ips
      txtRecords := req.txtRecords
      ttl := req.ttl
      priority := req.priority
      weight := req.weight
      port := req.port
      wildcard := req.wildcard }

/-! ## Endpoints -/

inductive UpdateRequest where
  | upstreams (body : Body UpstreamsRequest)
  | cache (body : Body CacheRequest)
  | logging (body : Body LoggingRequest)
  | tls (body : Body TLSRequest)
  | blockPage (body : Except GoString BlockPageRequest)
  | blocklists (body : Except GoString (List GoString))
  | features (body : Option FeaturesRequest)
  | addLocalRecord (body : Option LocalRecordAddRequest)
  | removeLocalRecord (id : GoString)

abbrev UpdateError := Nat × GoString

def badRequest {α : Type} : Except GoString α → Except UpdateError α
  | .ok a => .ok a
  | .error text => .error (400, text)

def updateUpstreams (body : Body UpstreamsRequest) (cfg : Config) : Except UpdateError Config := do
  let servers ← badRequest (parseUpstreamServers lib body)
  pure { cfg with upstreamDNSServers := servers }

def updateCache (body : Body CacheRequest) (cfg : Config) : Except UpdateError Config := do
  let cache ← badRequest (parseCachePayload lib body cfg.cache)
  pure { cfg with cache := cache }

def updateLogging (body : Body LoggingRequest) (cfg : Config) : Except UpdateError Config := do
  let logging ← badRequest (parseLoggingPayload lib body cfg.logging)
  if logging.filePath ≠ [] then
    badRequest (wrap (lit "Invalid log file path: ") (validateFilePath lib logging.filePath))
  pure { cfg with logging := logging }

def updateTLS (body : Body TLSRequest) (cfg : Config) : Except UpdateError Config := do
  let payload ← badRequest (parseTLSPayload lib body cfg.server)
  pure
    { cfg with
      server :=
        { cfg.server with
          dotEnabled := payload.dotEnabled
          dotAddress := payload.dotAddress
          tls := payload.tls } }

def updateBlockPage (body : Except GoString BlockPageRequest) (cfg : Config) :
    Except UpdateError Config := do
  let req ← badRequest (wrap (lit "Invalid request body: ") body)
  badRequest (checkBlockPage req)
  pure { cfg with blockPage := ⟨req.enabled, trimSpace req.blockIP⟩ }

def updateBlocklistSources (body : Except GoString (List GoString)) (cfg : Config) :
    Except UpdateError Config := do
  let sources ← badRequest (wrap (lit "Invalid JSON: ") body)
  let sources ← badRequest (collect lib (checkSource lib) [] sources)
  pure { cfg with blocklists := sources }

variable {δ : Type} (hash : GoString → Option GoString) (yaml : Yaml δ)

def featuresError {α : Type} (e : FeaturesError) : Except UpdateError α := .error e.statusAndMessage

def updateFeatures (body : Option FeaturesRequest) (cfg : Config) : Except UpdateError Config :=
  match body with
  | none => featuresError .invalidJSON
  | some req =>
    match clone hash yaml cfg with
    | .error _ => featuresError .failedToProcess
    | .ok cfg =>
      if req.blocklistEnabled = none ∧ req.policiesEnabled = none then
        featuresError .noChanges
      else .ok (req.apply cfg)

def mutateLocalRecords (mutator : Config → Except GoString Config) (cfg : Config) :
    Except GoString Config := do
  let cloned ← wrap (lit "failed to clone config: ") (clone hash yaml cfg)
  let cloned ← mutator cloned
  wrap (lit "config validation failed: ") (validate hash cloned)

def addRecord (entry : LocalRecordEntry) (cfg : Config) : Except GoString Config :=
  .ok { cfg with localRecords := ⟨cfg.localRecords.records ++ [entry], true⟩ }

def updateAddLocalRecord (body : Option LocalRecordAddRequest) (cfg : Config) :
    Except UpdateError Config :=
  match body with
  | none => .error (400, lit "Invalid JSON")
  | some req => do
      let entry ← badRequest (newLocalRecord lib req)
      match mutateLocalRecords hash yaml (addRecord entry) cfg with
      | .error _ => .error (500, lit "Failed to save record")
      | .ok cfg => .ok cfg

def recordID (entry : LocalRecordEntry) (idx : Nat) : GoString :=
  entry.domain ++ lit ":" ++ entry.type ++ lit ":" ++ itoa idx

/-- The records with their ids, by name and type; `sort.Slice` may order equal ones otherwise. -/
def handleGetLocalRecords (cfg : Config) : List (GoString × LocalRecordEntry) :=
  if cfg.localRecords.enabled then
    (cfg.localRecords.records.zipIdx.map fun (entry, idx) =>
      (recordID entry idx, entry)).insertionSort fun a b =>
        a.2.domain < b.2.domain ∨ a.2.domain = b.2.domain ∧ a.2.type ≤ b.2.type
  else []

/-- All records of the name and the type go, whatever the index in the id. -/
def removeRecord (domain type : GoString) (cfg : Config) : Except GoString Config :=
  let kept := cfg.localRecords.records.filter fun r => ¬ (r.domain = domain ∧ r.type = type)
  if kept.length = cfg.localRecords.records.length then .error (lit "record not found")
  else .ok { cfg with localRecords := { cfg.localRecords with records := kept } }

def updateRemoveLocalRecord (id : GoString) (cfg : Config) : Except UpdateError Config :=
  if id = [] then .error (400, lit "Record ID parameter required")
  else
    match splitByte (byte ':') id with
    | [domain, type, _] =>
      match mutateLocalRecords hash yaml (removeRecord domain type) cfg with
      | .error e =>
        if contains e (lit "not found") then .error (404, lit "Record not found")
        else .error (500, lit "Failed to remove record")
      | .ok cfg => .ok cfg
    | _ => .error (400, lit "Invalid record ID format")

def UpdateRequest.updated : UpdateRequest → Config → Except UpdateError Config
  | .upstreams body => updateUpstreams lib body
  | .cache body => updateCache lib body
  | .logging body => updateLogging lib body
  | .tls body => updateTLS lib body
  | .blockPage body => updateBlockPage body
  | .blocklists body => updateBlocklistSources lib body
  | .features body => updateFeatures hash yaml body
  | .addLocalRecord body => updateAddLocalRecord lib hash yaml body
  | .removeLocalRecord id => updateRemoveLocalRecord hash yaml id

def UpdateRequest.saveError (e : GoString) : UpdateRequest → UpdateError
  | .features _ => FeaturesError.failedToSave.statusAndMessage
  | .addLocalRecord _ => (500, lit "Failed to save record")
  | .removeLocalRecord _ =>
    if contains e (lit "not found") then (404, lit "Record not found")
    else (500, lit "Failed to remove record")
  | _ => (500, lit "Failed to save configuration: " ++ e)

variable (env : Env)

/-- An endpoint: a refused request changes nothing, and a file that does not load again is
still a success. -/
def ConfigState.update (s : ConfigState δ) (r : UpdateRequest) :
    ConfigState δ × Except UpdateError Config :=
  match r.updated lib hash yaml s.config with
  | .error e => (s, .error e)
  | .ok updated =>
    match save yaml updated with
    | .error e => (s, .error (r.saveError e))
    | .ok file => (ConfigState.reload hash yaml env { s with file := file }, .ok updated)

def ConfigState.next (s : ConfigState δ) (r : UpdateRequest) : ConfigState δ :=
  (s.update lib hash yaml env r).1

end

/-! ## Steps of an endpoint -/

section

variable {lib : Stdlib} {δ : Type} {hash : GoString → Option GoString} {yaml : Yaml δ} {env : Env}

/-- What a request that succeeds does to the file. -/
theorem ConfigState.update_ok {s s' : ConfigState δ} {r : UpdateRequest} {updated : Config}
    (h : s.update lib hash yaml env r = (s', .ok updated)) :
    r.updated lib hash yaml s.config = .ok updated ∧
      ∃ file, save yaml updated = .ok file ∧
        s' = ConfigState.reload hash yaml env { s with file := file } := by
  unfold update at h
  cases hupdated : r.updated lib hash yaml s.config with
  | error e =>
    rw [hupdated] at h
    cases h
  | ok cfg =>
    rw [hupdated] at h
    cases hsave : save yaml cfg with
    | error e =>
      simp only [hsave] at h
      cases h
    | ok file =>
      simp only [hsave] at h
      cases h
      exact ⟨rfl, file, hsave, rfl⟩

/-- A request that is refused changes neither the configuration nor the file. -/
theorem ConfigState.update_error {s s' : ConfigState δ} {r : UpdateRequest} {e : UpdateError}
    (h : s.update lib hash yaml env r = (s', .error e)) : s' = s := by
  unfold update at h
  split at h
  · cases h
    rfl
  · split at h
    · cases h
      rfl
    · cases h

@[simp] theorem ConfigState.reload_file (s : ConfigState δ) :
    (ConfigState.reload hash yaml env s).file = s.file := by
  unfold reload
  split <;> rfl

end

end GloryHole.Api
