import GloryHole.Go.Net
import GloryHole.Support.Directives
import GloryHole.Unbound.Config

/-!
# unbound.conf

`SanitizeConfig`, the template of `unbound.conf` line by line, and `WriteConfig`.  The faults
of the file system are left out.
-/

namespace GloryHole.Unbound

open Go Support.Directives

/-! ## Checks -/

def isHex (b : UInt8) : Bool :=
  isDigit b || byte 'a' ≤ b && b ≤ byte 'f' || byte 'A' ≤ b && b ≤ byte 'F'
def isAlnum (b : UInt8) : Bool :=
  isDigit b || byte 'a' ≤ b && b ≤ byte 'z' || byte 'A' ≤ b && b ≤ byte 'Z'

/-- `^[…]+$`. -/
def allOf (cls : UInt8 → Bool) (s : GoString) : Bool := s != [] && s.all cls

def validNetblock : GoString → Bool := allOf fun b => isHex b || b ∈ lit ".:/%"

def aclActions : List GoString :=
  [lit "allow", lit "deny", lit "refuse", lit "allow_snoop", lit "allow_setrd",
    lit "allow_cookie", lit "deny_non_local", lit "refuse_non_local"]

def validACLAction (s : GoString) : Bool := s ∈ aclActions

-- The optional dot at the end of the pattern is in the class before it.
def validDomainName : GoString → Bool := allOf fun b => isAlnum b || b ∈ lit "._-"

def validAddr : GoString → Bool := allOf fun b => isHex b || b ∈ lit ".:@#%"

/-- `^[0-9]+[kmgKMG]?$`. -/
def validCacheSize (s : GoString) : Bool :=
  allOf isDigit (s.takeWhile isDigit) &&
    match s.dropWhile isDigit with
    | [] => true
    | [unit] => unit ∈ lit "kmgKMG"
    | _ => false

def validPrivateAddr : GoString → Bool := allOf fun b => isHex b || b ∈ lit ".:/%"

def illegal : List UInt8 := [newline, 0x0D, doubleQuote, backslash]

/-- `quote` is the quoting of the `%q` of a message. -/
def sanitizeField (quote : GoString → GoString) (name value : GoString)
    (pattern : GoString → Bool) : Except GoString Unit := do
  refuse (value.any (· ∈ illegal))
    (name ++ lit " contains illegal characters (newline, quote, or backslash)")
  refuse (value.length > 512) (name ++ lit " exceeds maximum length (512)")
  refuse (¬ pattern value) (name ++ lit " contains invalid characters: " ++ quote value)

def forEach {α : Type} (check : Nat → α → Except GoString Unit) :
    Nat → List α → Except GoString Unit
  | _, [] => .ok ()
  | i, x :: xs => do
      check i x
      forEach check (i + 1) xs

def indexed (list : String) (i : Nat) : GoString := lit list ++ lit "[" ++ itoa i ++ lit "]"

def sanitizeACL (quote : GoString → GoString) (i : Nat) (acl : ACLEntry) :
    Except GoString Unit := do
  sanitizeField quote (indexed "access_control" i ++ lit ".netblock") acl.netblock validNetblock
  sanitizeField quote (indexed "access_control" i ++ lit ".action") acl.action validACLAction

def sanitizeForwardZone (quote : GoString → GoString) (i : Nat) (fz : ForwardZone) :
    Except GoString Unit := do
  sanitizeField quote (indexed "forward_zone" i ++ lit ".name") fz.name validDomainName
  forEach (fun j addr =>
    sanitizeField quote (indexed "forward_zone" i ++ indexed ".forward_addr" j) addr validAddr)
    0 fz.forwardAddrs

def sanitizeStubZone (quote : GoString → GoString) (i : Nat) (sz : StubZone) :
    Except GoString Unit := do
  sanitizeField quote (indexed "stub_zone" i ++ lit ".name") sz.name validDomainName
  forEach (fun j addr =>
    sanitizeField quote (indexed "stub_zone" i ++ indexed ".stub_addr" j) addr validAddr)
    0 sz.stubAddrs

def sanitizeCacheSize (quote : GoString → GoString) (name : String) (value : GoString) :
    Except GoString Unit :=
  if value ≠ [] then sanitizeField quote (lit name) value validCacheSize else .ok ()

def sanitizeConfig (quote : GoString → GoString) (cfg : UnboundServerConfig) :
    Except GoString Unit := do
  forEach (sanitizeACL quote) 0 cfg.server.accessControl
  forEach (fun i d => sanitizeField quote (indexed "domain_insecure" i) d validDomainName)
    0 (cfg.server.domainInsecure.getD [])
  forEach (fun i p => sanitizeField quote (indexed "private_address" i) p validPrivateAddr)
    0 cfg.server.privateAddress
  forEach (sanitizeForwardZone quote) 0 cfg.forwardZones
  forEach (sanitizeStubZone quote) 0 cfg.stubZones
  sanitizeCacheSize quote "msg_cache_size" cfg.server.msgCacheSize
  sanitizeCacheSize quote "rrset_cache_size" cfg.server.rrsetCacheSize
  sanitizeCacheSize quote "key_cache_size" cfg.server.keyCacheSize

/-! ## The template -/

def yesno (b : Bool) : GoString := if b then lit "yes" else lit "no"

def top (text : String) : Line := .comment 0 (lit text)
def note (text : String) : Line := .comment 4 (lit text)
def clause (name : String) : Line := .entry 0 ⟨lit name, []⟩

def slot (name : String) (value : GoString) : Line := .entry 4 ⟨lit name, [.bare value]⟩
def quotedSlot (name : String) (value : GoString) : Line :=
  .entry 4 ⟨lit name, [.quoted doubleQuote value]⟩

def flag (name : String) (value : Bool) : Line := slot name (yesno value)
def number (name : String) (value : Int) : Line := slot name (itoa value)

def positive (name : String) (value : Int) : List Line :=
  if 0 < value then [number name value] else []

def headerLines : List Line :=
  [top " Glory-Hole managed unbound.conf",
    top " This file is generated by the Unbound config model.",
    top " Manual edits will be overwritten on next save.",
    .blank]

def networkLines (s : ServerBlock) : List Line :=
  [clause "server",
    note " Process",
    flag "do-daemonize" false,
    quotedSlot "username" [],
    quotedSlot "chroot" [],
    quotedSlot "directory" (lit "/etc/unbound"),
    quotedSlot "logfile" [],
    quotedSlot "pidfile" [],
    .blank,
    note " Network",
    slot "interface" s.interface,
    number "port" s.port,
    flag "do-ip4" true,
    flag "do-udp" true,
    flag "do-tcp" true,
    flag "do-ip6" false,
    flag "prefer-ip6" false,
    .blank,
    note " Access control"] ++
  s.accessControl.flatMap (fun acl =>
    [Line.entry 4 ⟨lit "access-control", [.bare acl.netblock, .bare acl.action]⟩]) ++
  [Line.blank]

def dnssecLines (s : ServerBlock) : List Line :=
  [note " DNSSEC",
    quotedSlot "module-config" s.moduleConfig] ++
  (if s.autoTrustAnchor ≠ [] then [slot "auto-trust-anchor-file" s.autoTrustAnchor] else []) ++
  [flag "harden-glue" s.hardenGlue,
    flag "harden-dnssec-stripped" s.hardenDNSSEC,
    flag "harden-below-nxdomain" s.hardenBelowNX,
    flag "harden-algo-downgrade" s.hardenAlgoDown,
    flag "qname-minimisation" s.qnameMin,
    flag "aggressive-nsec" s.aggressiveNSEC,
    flag "val-clean-additional" true,
    flag "val-permissive-mode" false,
    flag "ede" true,
    flag "ede-serve-expired" true] ++
  (s.domainInsecure.getD []).flatMap (fun d => [quotedSlot "domain-insecure" d]) ++
  [Line.blank]

def privacyLines (s : ServerBlock) : List Line :=
  [note " Privacy",
    flag "use-caps-for-id" false,
    flag "rrset-roundrobin" true,
    flag "hide-identity" s.hideIdentity,
    flag "hide-version" s.hideVersion,
    flag "minimal-responses" s.minimalResponses,
    .blank,
    note " Private addresses"] ++
  s.privateAddress.flatMap (fun p => [slot "private-address" p]) ++
  [Line.blank]

def cacheLines (s : ServerBlock) : List Line :=
  [note " Cache",
    slot "key-cache-size" s.keyCacheSize,
    slot "msg-cache-size" s.msgCacheSize,
    slot "rrset-cache-size" s.rrsetCacheSize,
    number "cache-min-ttl" s.cacheMinTTL,
    number "cache-max-negative-ttl" s.cacheMaxNegTTL] ++
  positive "cache-max-ttl" s.cacheMaxTTL ++
  [Line.blank,
    note " Prefetch",
    flag "prefetch" s.prefetch,
    flag "prefetch-key" s.prefetchKey,
    .blank,
    note " Serve stale",
    flag "serve-expired" s.serveExpired,
    number "serve-expired-ttl" s.serveExpiredTTL] ++
  positive "serve-expired-client-timeout" s.serveExpiredClientTimeout ++
  [Line.blank]

def performanceLines (s : ServerBlock) : List Line :=
  [note " Performance",
    number "num-threads" s.numThreads] ++
  positive "edns-buffer-size" s.ednsBufferSize ++
  [flag "so-reuseport" s.soReusePort] ++
  positive "outgoing-range" s.outgoingRange ++
  positive "num-queries-per-thread" s.numQueriesPerThread ++
  [quotedSlot "target-fetch-policy" (lit "3 2 1 0 0"),
    slot "so-sndbuf" (lit "4m"),
    slot "so-rcvbuf" (lit "4m"),
    number "jostle-timeout" 200,
    .blank]

def loggingLines (s : ServerBlock) : List Line :=
  [note " Logging",
    number "verbosity" s.verbosity,
    flag "log-queries" s.logQueries,
    flag "log-replies" s.logReplies,
    flag "log-servfail" s.logServfail,
    flag "log-time-ascii" true,
    .blank,
    note " Statistics",
    flag "extended-statistics" s.extendedStatistics,
    number "statistics-interval" 0,
    flag "statistics-cumulative" s.statisticsCumulative] ++
  (if s.tlsCertBundle ≠ [] then [note " TLS", slot "tls-cert-bundle" s.tlsCertBundle] else []) ++
  (if s.rootHints ≠ [] then [note " Root hints", slot "root-hints" s.rootHints] else []) ++
  [Line.blank]

def remoteControlLines (rc : RemoteControl) : List Line :=
  [top " Remote control",
    clause "remote-control",
    flag "control-enable" rc.enabled,
    slot "control-interface" rc.controlInterface,
    flag "control-use-cert" rc.controlUseCert]

def dnstapLines (d : DnstapConfig) : List Line :=
  if d.enabled then
    [Line.blank,
      top " dnstap (structured binary query/response logging)",
      clause "dnstap",
      flag "dnstap-enable" true,
      quotedSlot "dnstap-socket-path" d.socketPath,
      flag "dnstap-send-identity" d.sendIdentity,
      flag "dnstap-send-version" d.sendVersion,
      flag "dnstap-log-client-query-messages" d.logClientQueryMessages,
      flag "dnstap-log-client-response-messages" d.logClientResponseMessages,
      flag "dnstap-log-resolver-query-messages" d.logResolverQueryMessages,
      flag "dnstap-log-resolver-response-messages" d.logResolverResponseMessages]
  else []

def forwardZoneLines (fz : ForwardZone) : List Line :=
  [Line.blank,
    clause "forward-zone",
    quotedSlot "name" fz.name] ++
  fz.forwardAddrs.flatMap (fun addr => [slot "forward-addr" addr]) ++
  (if fz.forwardFirst then [flag "forward-first" true] else []) ++
  (if fz.forwardTLS then [flag "forward-tls-upstream" true] else [])

def stubZoneLines (sz : StubZone) : List Line :=
  [Line.blank,
    clause "stub-zone",
    quotedSlot "name" sz.name] ++
  sz.stubAddrs.flatMap (fun addr => [slot "stub-addr" addr]) ++
  (if sz.stubPrime then [flag "stub-prime" true] else []) ++
  (if sz.stubFirst then [flag "stub-first" true] else [])

/-- `unboundConfTmpl`, with the slots filled. -/
def confTemplate (cfg : UnboundServerConfig) : List Line :=
  headerLines ++ networkLines cfg.server ++ dnssecLines cfg.server ++ privacyLines cfg.server ++
    cacheLines cfg.server ++ performanceLines cfg.server ++ loggingLines cfg.server ++
    remoteControlLines cfg.remoteControl ++ dnstapLines cfg.dnstap ++
    cfg.forwardZones.flatMap forwardZoneLines ++ cfg.stubZones.flatMap stubZoneLines

def renderConfig (cfg : UnboundServerConfig) : GoString := render (confTemplate cfg)

def writeConfig (quote : GoString → GoString) (cfg : UnboundServerConfig) :
    Except GoString GoString := do
  wrap (lit "config validation: ") (sanitizeConfig quote cfg)
  pure (renderConfig cfg)

end GloryHole.Unbound
