import GloryHole.Go.Strings

/-!
# The configuration of the managed Unbound

The typed form of `unbound.conf`, its defaults, and the merge of a partial update of the
server block.
-/

namespace GloryHole.Unbound

open Go

structure ACLEntry where
  netblock : GoString
  action : GoString
  deriving DecidableEq

structure ForwardZone where
  name : GoString
  forwardAddrs : List GoString
  forwardFirst : Bool
  forwardTLS : Bool
  deriving DecidableEq

structure StubZone where
  name : GoString
  stubAddrs : List GoString
  stubPrime : Bool
  stubFirst : Bool
  deriving DecidableEq

structure ServerBlock where
  interface : GoString := []
  port : Int := 0
  msgCacheSize : GoString := []
  rrsetCacheSize : GoString := []
  keyCacheSize : GoString := []
  cacheMaxTTL : Int := 0
  cacheMinTTL : Int := 0
  cacheMaxNegTTL : Int := 0
  moduleConfig : GoString := []
  domainInsecure : Option (List GoString) := none
  hardenGlue : Bool := false
  hardenDNSSEC : Bool := false
  hardenBelowNX : Bool := false
  hardenAlgoDown : Bool := false
  qnameMin : Bool := false
  aggressiveNSEC : Bool := false
  numThreads : Int := 0
  ednsBufferSize : Int := 0
  outgoingRange : Int := 0
  numQueriesPerThread : Int := 0
  soReusePort : Bool := false
  serveExpired : Bool := false
  serveExpiredTTL : Int := 0
  serveExpiredClientTimeout : Int := 0
  prefetch : Bool := false
  prefetchKey : Bool := false
  verbosity : Int := 0
  logQueries : Bool := false
  logReplies : Bool := false
  logServfail : Bool := false
  hideIdentity : Bool := false
  hideVersion : Bool := false
  minimalResponses : Bool := false
  extendedStatistics : Bool := false
  statisticsCumulative : Bool := false
  tlsCertBundle : GoString := []
  rootHints : GoString := []
  autoTrustAnchor : GoString := []
  accessControl : List ACLEntry := []
  privateAddress : List GoString := []
  deriving DecidableEq

structure DnstapConfig where
  enabled : Bool
  socketPath : GoString
  sendIdentity : Bool
  sendVersion : Bool
  logClientQueryMessages : Bool
  logClientResponseMessages : Bool
  logResolverQueryMessages : Bool
  logResolverResponseMessages : Bool
  deriving DecidableEq

structure RemoteControl where
  enabled : Bool
  controlInterface : GoString
  controlUseCert : Bool
  deriving DecidableEq

structure UnboundServerConfig where
  server : ServerBlock
  dnstap : DnstapConfig
  forwardZones : List ForwardZone
  stubZones : List StubZone
  remoteControl : RemoteControl
  deriving DecidableEq

def defaultServerConfig (listenPort : Int) (controlSocket : GoString) : UnboundServerConfig where
  server :=
    { interface := lit "127.0.0.1"
      port := listenPort
      msgCacheSize := lit "4m"
      rrsetCacheSize := lit "8m"
      keyCacheSize := lit "4m"
      cacheMinTTL := 0
      cacheMaxNegTTL := 60
      moduleConfig := lit "validator iterator"
      hardenGlue := true
      hardenDNSSEC := true
      hardenBelowNX := true
      hardenAlgoDown := true
      qnameMin := true
      aggressiveNSEC := true
      numThreads := 1
      ednsBufferSize := 1232
      outgoingRange := 512
      numQueriesPerThread := 256
      soReusePort := true
      serveExpired := true
      serveExpiredTTL := 86400
      serveExpiredClientTimeout := 1800
      prefetch := true
      prefetchKey := true
      verbosity := 1
      logServfail := true
      hideIdentity := true
      hideVersion := true
      minimalResponses := true
      extendedStatistics := true
      statisticsCumulative := true
      tlsCertBundle := lit "/etc/ssl/certs/ca-certificates.crt"
      rootHints := lit "/etc/unbound/root.hints"
      autoTrustAnchor := lit "/etc/unbound/root.key"
      accessControl :=
        [⟨lit "127.0.0.1/32", lit "allow"⟩, ⟨lit "0.0.0.0/0", lit "refuse"⟩]
      privateAddress :=
        [lit "192.168.0.0/16", lit "169.254.0.0/16", lit "172.16.0.0/12", lit "10.0.0.0/8",
          lit "fd00::/8", lit "fe80::/10"] }
  dnstap :=
    { enabled := true
      socketPath := lit "/var/run/unbound/dnstap.sock"
      sendIdentity := true
      sendVersion := true
      logClientQueryMessages := true
      logClientResponseMessages := true
      logResolverQueryMessages := true
      logResolverResponseMessages := true }
  forwardZones := []
  stubZones := []
  remoteControl := { enabled := true, controlInterface := controlSocket, controlUseCert := false }

/-! ## A partial update of the server block -/

/-- A field of the update that counts as sent unless it is its zero value. -/
def mergeNonZero {α : Type} [DecidableEq α] (zero base update : α) : α :=
  if update ≠ zero then update else base

/-- `mergeServerBlock`; `sent` are the keys of the request's object, by which a false that
was sent is told from a boolean that was not. -/
def mergeServerBlock (base update : ServerBlock) (sent : List GoString) : ServerBlock :=
  let mergeBool (key : String) (dst src : Bool) : Bool := if lit key ∈ sent then src else dst
  { base with
    msgCacheSize := mergeNonZero [] base.msgCacheSize update.msgCacheSize
    rrsetCacheSize := mergeNonZero [] base.rrsetCacheSize update.rrsetCacheSize
    keyCacheSize := mergeNonZero [] base.keyCacheSize update.keyCacheSize
    moduleConfig := mergeNonZero [] base.moduleConfig update.moduleConfig
    cacheMaxTTL := mergeNonZero 0 base.cacheMaxTTL update.cacheMaxTTL
    cacheMinTTL := mergeNonZero 0 base.cacheMinTTL update.cacheMinTTL
    cacheMaxNegTTL := mergeNonZero 0 base.cacheMaxNegTTL update.cacheMaxNegTTL
    numThreads := mergeNonZero 0 base.numThreads update.numThreads
    verbosity := mergeNonZero 0 base.verbosity update.verbosity
    serveExpiredTTL := mergeNonZero 0 base.serveExpiredTTL update.serveExpiredTTL
    domainInsecure := mergeNonZero none base.domainInsecure update.domainInsecure
    hardenGlue := mergeBool "harden_glue" base.hardenGlue update.hardenGlue
    hardenDNSSEC := mergeBool "harden_dnssec_stripped" base.hardenDNSSEC update.hardenDNSSEC
    hardenBelowNX := mergeBool "harden_below_nxdomain" base.hardenBelowNX update.hardenBelowNX
    hardenAlgoDown := mergeBool "harden_algo_downgrade" base.hardenAlgoDown update.hardenAlgoDown
    qnameMin := mergeBool "qname_minimisation" base.qnameMin update.qnameMin
    aggressiveNSEC := mergeBool "aggressive_nsec" base.aggressiveNSEC update.aggressiveNSEC
    serveExpired := mergeBool "serve_expired" base.serveExpired update.serveExpired
    prefetch := mergeBool "prefetch" base.prefetch update.prefetch
    prefetchKey := mergeBool "prefetch_key" base.prefetchKey update.prefetchKey
    logQueries := mergeBool "log_queries" base.logQueries update.logQueries
    logReplies := mergeBool "log_replies" base.logReplies update.logReplies
    logServfail := mergeBool "log_servfail" base.logServfail update.logServfail
    hideIdentity := mergeBool "hide_identity" base.hideIdentity update.hideIdentity
    hideVersion := mergeBool "hide_version" base.hideVersion update.hideVersion
    minimalResponses :=
      mergeBool "minimal_responses" base.minimalResponses update.minimalResponses
    extendedStatistics :=
      mergeBool "extended_statistics" base.extendedStatistics update.extendedStatistics
    statisticsCumulative :=
      mergeBool "statistics_cumulative" base.statisticsCumulative update.statisticsCumulative
    soReusePort := mergeBool "so_reuseport" base.soReusePort update.soReusePort }

end GloryHole.Unbound
