import GloryHole.Blocklist.Manager
import GloryHole.Cache.Cache
import GloryHole.Policy.Engine

/-!
# The query handler

`ServeDNS` answers a query from the local records, by a policy rule, from the blocklist, from the
cache or from an upstream, in this order.  A query is evaluated against the rules when it arrives,
looks into the cache some time later, and waits for its upstream while others are served.  Each of
these parts is an event, so the runs are the interleavings of the queries.

Logging, traces, metrics and the truncation to the client's buffer are left out.
-/

namespace GloryHole.Dns

open Go Policy

/-! ## Parts of a reply -/

def defaultEDNSBufferSize : UInt16 := 4096
def maxEDNSBufferSize : UInt16 := 4096
def minEDNSBufferSize : UInt16 := 512

def negotiateBufferSize (requested : UInt16) : UInt16 :=
  if requested = 0 then defaultEDNSBufferSize
  else if requested < minEDNSBufferSize then minEDNSBufferSize
  else if requested > maxEDNSBufferSize then maxEDNSBufferSize
  else requested

/-- `HandleEDNS0`: an OPT record for a request that has one, unless there is one already. -/
def handleEDNS0 (req resp : Msg) : Msg :=
  match req.isEdns0, resp.isEdns0 with
  | some opt, none =>
    { resp with
      extra := resp.extra ++
        [{ name := lit ".", rrtype := typeOPT,
           rrclass := negotiateBufferSize opt.udpSize,
           ttl := if opt.doBit then 0x8000 else 0, rdata := [] }] }
  | _, _ => resp

def addAddress (msg : Msg) (domain : GoString) (qtype : UInt16) (ip : IP) (ttl : UInt32) :
    Msg :=
  if qtype = typeA ∧ isV4 ip then
    { msg with answer := msg.answer ++ [⟨domain, typeA, 1, ttl, ip.drop 12⟩] }
  else if qtype = typeAAAA ∧ ¬ isV4 ip then
    { msg with answer := msg.answer ++ [⟨domain, typeAAAA, 1, ttl, ip⟩] }
  else msg

/-- The reply to a blocked query: the block page's address if there is one for the type,
else NXDOMAIN.  `handlePolicyBlock` and both blocklist paths build it. -/
def blockedReply (blockPageIP : GoString) (r msg : Msg) (q : Question) : Msg :=
  let nxdomain := setRcode msg r rcodeNameError
  if blockPageIP = [] then nxdomain
  else
    match parseIP blockPageIP with
    | none => nxdomain
    | some ip =>
      if q.qtype = typeA ∨ q.qtype = typeAAAA then addAddress msg q.name q.qtype ip 60
      else nxdomain

def redirectReply (rule : Rule) (r msg : Msg) (q : Question) : Msg :=
  match parseIP rule.actionData with
  | none => setRcode msg r rcodeNameError
  | some ip => addAddress msg q.name q.qtype ip 300

def baseReply (r : Msg) : Msg :=
  handleEDNS0 r { setReply r with authoritative := true, recursionAvailable := true }

/-! ## Queries and answers -/

structure Clock where
  time : Int
  hour : Int
  minute : Int
  day : Int
  month : Int
  weekday : Int
  deriving DecidableEq

structure Query where
  client : GoString
  request : Msg
  clock : Clock
  deriving DecidableEq

/-- Where a query is forwarded to: the forwarder's own upstreams (`Forward`) or those of
a rule (`ForwardWithUpstreams`). -/
inductive Route where
  | default
  | upstreams (servers : List GoString)
  deriving DecidableEq

/-- How an upstream's answer was fetched: for which client, through which rule, and from
which upstreams. -/
structure Fetch where
  client : GoString
  rule : Option Rule
  route : Route
  deriving DecidableEq

inductive Source where
  | handler
  | blocklist
  | upstream (fetch : Fetch)
  deriving DecidableEq

structure Served where
  query : Query
  context : Context
  rule : Option Rule
  msg : Msg
  source : Source
  cached : Bool
  deriving DecidableEq

/-- The libraries under the handler: the expression language, the table behind
`strings.ToLower` and the names of the query types (`""` for an unknown one). -/
structure Libraries where
  lang : ExprLang
  lower : Nat → Nat
  typeToString : UInt16 → GoString

/-- What the handler reads: `handlerDeps`, the feature switches of the configuration and
the temporary kill-switches.  The local records are their lookup function. -/
structure Deps where
  localRecords : GoString → UInt16 → Option (List RR)
  rules : List Rule
  enablePolicies : Bool
  policiesDisabled : Bool
  enableBlocklist : Bool
  blocklistDisabled : Bool
  blocklistManager : Option Blocklist.Manager
  legacyBlocklist : List GoString
  hasForwarder : Bool
  blockPageIP : GoString

/-- How far a query has come: its rules are evaluated and it has still to pass the
blocklist and the cache, or it waits for an upstream. -/
inductive Phase where
  | evaluated
  | forwarding (route : Route)
  deriving DecidableEq

structure Pending where
  query : Query
  context : Context
  rule : Option Rule
  phase : Phase
  deriving DecidableEq

/-- The handler, its cache and the queries in flight.  `evaluations` and `served` record
what has happened; no part of the handler reads them. -/
structure Server where
  libs : Libraries
  deps : Deps
  cache : Option (Cache.Interface Source)
  now : Int
  pending : Nat → Option Pending
  evaluations : List (Query × Option Rule)
  served : List Served

/-! ## The parts of `ServeDNS` -/

def dnsTypeLabel (libs : Libraries) (qtype : UInt16) : GoString :=
  let label := libs.typeToString qtype
  if label ≠ [] then label else lit "TYPE" ++ Cache.decimalDigits 5 qtype.toNat

def newContext (libs : Libraries) (query : Query) (q : Question) : Context :=
  { time := query.clock.time
    domain := trimSuffix q.name (lit ".")
    clientIP := query.client
    queryType := dnsTypeLabel libs q.qtype
    hour := query.clock.hour
    minute := query.clock.minute
    day := query.clock.day
    month := query.clock.month
    weekday := query.clock.weekday }

def matchedRule (libs : Libraries) (deps : Deps) (ctx : Context) : Option Rule :=
  if deps.enablePolicies ∧ ¬ deps.policiesDisabled then evaluate libs.lang deps.rules ctx
  else none

inductive Decision where
  | answer (msg : Msg)
  | forward (route : Route)
  | goOn
  deriving DecidableEq

def handlePolicies (deps : Deps) (rule : Rule) (r msg : Msg) (q : Question) : Decision :=
  match rule.action with
  | .actionBlock => .answer (blockedReply deps.blockPageIP r msg q)
  | .actionRedirect => .answer (redirectReply rule r msg q)
  | .actionAllow =>
    if deps.hasForwarder then .forward .default
    else .answer (setRcode msg r rcodeNameError)
  | .actionForward =>
    let upstreams := rule.getUpstreams
    if upstreams = [] ∨ ¬ deps.hasForwarder then .answer (setRcode msg r rcodeServerFailure)
    else .forward (.upstreams upstreams)

def isBlocked (libs : Libraries) (deps : Deps) (domain : GoString) : Bool :=
  if deps.enableBlocklist ∧ ¬ deps.blocklistDisabled then
    match deps.blocklistManager with
    | some m => (m.matchDomain libs.lower domain).blocked
    | none => domain ∈ deps.legacyBlocklist
  else false

namespace Server

def answer (s : Server) (query : Query) (context : Context) (rule : Option Rule) (msg : Msg)
    (source : Source) (cached : Bool) : Server :=
  { s with served := s.served ++ [⟨query, context, rule, msg, source, cached⟩] }

def updateCache (s : Server)
    (f : Cache.Interface Source → Cache.Interface Source) : Server :=
  { s with cache := s.cache.map f }

def setPending (s : Server) (id : Nat) (p : Option Pending) : Server :=
  { s with pending := Function.update s.pending id p }

/-- `ServeDNS` from the start to the decision of the policies. -/
def arrive (s : Server) (id : Nat) (query : Query) : Server :=
  let r := query.request
  let msg := baseReply r
  match r.question with
  | [] =>
    let ctx := newContext s.libs query ⟨[], 0, 0⟩
    s.answer query ctx none (setRcode msg r rcodeFormatError) .handler false
  | q :: _ =>
    let ctx := newContext s.libs query q
    match s.deps.localRecords q.name q.qtype with
    | some records =>
      s.answer query ctx none { msg with answer := msg.answer ++ records } .handler false
    | none =>
      let rule := matchedRule s.libs s.deps ctx
      let s := { s with evaluations := s.evaluations ++ [(query, rule)] }
      let decision :=
        match rule with
        | none => Decision.goOn
        | some rule => handlePolicies s.deps rule r msg q
      match decision with
      | .answer msg => s.answer query ctx rule msg .handler false
      | .forward route => s.setPending id (some ⟨query, ctx, rule, .forwarding route⟩)
      | .goOn => s.setPending id (some ⟨query, ctx, rule, .evaluated⟩)

def serveFromCache (s : Server) (r : Msg) : Server × Option (Msg × Source) :=
  match s.cache with
  | none => (s, none)
  | some c =>
    let (c, hit) := c.getWithTrace r s.now
    ({ s with cache := some c },
      hit.map fun mo => (handleEDNS0 r { mo.1 with id := r.id }, mo.2))

/-- `handleBlocklistAndOverrides`, then `serveFromCache`, then `forwardToUpstream` up to
the call of the forwarder. -/
def lookup (s : Server) (id : Nat) (order : List GoString) : Server :=
  match s.pending id with
  | some ⟨query, ctx, rule, .evaluated⟩ =>
    let r := query.request
    let msg := baseReply r
    let q := r.question.headD ⟨[], 0, 0⟩
    let s := s.setPending id none
    if isBlocked s.libs s.deps q.name then
      let msg := blockedReply s.deps.blockPageIP r msg q
      let s := s.updateCache (·.setBlocked order s.now r msg .blocklist)
      s.answer query ctx rule msg .blocklist false
    else
      match s.serveFromCache r with
      | (s, some (msg, source)) => s.answer query ctx rule msg source true
      | (s, none) =>
        if s.deps.hasForwarder then
          s.setPending id (some ⟨query, ctx, rule, .forwarding .default⟩)
        else s.answer query ctx rule (setRcode msg r rcodeNameError) .handler false
  | _ => s

/-- The call of the forwarder returns: the ends of `handlePolicyAllow`,
`handlePolicyForward` and `forwardToUpstream`, which store and pass on an answer alike. -/
def reply (s : Server) (id : Nat) (resp : Option Msg) (order : List GoString) : Server :=
  match s.pending id with
  | some ⟨query, ctx, rule, .forwarding route⟩ =>
    let r := query.request
    let s := s.setPending id none
    match resp with
    | none =>
      s.answer query ctx rule (setRcode (baseReply r) r rcodeServerFailure) .handler false
    | some resp =>
      let source := Source.upstream ⟨query.client, rule, route⟩
      let s := s.updateCache (·.set order s.now r resp source)
      s.answer query ctx rule resp source false
  | _ => s

end Server

/-- What can happen next: a query arrives, looks into the cache or gets its upstream's
answer (`none` for an error); time passes; the cache is cleaned up or cleared; the
dependencies are replaced, rules and switches included. -/
inductive Event where
  | arrive (id : Nat) (query : Query)
  | lookup (id : Nat) (order : List GoString)
  | reply (id : Nat) (resp : Option Msg) (order : List GoString)
  | pass (d : Nat)
  | cleanup
  | clear
  | reconfigure (deps : Deps)

def step (s : Server) : Event → Server
  | .arrive id query => s.arrive id query
  | .lookup id order => s.lookup id order
  | .reply id resp order => s.reply id resp order
  | .pass d => { s with now := s.now + d }
  | .cleanup => s.updateCache (·.cleanup s.now)
  | .clear => s.updateCache (·.clear)
  | .reconfigure deps => { s with deps := deps }

def boot (libs : Libraries) (deps : Deps) (cache : Option GloryHole.Config.CacheConfig)
    (now : Int) : Server :=
  { libs := libs
    deps := deps
    cache := cache.bind Cache.new
    now := now
    pending := fun _ => none
    evaluations := []
    served := [] }

end GloryHole.Dns
