import GloryHole.Go.Address
import GloryHole.Go.Http

/-!
# The address of an API client

`getClientIP` with the proxies it trusts, and the buckets of the rate limiter it is the key of.
-/

namespace GloryHole.Api

open Go

/-! ## Trusted proxies -/

/-- The networks of the entries of `trusted_proxies`; an entry that is neither a network nor an
address is ignored. -/
def trustedNets (entries : List GoString) : List IPNet :=
  entries.filterMap fun entry =>
    match parseCIDR entry with
    | some ipNet => some ipNet
    | none =>
      (parseIP entry).map fun ip =>
        let bits := if (to4 ip).isSome then 32 else 128
        ⟨ip, cidrMask bits bits⟩

def isTrustedProxy (trustedProxies : List IPNet) (ip : GoString) : Bool :=
  match parseIP ip with
  | none => false
  | some parsed => trustedProxies.any (·.contains parsed)

def remoteHost (r : Request) : GoString :=
  match splitHostPort r.remoteAddr with
  | some (host, _) => host
  | none => r.remoteAddr

def forwardedForHeader : GoString := lit "X-Forwarded-For"

def realIPHeader : GoString := lit "X-Real-IP"

def getClientIP (trustedProxies : List IPNet) (r : Request) : GoString :=
  if isTrustedProxy trustedProxies (remoteHost r) then
    let clientIP := trimSpace ((splitByte (byte ',') (r.headerGet forwardedForHeader)).headD [])
    if r.headerGet forwardedForHeader ≠ [] ∧ clientIP ≠ [] then clientIP
    else if r.headerGet realIPHeader ≠ [] then trimSpace (r.headerGet realIPHeader)
    else remoteHost r
  else remoteHost r

/-! ## Rate limits -/

inductive Limiter where
  | login
  | api
  deriving DecidableEq

/-- The buckets `rateLimitMiddleware` takes a token from before it serves the request. -/
def rateLimitBuckets (trustedProxies : List IPNet) (r : Request) : List (Limiter × GoString) :=
  let clientIP := getClientIP trustedProxies r
  (if r.path = lit "/login" ∧ r.method = .post then [(.login, clientIP)] else []) ++
    (if hasPrefix r.path (lit "/api") then [(.api, clientIP)] else [])

/-! ## Proxies -/

def appendForwarded (received : Option GoString) (peer : GoString) : Option GoString :=
  match received with
  | none => some peer
  | some xff => some (xff ++ lit ", " ++ peer)

/-- The request as it arrives through a chain of proxies: `supplied` is the header of the client,
`peers` are the addresses the proxies append, that of the client first. -/
def arriveThrough (r : Request) (peers : List GoString) (supplied : Option GoString) : Request :=
  { r with
    header :=
      (peers.foldl appendForwarded supplied).toList.map (forwardedForHeader, ·) ++
        r.header.filter fun h => !equalFold h.1 forwardedForHeader }

end GloryHole.Api
