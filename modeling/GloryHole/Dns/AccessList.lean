import GloryHole.Dns.Msg
import GloryHole.Go.Address

/-!
# The client access list

`NewClientACL`, `IsAllowed` and the wrapper around the handler that refuses the clients of the
plain listeners.  An entry that is neither a network nor an address is skipped, and a list
without usable entries is open to all.
-/

namespace GloryHole.Dns

open Go

structure ClientACL where
  nets : List IPNet := []
  singles : List IP := []
  empty : Bool := false
  deriving DecidableEq

namespace ClientACL

def add (acl : ClientACL) (entry : GoString) : ClientACL :=
  match parseCIDR entry with
  | some ipNet => { acl with nets := acl.nets ++ [ipNet] }
  | none =>
    match parseIP entry with
    | some ip => { acl with singles := acl.singles ++ [ip] }
    | none => acl

def new (entries : List GoString) : ClientACL :=
  if entries = [] then { empty := true }
  else
    let acl := entries.foldl add {}
    { acl with empty := acl.nets.isEmpty && acl.singles.isEmpty }

def isAllowed (acl : ClientACL) (clientIP : GoString) : Bool :=
  if acl.empty then true
  else
    match parseIP clientIP with
    | none => false
    | some ip => acl.nets.any (·.contains ip) || acl.singles.any (· == ip)

end ClientACL

def getClientIP (remote : Option SocketAddr) : GoString :=
  match remote with
  | none => lit "unknown"
  | some addr =>
    match splitHostPort addr.text with
    | some (host, _) => host
    | none => addr.text

inductive Listener where
  | udp
  | tcp
  | dot
  deriving DecidableEq

/-- `serveDNS`: the refusal of a client, or `none` if its query goes to the handler.  The
listener for DoT has no list. -/
def serveDNS (acl : ClientACL) (listener : Listener) (remote : Option SocketAddr) (r : Msg) :
    Option Msg :=
  if listener = .dot then none
  else if acl.isAllowed (getClientIP remote) then none
  else some (setRcode {} r rcodeRefused)

/-! ## What an entry stands for -/

def entryRange (entry : GoString) : Option Range :=
  match splitCIDR entry with
  | some (addr, ip, n) => some (networkRange addr ip n)
  | none => (parseIP entry).map fun ip => ⟨addressBits ip, (addressBits ip).length⟩

def Usable (entry : GoString) : Prop := (entryRange entry).isSome

def LiesIn (ip : IP) (entry : GoString) : Prop := ∃ r, entryRange entry = some r ∧ r.Contains ip

end GloryHole.Dns
