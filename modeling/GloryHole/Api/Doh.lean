import GloryHole.Dns.Msg
import GloryHole.Go.Net
import GloryHole.Go.Utf8

/-!
# DNS over HTTPS: GET requests

A GET request has a whole DNS message in its parameter `dns`, or a name with an optional type.  The
type is a mnemonic or a number; a text that is neither stands for the type A, and a number is
narrowed to sixteen bits.

The request that is handed to `ServeDNS` is all that is modelled of the answer.
-/

namespace GloryHole.Api

open Go Dns

/-- The DNS library: its table of mnemonics, `Fqdn`, the decoding of a base64 message, the length of
a packed one; and the case mapping of the runes beyond ASCII. -/
structure DohLib where
  stringToType : GoString → Option UInt16
  fqdn : GoString → GoString
  decode : GoString → Except GoString Msg
  packedLength : Msg → Nat
  upper : Nat → Nat

structure DohParams where
  dns : GoString := []
  name : GoString := []
  type : GoString := []
  cd : GoString := []
  do_ : GoString := []

variable (lib : DohLib)

def isSet (value : GoString) : Bool := value = lit "1" ∨ value = lit "true"

def parseType (type : GoString) : UInt16 :=
  if type = [] then typeA
  else
    match lib.stringToType (toUpper lib.upper type) with
    | some qtype => qtype
    | none =>
      match atoi type with
      | some n => UInt16.ofNat (n % 65536).toNat
      | none => typeA

def dohQuery (query : DohParams) : Msg :=
  { recursionDesired := true
    checkingDisabled := isSet query.cd
    question := [⟨lib.fqdn query.name, parseType lib query.type, 1⟩]
    extra := if isSet query.do_ then [⟨lit ".", typeOPT, 4096, 0x8000, []⟩] else [] }

def parseDNSQueryGET (query : DohParams) : Except GoString Msg :=
  if query.dns ≠ [] then
    if query.dns.length > 4096 then
      .error (lit "dns parameter too large (" ++ itoa query.dns.length ++ lit " bytes)")
    else lib.decode query.dns
  else if query.name = [] then .error (lit "missing 'name' or 'dns' parameter")
  else .ok (dohQuery lib query)

inductive DohOutcome where
  | error (status : Nat) (message : GoString)
  | serve (msg : Msg)
  deriving DecidableEq

/-- `handleDNSQuery` for the method GET. -/
def handleDNSQuery (query : DohParams) : DohOutcome :=
  match parseDNSQueryGET lib query with
  | .error err => .error 400 err
  | .ok msg =>
    if msg.question = [] then .error 400 (lit "query not specified or too small")
    else if lib.packedLength msg > 512 then .error 413 (lit "query exceeds maximum size")
    else .serve msg

end GloryHole.Api
