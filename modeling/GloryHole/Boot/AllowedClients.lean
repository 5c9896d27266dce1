import GloryHole.Boot.Config
import GloryHole.Dns.AccessList

/-!
# The client list of a process

The access list of the DNS server, from the list `main` finds in the configuration or the
database, and its replacement by `handleUpdateAllowedClients`.
-/

namespace GloryHole.Boot

open Go
open Dns (ClientACL)
open Config (Config Env Yaml)

inductive AllowedClientsError where
  | invalidBody
  | invalidEntry (entry : GoString)
  | failedToSave
  deriving DecidableEq

/-- Status and message; `quote` is the quoting of `%q`, and the text of the decoder's or the
database's error, which follows the first and the last message, is left out. -/
def AllowedClientsError.statusAndMessage (quote : GoString → GoString) :
    AllowedClientsError → Nat × GoString
  | .invalidBody => (400, lit "Invalid request body: ")
  | .invalidEntry entry => (400, lit "Invalid IP or CIDR: " ++ quote entry)
  | .failedToSave => (500, lit "Failed to save ACL: ")

def validateClients : List GoString → Except AllowedClientsError (List GoString)
  | [] => .ok []
  | entry :: rest =>
    let entry := trimSpace entry
    if entry = [] then validateClients rest
    else if (parseCIDR entry).isSome ∨ (parseIP entry).isSome then
      (validateClients rest).map (entry :: ·)
    else .error (.invalidEntry entry)

/-- A process with its DNS server.  `configured` is the list the access list stands for, as it
was given; nothing reads it. -/
structure AccessSite (δ : Type) extends Process δ where
  acl : ClientACL
  configured : List GoString

def AccessSite.start {δ : Type} (yaml : Yaml δ) (printable : Nat → Bool)
    (hash : GoString → Option GoString) (env : Env) (sur : Surroundings) (file : δ) :
    Except GoString (AccessSite δ) := do
  let p ← Boot.start yaml printable hash env sur file
  pure
    { p with
      acl := ClientACL.new p.config.server.allowedClients
      configured := p.config.server.allowedClients }

structure ClientsRequest where
  clients : Option (List GoString)
  persists : Bool
  deriving DecidableEq

def AccessSite.updateAllowedClients {δ : Type} (s : AccessSite δ) (req : ClientsRequest) :
    AccessSite δ × Except AllowedClientsError (List GoString) :=
  match req.clients with
  | none => (s, .error .invalidBody)
  | some clients =>
    match validateClients clients with
    | .error e => (s, .error e)
    | .ok validated =>
      if s.storage.isSome ∧ ¬ req.persists then (s, .error .failedToSave)
      else
        ({ s with
            storage := s.storage.map ({ · with allowedClients := .entries validated })
            acl := ClientACL.new validated
            configured := clients.map trimSpace },
          .ok validated)

def AccessSite.step {δ : Type} (s : AccessSite δ) (req : ClientsRequest) : AccessSite δ :=
  (s.updateAllowedClients req).1

end GloryHole.Boot
