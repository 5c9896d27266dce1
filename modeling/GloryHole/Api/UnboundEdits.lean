import GloryHole.Unbound.Writer

/-!
# The Unbound API

The handlers that change the server block or a forward zone, and `applyUnboundConfig`, which
validates, writes and reloads.  A handler edits the configuration object that the supervisor
holds, not a copy of it, before it applies it.  There are no handlers for stub zones.
-/

namespace GloryHole.Api

open Go Unbound

structure FileOutcome where
  write : Except GoString Unit
  rename : Except GoString Unit

/-- What a request meets outside of the program; `checkconf` is `unbound-checkconf` with its
output, `reload` is `unbound-control`. -/
structure UnboundEnv where
  quote : GoString → GoString
  createTemp : Except GoString Unit
  tempFile : FileOutcome
  checkconf : GoString → Except GoString Unit
  confFile : FileOutcome
  reload : Except GoString Unit

structure UnboundSupervisor where
  checkconfBin : GoString
  serverConfig : Option UnboundServerConfig

structure UnboundServer where
  supervisor : Option UnboundSupervisor
  conf : Option GoString
  listenPort : Int
  controlSocket : GoString

def writeConfigFile (quote : GoString → GoString) (out : FileOutcome)
    (cfg : UnboundServerConfig) : Except GoString GoString := do
  let text ← writeConfig quote cfg
  wrap (lit "write temp config: ") out.write
  wrap (lit "rename config: ") out.rename
  pure text

def validate (env : UnboundEnv) (cfg : UnboundServerConfig) : Except GoString Unit := do
  wrap (lit "create temp file: ") env.createTemp
  let text ← wrap (lit "write temp config: ") (writeConfigFile env.quote env.tempFile cfg)
  match env.checkconf text with
  | .ok () => pure ()
  | .error out => .error (lit "unbound-checkconf: " ++ trimSpace out)

namespace UnboundServer

def memory (s : UnboundServer) : Option UnboundServerConfig :=
  s.supervisor.bind (·.serverConfig)

def getUnboundServerConfig (s : UnboundServer) : UnboundServerConfig :=
  s.memory.getD (defaultServerConfig s.listenPort s.controlSocket)

def check (env : UnboundEnv) (s : UnboundServer) (cfg : UnboundServerConfig) :
    Except GoString Unit :=
  match s.supervisor with
  | none => .ok ()
  | some sup => if sup.checkconfBin ≠ [] then validate env cfg else .ok ()

def applyUnboundConfig (env : UnboundEnv) (s : UnboundServer) (cfg : UnboundServerConfig) :
    UnboundServer × Except GoString Unit :=
  match s.check env cfg with
  | .error err => (s, .error err)
  | .ok () =>
    match writeConfigFile env.quote env.confFile cfg with
    | .error err => (s, .error err)
    | .ok text =>
      let s' := { s with conf := some text }
      match s.supervisor with
      | none => (s', .ok ())
      | some sup =>
        match env.reload with
        | .error err => (s', .error (lit "unbound-control [reload]: " ++ err))
        | .ok () =>
          ({ s' with supervisor := some { sup with serverConfig := some cfg } }, .ok ())

/-- An edit of what `getUnboundServerConfig` has returned; the defaults are nobody else's. -/
def edited (s : UnboundServer) (cfg : UnboundServerConfig) : UnboundServer :=
  { s with
    supervisor := s.supervisor.map fun sup =>
      { sup with serverConfig := sup.serverConfig.map fun _ => cfg } }

end UnboundServer

/-! ## The handlers, up to `applyUnboundConfig` -/

structure ForwardZoneRequest where
  name : GoString := []
  forwardAddrs : List GoString := []
  forwardFirst : Bool := false
  forwardTLS : Bool := false

def sanitizeZoneName (name : GoString) : GoString :=
  if ¬hasSuffix name (lit ".") then name ++ lit "." else name

def ForwardZoneRequest.zone (req : ForwardZoneRequest) (name : GoString) : ForwardZone :=
  ⟨name, req.forwardAddrs, req.forwardFirst, req.forwardTLS⟩

inductive UnboundAnswer where
  | error (status : Nat) (message : GoString)
  | server (block : ServerBlock)
  | zone (zone : ForwardZone)
  | zones (zones : List ForwardZone)
  | noContent
  deriving DecidableEq

inductive BodyError where
  | unreadable
  | invalid (err : GoString)

def BodyError.message : BodyError → GoString
  | .unreadable => lit "Failed to read body"
  | .invalid err => lit "Invalid JSON: " ++ err

abbrev Edit := Except (Nat × GoString) (UnboundServerConfig × UnboundAnswer)

def handleUpdateUnboundServer (cfg : UnboundServerConfig)
    (body : Except BodyError (ServerBlock × List GoString)) : Edit :=
  match body with
  | .error err => .error (400, err.message)
  | .ok (block, sent) =>
    let server := mergeServerBlock cfg.server block sent
    .ok ({ cfg with server := server }, .server server)

def handleAddForwardZone (cfg : UnboundServerConfig)
    (body : Except GoString ForwardZoneRequest) : Edit :=
  match body with
  | .error err => .error (400, (BodyError.invalid err).message)
  | .ok req =>
    if req.name = [] ∨ req.forwardAddrs = [] then
      .error (400, lit "name and forward_addrs are required")
    else
      let name := sanitizeZoneName req.name
      if cfg.forwardZones.any (·.name == name) then
        .error (409, lit "Forward zone already exists: " ++ name)
      else
        .ok ({ cfg with forwardZones := cfg.forwardZones ++ [req.zone name] },
          .zone (req.zone name))

def replaceZone (name : GoString) (zone : ForwardZone) : List ForwardZone → List ForwardZone
  | [] => []
  | z :: zones => if z.name = name then zone :: zones else z :: replaceZone name zone zones

/-- Unlike the handler that adds one, it takes a zone without addresses. -/
def handleUpdateForwardZone (cfg : UnboundServerConfig) (path : GoString)
    (body : Except GoString ForwardZoneRequest) : Edit :=
  let name := sanitizeZoneName path
  match body with
  | .error err => .error (400, (BodyError.invalid err).message)
  | .ok req =>
    if cfg.forwardZones.any (·.name == name) then
      let zones := replaceZone name (req.zone name) cfg.forwardZones
      .ok ({ cfg with forwardZones := zones }, .zones zones)
    else .error (404, lit "Forward zone not found: " ++ name)

/-- It takes the name as it is, without the dot at the end that the other two add. -/
def handleDeleteForwardZone (cfg : UnboundServerConfig) (path : GoString) : Edit :=
  if cfg.forwardZones.any (·.name == path) then
    .ok ({ cfg with forwardZones := cfg.forwardZones.eraseP (·.name == path) }, .noContent)
  else .error (404, lit "Forward zone not found: " ++ path)

/-! ## Requests -/

inductive UnboundRequest where
  | updateServer (body : Except BodyError (ServerBlock × List GoString))
  | addForwardZone (body : Except GoString ForwardZoneRequest)
  | updateForwardZone (name : GoString) (body : Except GoString ForwardZoneRequest)
  | deleteForwardZone (name : GoString)

def UnboundRequest.edit (cfg : UnboundServerConfig) : UnboundRequest → Edit
  | .updateServer body => handleUpdateUnboundServer cfg body
  | .addForwardZone body => handleAddForwardZone cfg body
  | .updateForwardZone name body => handleUpdateForwardZone cfg name body
  | .deleteForwardZone name => handleDeleteForwardZone cfg name

def UnboundServer.handle (env : UnboundEnv) (s : UnboundServer) (r : UnboundRequest) :
    UnboundServer × UnboundAnswer :=
  match s.supervisor with
  | none => (s, .error 503 (lit "Unbound resolver is not enabled"))
  | some _ =>
    match r.edit s.getUnboundServerConfig with
    | .error (status, message) => (s, .error status message)
    | .ok (cfg, answer) =>
      match (s.edited cfg).applyUnboundConfig env cfg with
      | (s', .error err) => (s', .error 400 err)
      | (s', .ok ()) => (s', answer)

end GloryHole.Api
