import GloryHole.Storage.Policies

/-!
# The policies API

The handlers that add, change and delete a policy: each writes the table and then
rebuilds the engine from it.  A request body is what its JSON decodes to.  Reading the
table can fail; `handleAddPolicy` ignores that, and a failed rebuild leaves the engine
as it was.
-/

namespace GloryHole.Api

open Go Policy Storage

structure PolicyRequest where
  name : GoString := []
  logic : GoString := []
  action : GoString := []
  actionData : GoString := []
  enabled : Bool := false
  deriving DecidableEq

def PolicyRequest.spec (req : PolicyRequest) : RuleSpec :=
  { name := req.name, logic := req.logic, action := req.action,
    actionData := req.actionData, enabled := req.enabled }

def PolicyRequest.dbRule (req : PolicyRequest) (sortOrder : Int) : PolicyRule :=
  { name := req.name, logic := req.logic, action := req.action,
    actionData := req.actionData, enabled := req.enabled, sortOrder := sortOrder }

def validatePolicyRequest (req : PolicyRequest) : Except GoString Unit :=
  if req.name = [] then .error (lit "policy name is required")
  else if req.logic = [] then .error (lit "policy logic is required")
  else if req.action = [] then .error (lit "policy action is required")
  else if ¬ checkAction req.action then
    .error (lit "invalid action: " ++ req.action ++
      lit " (must be BLOCK, ALLOW, REDIRECT, or FORWARD)")
  else if req.action = Action.actionRedirect.text ∧ req.actionData = [] then
    .error (lit "action_data (redirect IP) is required for REDIRECT action")
  else if req.action = Action.actionForward.text then
    if req.actionData = [] then
      .error (lit "action_data (upstream DNS servers) is required for FORWARD action")
    else
      match parseUpstreams req.actionData with
      | none => .error (lit "invalid upstream format")
      | some _ => .ok ()
  else .ok ()

inductive ApiError where
  | engineNotConfigured
  | invalidID
  | invalidBody
  | validation (msg : GoString)
  | compile
  | policyNotFound
  | storage (err : StorageError)
  deriving DecidableEq

inductive Response where
  | error (err : ApiError)
  | created (id : Int) (policy : PolicyRequest)
  | ok (id : Int) (policy : PolicyRequest)
  | deleted (id : Int) (name : GoString)
  deriving DecidableEq

/-- Which reads of the table fail: the one that counts the rules and the one that
rebuilds the engine. -/
structure Faults where
  count : Bool := false
  rebuild : Bool := false
  deriving DecidableEq

structure Server where
  table : PolicyTable
  engine : Option (List Rule)

section Handlers

variable (upper : Nat → Nat) (lang : ExprLang)

/-- The rules `rebuildPolicyEngine` gives the engine: those of the table that compile. -/
def compiledRules (t : PolicyTable) : List Rule :=
  t.getPolicyRules.filterMap fun r => r.rule.spec.compile upper lang

def Server.rebuild (s : Server) (table : PolicyTable) (faults : Faults) : Server :=
  { table := table
    engine := if faults.rebuild then s.engine
      else s.engine.map fun _ => compiledRules upper lang table }

def checkRequest (s : Server) (body : Option PolicyRequest) : Except ApiError PolicyRequest :=
  match s.engine, body with
  | none, _ => .error .engineNotConfigured
  | some _, none => .error .invalidBody
  | some _, some req =>
    match validatePolicyRequest req with
    | .error msg => .error (.validation msg)
    | .ok () =>
      match req.spec.compile upper lang with
      | none => .error .compile
      | some _ => .ok req

def handleAddPolicy (s : Server) (body : Option PolicyRequest) (faults : Faults) :
    Server × Response :=
  match checkRequest upper lang s body with
  | .error err => (s, .error err)
  | .ok req =>
    let existing := if faults.count then [] else s.table.getPolicyRules
    let sortOrder := existing.length
    match s.table.createPolicyRule (req.dbRule sortOrder) with
    | .error err => (s, .error (.storage err))
    | .ok (table, newID) => (s.rebuild upper lang table faults, .created newID req)

/-- `handleUpdatePolicy`; `id` is the path's number if it is one.  The position is not
part of the request, and the row is written with none. -/
def handleUpdatePolicy (s : Server) (id : Option Int) (body : Option PolicyRequest)
    (faults : Faults) : Server × Response :=
  match s.engine, id with
  | none, _ => (s, .error .engineNotConfigured)
  | some _, none => (s, .error .invalidID)
  | some _, some id =>
    match checkRequest upper lang s body with
    | .error err => (s, .error err)
    | .ok req =>
      match s.table.updatePolicyRule id (req.dbRule 0) with
      | .error err => (s, .error (.storage err))
      | .ok table => (s.rebuild upper lang table faults, .ok id req)

def handleDeletePolicy (s : Server) (id : Option Int) (faults : Faults) :
    Server × Response :=
  match id with
  | none => (s, .error .invalidID)
  | some id =>
    let rules := if faults.count then [] else s.table.getPolicyRules
    match rules.find? (·.id = id) with
    | none => (s, .error .policyNotFound)
    | some row =>
      if row.rule.name = [] then (s, .error .policyNotFound)
      else
        match s.table.deletePolicyRule id with
        | .error err => (s, .error (.storage err))
        | .ok table => (s.rebuild upper lang table faults, .deleted id row.rule.name)

end Handlers

end GloryHole.Api
