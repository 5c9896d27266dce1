import Mathlib.Logic.Function.Basic
import GloryHole.Policy.ClientGroups

/-!
# Client requests side by side

The handlers of the clients API that write the tables, in the steps between which another one can
run: a handler checks its request, executes its statement, reads the profiles for the resolver's
map and stores the map.  Changing a group itself leaves the resolver alone.

The routes admit one method each; `url.PathUnescape` and `sanitizeColor` are parameters.
-/

namespace GloryHole.Api

open Go Policy Storage

structure ClientUpdateRequest where
  displayName : GoString := []
  groupName : GoString := []
  notes : GoString := []

structure ClientGroupRequest where
  name : GoString := []
  description : GoString := []
  color : GoString := []

/-- A request with the parts of its path; a body that does not decode is `none`. -/
inductive ClientCall where
  | updateClient (client : GoString) (body : Option ClientUpdateRequest)
  | upsertGroup (pathName : GoString) (body : Option ClientGroupRequest)
  | deleteGroup (group : GoString)

abbrev ClientAnswer := Except (Nat × GoString) Unit

inductive ClientStatement where
  | updateProfile (profile : ClientProfile)
  | upsertGroup (group : ClientGroup)
  | deleteGroup (name : GoString)

inductive ClientPhase where
  | idle
  | writing (statement : ClientStatement)
  | committed
  | loaded (cache : GroupCache)
  | answered (answer : ClientAnswer)

structure ClientWorld where
  tables : ClientTables
  cache : GroupCache
  calls : Nat → ClientPhase

/-- A step of the call `t`; the statement and the read of the profiles can fail. -/
inductive ClientStep where
  | begin (t : Nat) (call : ClientCall)
  | commit (t : Nat) (fails : Bool)
  | read (t : Nat) (fails : Bool)
  | store (t : Nat)

section

variable (unescape : GoString → Option GoString) (sanitizeColor : GoString → GoString)

def ClientCall.opening : ClientCall → ClientPhase
  | .updateClient client body =>
    if trimSpace client = [] then
      .answered (.error (400, lit "Client identifier is required"))
    else
      match unescape (trimSpace client) with
      | none => .answered (.error (400, lit "Invalid client identifier"))
      | some clientID =>
        match body with
        | none => .answered (.error (400, lit "Invalid payload"))
        | some req =>
          .writing (.updateProfile
            { clientIP := clientID
              displayName := trimSpace req.displayName
              groupName := trimSpace req.groupName
              notes := trimSpace req.notes })
  | .upsertGroup pathName body =>
    match body with
    | none => .answered (.error (400, lit "Invalid payload"))
    | some req =>
      let name := if trimSpace pathName ≠ [] then trimSpace pathName else trimSpace req.name
      if name = [] then .answered (.error (400, lit "Group name is required"))
      else
        .writing (.upsertGroup
          { name := name
            description := trimSpace req.description
            color := sanitizeColor req.color })
  | .deleteGroup group =>
    if trimSpace group = [] then .answered (.error (400, lit "Group name is required"))
    else .writing (.deleteGroup (trimSpace group))

def ClientStatement.failure : ClientStatement → ClientAnswer
  | .updateProfile _ => .error (500, lit "Failed to update client")
  | .upsertGroup _ => .error (500, lit "Failed to update client group")
  | .deleteGroup _ => .error (500, lit "Failed to delete client group")

def ClientStatement.run (tables : ClientTables) : ClientStatement → ClientTables × ClientPhase
  | .updateProfile profile => (tables.updateClientProfile profile, .committed)
  | .upsertGroup group => (tables.upsertClientGroup group, .answered (.ok ()))
  | .deleteGroup name =>
    match tables.deleteClientGroup name with
    | some tables => (tables, .committed)
    | none => (tables, .answered (.error (404, lit "Group not found")))

namespace ClientWorld

def set (w : ClientWorld) (t : Nat) (phase : ClientPhase) : ClientWorld :=
  { w with calls := Function.update w.calls t phase }

def step (w : ClientWorld) : ClientStep → ClientWorld
  | .begin t call =>
    match w.calls t with
    | .idle => w.set t (call.opening unescape sanitizeColor)
    | _ => w
  | .commit t fails =>
    match w.calls t with
    | .writing statement =>
      if fails then w.set t (.answered statement.failure)
      else { w.set t (statement.run w.tables).2 with tables := (statement.run w.tables).1 }
    | _ => w
  | .read t fails =>
    match w.calls t with
    | .committed =>
      -- a failed reload is logged, and the request is confirmed all the same
      if fails then w.set t (.answered (.ok ()))
      else w.set t (.loaded (groupCache w.tables.listClientProfiles))
    | _ => w
  | .store t =>
    match w.calls t with
    | .loaded cache => { w.set t (.answered (.ok ())) with cache := cache }
    | _ => w

def start (tables : ClientTables) : ClientWorld :=
  ⟨tables, groupCache tables.listClientProfiles, fun _ => .idle⟩

end ClientWorld

end

end GloryHole.Api
