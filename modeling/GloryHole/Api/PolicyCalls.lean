import Mathlib.Logic.Function.Basic
import GloryHole.Api.Policies

/-!
# Policy requests side by side

The handlers of the policies API in the steps between which another one can run: a handler
makes its checks, with the read of the table that adding and deleting begin with, writes the
table, reads it back and compiles the rules, and replaces those of the engine.  There is no
lock around them.
-/

namespace GloryHole.Api

open Go Policy Storage

inductive PolicyCall where
  | add (body : Option PolicyRequest)
  | update (id : Option Int) (body : Option PolicyRequest)
  | delete (id : Option Int)

inductive PolicyPhase where
  | idle
  | adding (req : PolicyRequest) (sortOrder : Int)
  | updating (id : Int) (req : PolicyRequest)
  | deleting (id : Int) (name : GoString)
  | committed (response : Response)
  | compiled (rules : List Rule) (response : Response)
  | answered (response : Response)

structure PolicyWorld where
  table : PolicyTable
  engine : List Rule
  calls : Nat → PolicyPhase

inductive PolicyStep where
  | begin (t : Nat) (call : PolicyCall) (fails : Bool)
  | commit (t : Nat)
  | read (t : Nat) (fails : Bool)
  | replace (t : Nat)

namespace PolicyWorld

def server (w : PolicyWorld) : Server := ⟨w.table, some w.engine⟩

def set (w : PolicyWorld) (t : Nat) (phase : PolicyPhase) : PolicyWorld :=
  { w with calls := Function.update w.calls t phase }

/-- The statement a call executes next, if it is due to write the table: its error, or the
table after it and the answer the call will give. -/
def statement (w : PolicyWorld) :
    PolicyPhase → Option (Except StorageError (PolicyTable × Response))
  | .adding req sortOrder =>
    some ((w.table.createPolicyRule (req.dbRule sortOrder)).map fun p => (p.1, .created p.2 req))
  | .updating id req =>
    some ((w.table.updatePolicyRule id (req.dbRule 0)).map fun table => (table, .ok id req))
  | .deleting id name =>
    some ((w.table.deletePolicyRule id).map fun table => (table, .deleted id name))
  | _ => none

section

variable (upper : Nat → Nat) (lang : ExprLang)

def opening (w : PolicyWorld) (fails : Bool) : PolicyCall → PolicyPhase
  | .add body =>
    match checkRequest upper lang w.server body with
    | .error err => .answered (.error err)
    | .ok req =>
      let existing := if fails then [] else w.table.getPolicyRules
      .adding req existing.length
  | .update id body =>
    match id with
    | none => .answered (.error .invalidID)
    | some id =>
      match checkRequest upper lang w.server body with
      | .error err => .answered (.error err)
      | .ok req => .updating id req
  | .delete id =>
    match id with
    | none => .answered (.error .invalidID)
    | some id =>
      let rules := if fails then [] else w.table.getPolicyRules
      match rules.find? (·.id = id) with
      | none => .answered (.error .policyNotFound)
      | some row =>
        if row.rule.name = [] then .answered (.error .policyNotFound)
        else .deleting id row.rule.name

def step (w : PolicyWorld) : PolicyStep → PolicyWorld
  | .begin t call fails =>
    match w.calls t with
    | .idle => w.set t (w.opening upper lang fails call)
    | _ => w
  | .commit t =>
    match w.statement (w.calls t) with
    | some (.ok (table, response)) => { w.set t (.committed response) with table := table }
    | some (.error err) => w.set t (.answered (.error (.storage err)))
    | none => w
  | .read t fails =>
    match w.calls t with
    | .committed response =>
      -- a failed rebuild is logged, and the request is answered all the same
      if fails then w.set t (.answered response)
      else w.set t (.compiled (compiledRules upper lang w.table) response)
    | _ => w
  | .replace t =>
    match w.calls t with
    | .compiled rules response => { w.set t (.answered response) with engine := rules }
    | _ => w

end

end PolicyWorld

def PolicyCall.handle (upper : Nat → Nat) (lang : ExprLang) (s : Server) (faults : Faults) :
    PolicyCall → Server × Response
  | .add body => handleAddPolicy upper lang s body faults
  | .update id body => handleUpdatePolicy upper lang s id body faults
  | .delete id => handleDeletePolicy upper lang s id faults

def callSteps (t : Nat) (call : PolicyCall) (faults : Faults) : List PolicyStep :=
  [.begin t call faults.count, .commit t, .read t faults.rebuild, .replace t]

end GloryHole.Api
