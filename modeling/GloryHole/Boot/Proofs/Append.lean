import GloryHole.Api.Proofs.PolicyFrame
import GloryHole.Boot.Policies
import GloryHole.Config.Load
import GloryHole.Support.Runs

/-!
# Appending a policy

The position of a new policy is the number of rules there are.  Positions of the rules
already there come from earlier counts, from the whitelist, from the band above 1000 of
the migrated forwarding rules and from edits; the new rule is evaluated last exactly
when none of them exceeds the count.
-/

namespace GloryHole.Boot

open Go Policy Storage Storage.PolicyTable
open Api (PolicyRequest Faults compiledRules handleAddPolicy handleUpdatePolicy
  handleDeletePolicy)
open Config (Config)
open Support.Runs

/-! ## Histories -/

structure System where
  db : Database
  engine : Option (List Rule)

inductive Event where
  | add (body : Option PolicyRequest) (faults : Faults)
  | update (id : Option Int) (body : Option PolicyRequest) (faults : Faults)
  | delete (id : Option Int) (faults : Faults)
  | start (cfg : Config)

def System.server (s : System) : Api.Server := ⟨s.db.table, s.engine⟩

def System.withServer (s : System) (srv : Api.Server) : System :=
  { db := { s.db with table := srv.table }, engine := srv.engine }

section

variable (upper : Nat → Nat) (printable : Nat → Bool) (lang : ExprLang)

def step (s : System) : Event → System
  | .add body faults => s.withServer (handleAddPolicy upper lang s.server body faults).1
  | .update id body faults =>
    s.withServer (handleUpdatePolicy upper lang s.server id body faults).1
  | .delete id faults => s.withServer (handleDeletePolicy upper lang s.server id faults).1
  | .start cfg =>
    let (_, db, rules) := boot upper printable lang cfg s.db
    { db := db, engine := some rules }

def fresh : System := ⟨⟨PolicyTable.empty, false, false⟩, none⟩

variable {upper lang}

theorem createPolicyRule_ok {t t' : PolicyTable} {rule : PolicyRule} {id : Int}
    (h : t.createPolicyRule rule = .ok (t', id)) :
    id = t.seq + 1 ∧ ∃ hcheck hunique, t' = t.insert rule hcheck hunique := by
  unfold PolicyTable.createPolicyRule at h
  split at h
  · rename_i hcheck
    split at h
    · rename_i hunique
      cases h
      exact ⟨rfl, hcheck, hunique, rfl⟩
    · cases h
  · cases h

theorem handleAddPolicy_created {s s' : Api.Server} {body : Option PolicyRequest}
    {faults : Faults} {id : Int} {req : PolicyRequest}
    (h : handleAddPolicy upper lang s body faults = (s', .created id req)) :
    (∃ rule, req.spec.compile upper lang = some rule) ∧ id = s.table.seq + 1 ∧
      ∃ hcheck hunique, s'.table = s.table.insert
        (req.dbRule (if faults.count then 0 else (s.table.rows.length : Int))) hcheck hunique := by
  unfold handleAddPolicy at h
  split at h
  · cases h
  · rename_i req' hreq
    have hcount : ((if faults.count then [] else s.table.getPolicyRules).length : Int) =
        if faults.count then 0 else (s.table.rows.length : Int) := by
      split
      · rfl
      · rw [s.table.getPolicyRules_perm.length_eq]
    simp only [hcount] at h
    split at h
    · cases h
    · rename_i table newID htable
      cases h
      obtain ⟨rfl, hcheck, hunique, rfl⟩ := createPolicyRule_ok htable
      exact ⟨(Api.checkRequest_ok hreq).2, rfl, hcheck, hunique, rfl⟩

end

/-! ## A migrated forwarding rule -/

end GloryHole.Boot
