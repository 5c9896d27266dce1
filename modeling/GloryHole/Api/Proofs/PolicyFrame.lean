import GloryHole.Api.Policies
import GloryHole.Storage.Proofs.Order

/-!
# The frame of a policy edit

An edit writes the row with position 0, since the request carries none.  The evaluation
order survives exactly when no other rule lies between that place and the old one.
-/

namespace GloryHole.Api

open Go Policy Storage Storage.PolicyTable

section

variable {upper : Nat → Nat} {lang : ExprLang}

/-! ## What a successful edit does -/

theorem checkRequest_ok {s : Server} {body : Option PolicyRequest} {req : PolicyRequest}
    (h : checkRequest upper lang s body = .ok req) :
    body = some req ∧ ∃ rule, req.spec.compile upper lang = some rule := by
  unfold checkRequest at h
  split at h
  · cases h
  · cases h
  · rename_i req'
    split at h
    · cases h
    · split at h
      · cases h
      · rename_i rule hrule
        cases h
        exact ⟨rfl, rule, hrule⟩

theorem updatePolicyRule_ok {t t' : PolicyTable} {id : Int} {rule : PolicyRule}
    (h : t.updatePolicyRule id rule = .ok t') :
    id ∈ t.rows.map (·.id) ∧ ∃ hcheck hunique, t' = t.update id rule hcheck hunique := by
  unfold PolicyTable.updatePolicyRule at h
  split at h
  · cases h
  · rename_i hmem
    split at h
    · rename_i hcheck
      split at h
      · rename_i hunique
        cases h
        exact ⟨not_not.mp hmem, hcheck, hunique, rfl⟩
      · cases h
    · cases h

theorem handleUpdatePolicy_ok {s s' : Server} {pathID : Option Int}
    {body : Option PolicyRequest} {faults : Faults} {id : Int} {req : PolicyRequest}
    (h : handleUpdatePolicy upper lang s pathID body faults = (s', .ok id req)) :
    id ∈ s.table.rows.map (·.id) ∧ (∃ rule, req.spec.compile upper lang = some rule) ∧
      ∃ hcheck hunique, s' = s.rebuild upper lang
        (s.table.update id (req.dbRule 0) hcheck hunique) faults := by
  unfold handleUpdatePolicy at h
  split at h
  · cases h
  · cases h
  · split at h
    · cases h
    · rename_i req' hreq
      split at h
      · cases h
      · rename_i table htable
        cases h
        obtain ⟨hmem, hcheck, hunique, rfl⟩ := updatePolicyRule_ok htable
        exact ⟨hmem, (checkRequest_ok hreq).2, hcheck, hunique, rfl⟩

/-! ## The frame -/

variable (upper lang)

def compiledIDs (t : PolicyTable) : List Int :=
  (t.getPolicyRules.filter fun r => (r.rule.spec.compile upper lang).isSome).map (·.id)

/-- The tables before and after an edit of the row `id`: the evaluation order is the
same, in the table and among the rules the engine had, and no other row has changed. -/
structure FramePreserved (t t' : PolicyTable) (id : Int) : Prop where
  order : t'.getPolicyRules.map (·.id) = t.getPolicyRules.map (·.id)
  engineOrder : (compiledIDs upper lang t').filter (· ∈ compiledIDs upper lang t) =
    compiledIDs upper lang t
  others : ∀ r : PolicyRow, r.id ≠ id → (r ∈ t'.rows ↔ r ∈ t.rows)

variable {upper lang}

theorem mem_compiledIDs {t : PolicyTable} {r : PolicyRow} (hr : r ∈ t.rows) :
    r.id ∈ compiledIDs upper lang t ↔ (r.rule.spec.compile upper lang).isSome := by
  constructor
  · intro h
    obtain ⟨r', hr', hid⟩ := List.mem_map.mp h
    obtain ⟨hmem, hcompiles⟩ := List.mem_filter.mp hr'
    rwa [← eq_of_id (mem_getPolicyRules.mp hmem) hr hid]
  · intro h
    exact List.mem_map.mpr ⟨r, List.mem_filter.mpr ⟨mem_getPolicyRules.mpr hr, h⟩, rfl⟩

/-- The edited rule compiles, so the engine keeps all it had. -/
theorem engineOrder_update {t : PolicyTable} {id : Int} {rule : PolicyRule}
    {hcheck : checkAction rule.action = true}
    {hunique : ∀ r ∈ t.rows, r.id ≠ id → r.rule.name ≠ rule.name}
    (hcompiles : (rule.spec.compile upper lang).isSome) (hsame : SamePlace t id rule) :
    (compiledIDs upper lang (t.update id rule hcheck hunique)).filter
        (· ∈ compiledIDs upper lang t) = compiledIDs upper lang t := by
  have hafter : compiledIDs upper lang (t.update id rule hcheck hunique) =
      (t.getPolicyRules.filter fun r =>
        ((updateRow id rule r).rule.spec.compile upper lang).isSome).map (·.id) := by
    rw [compiledIDs, getPolicyRules_update hsame, List.filter_map, List.map_map]
    simp only [Function.comp_def, updateRow_id]
  rw [hafter, List.filter_map, List.filter_filter]
  conv_rhs => rw [compiledIDs]
  congr 1
  refine List.filter_congr ?_
  intro r hr
  have hmem := mem_getPolicyRules.mp hr
  rw [Bool.eq_iff_iff, Bool.and_eq_true, Function.comp_apply, decide_eq_true_eq,
    mem_compiledIDs hmem]
  refine and_iff_left_of_imp ?_
  intro h
  by_cases hid : r.id = id
  · rw [updateRow_of_eq hid]
    exact hcompiles
  · rw [updateRow_of_ne hid]
    exact h

/-- A successful edit preserves the frame exactly when every other rule is on the same
side of the old place of the edited rule and of position 0. -/
theorem framePreserved_iff {s s' : Server} {pathID : Option Int}
    {body : Option PolicyRequest} {faults : Faults} {id : Int} {req : PolicyRequest}
    (h : handleUpdatePolicy upper lang s pathID body faults = (s', .ok id req)) :
    FramePreserved upper lang s.table s'.table id ↔
      ∀ old ∈ s.table.rows, old.id = id → ∀ r ∈ s.table.rows, r.id ≠ id →
        (RowBefore r old ↔ r.rule.sortOrder < 0 ∨ (r.rule.sortOrder = 0 ∧ r.id < id)) := by
  obtain ⟨-, ⟨rule, hrule⟩, hcheck, hunique, rfl⟩ := handleUpdatePolicy_ok h
  have hcompiles : ((req.dbRule 0).spec.compile upper lang).isSome := by
    rw [show (req.dbRule 0).spec = req.spec from rfl, hrule]
    rfl
  change FramePreserved upper lang s.table (s.table.update id (req.dbRule 0) hcheck hunique) id ↔
    SamePlace s.table id (req.dbRule 0)
  constructor
  · intro hframe
    exact samePlace_of_order hframe.order
  · intro hsame
    exact ⟨order_update_iff.mpr hsame, engineOrder_update hcompiles hsame,
      fun r hr => mem_update_of_ne hr⟩

end

/-! ## Two rules -/

def anyLang : ExprLang := { compiles := fun _ => true, run := fun _ _ => some true }

def twoPolicies : Server :=
  let s : Server := ⟨PolicyTable.empty, some []⟩
  let s := (handleAddPolicy id anyLang s
    (some ⟨lit "first", lit "true", lit "BLOCK", [], true⟩) {}).1
  (handleAddPolicy id anyLang s (some ⟨lit "second", lit "true", lit "ALLOW", [], true⟩) {}).1

theorem framePreserved_iff_first :
    FramePreserved id anyLang twoPolicies.table
        (handleUpdatePolicy id anyLang twoPolicies (some 1)
          (some ⟨lit "first", lit "false", lit "BLOCK", [], true⟩) {}).1.table 1 ↔
      ∀ old ∈ twoPolicies.table.rows, old.id = 1 → ∀ r ∈ twoPolicies.table.rows, r.id ≠ 1 →
        (RowBefore r old ↔ r.rule.sortOrder < 0 ∨ (r.rule.sortOrder = 0 ∧ r.id < 1)) :=
  @framePreserved_iff id anyLang twoPolicies _ (some 1)
    (some ⟨lit "first", lit "false", lit "BLOCK", [], true⟩) {} 1
    ⟨lit "first", lit "false", lit "BLOCK", [], true⟩ rfl

/-- Disabling the third of three policies moves it in front of the second. -/
theorem update_moves_rule :
    ∃ s : Server, ∃ s' : Server, ∃ req : PolicyRequest,
      handleUpdatePolicy id anyLang s (some 3) (some req) {} = (s', .ok 3 req) ∧
        s.table.getPolicyRules.map (·.id) = [1, 2, 3] ∧
        s'.table.getPolicyRules.map (·.id) = [1, 3, 2] := by
  refine ⟨(handleAddPolicy id anyLang twoPolicies
      (some ⟨lit "third", lit "true", lit "BLOCK", [], true⟩) {}).1, _,
    ⟨lit "third", lit "true", lit "BLOCK", [], false⟩, rfl, ?_, ?_⟩
  · decide
  · decide

end GloryHole.Api
