import GloryHole.Boot.Engine
import GloryHole.Boot.Proofs.Refinement
import GloryHole.Support.Ranking

/-!
# What decides after rules were inserted

If no rule that was in the table matches a query, the rule that decides it is the inserted
one with the lowest position among those that match, the first inserted in case of a tie.
-/

namespace GloryHole.Boot

open Go Policy Storage Storage.PolicyTable
open Api (compiledRules)
open Config (Config)
open Support.Ranking (argmin_map head?_insertionSort)

/-! ## Keys -/

theorem createRules_of_accepted_nil {rules : List PolicyRule} {t : PolicyTable}
    (h : accepted (t.rows.map (·.rule.name)) rules = []) : createRules t rules = t := by
  induction rules with
  | nil => rfl
  | cons rule rules ih =>
    rw [accepted] at h
    rw [createRules_cons]
    split at h
    · cases h
    · rename_i hnot
      rw [dif_neg hnot, ih h]

/-! ## The first that matches -/

section

variable (upper : Nat → Nat) (lang : ExprLang)

def fires (ctx : Context) (spec : RuleSpec) : Bool :=
  (spec.compile upper lang).any (·.matches lang ctx)

variable {upper lang}

theorem evaluate_filterMap {α : Type} (spec : α → RuleSpec) (xs : List α) (ctx : Context) :
    evaluate lang (xs.filterMap fun x => (spec x).compile upper lang) ctx =
      (xs.find? fun x => fires upper lang ctx (spec x)).bind
        fun x => (spec x).compile upper lang :=
  List.find?_filterMap

theorem evaluate_eq_none_iff {α : Type} {spec : α → RuleSpec} {xs : List α} {ctx : Context} :
    evaluate lang (xs.filterMap fun x => (spec x).compile upper lang) ctx = none ↔
      ∀ x ∈ xs, fires upper lang ctx (spec x) = false := by
  rw [evaluate, List.find?_eq_none, List.forall_mem_filterMap]
  apply forall₂_congr
  intro x hx
  unfold fires
  cases (spec x).compile upper lang with
  | none | some rule => simp

/-- The rows with a property, in the order of the table. -/
theorem filter_getPolicyRules {t : PolicyTable} {old new : List PolicyRow}
    (hrows : t.rows = old ++ new) {p : PolicyRow → Bool} (hold : ∀ r ∈ old, p r = false) :
    t.getPolicyRules.filter p = (new.filter p).insertionSort rowLE := by
  have hfilter : t.rows.filter p = new.filter p := by
    rw [hrows, List.filter_append, List.filter_eq_nil_iff.mpr (by simpa using hold),
      List.nil_append]
  have hperm : (t.getPolicyRules.filter p).Perm ((new.filter p).insertionSort rowLE) := by
    refine (t.getPolicyRules_perm.filter p).trans ?_
    rw [hfilter]
    exact (List.perm_insertionSort rowLE _).symm
  refine hperm.eq_of_pairwise ?_ (t.getPolicyRules_sorted.filter p)
    (List.pairwise_insertionSort rowLE _)
  intro a b ha hb hab hba
  have hmem {r : PolicyRow} (hr : r ∈ t.getPolicyRules.filter p) : r ∈ t.rows :=
    mem_getPolicyRules.mp (List.mem_of_mem_filter hr)
  refine eq_of_id (hmem ha) (hmem (hperm.mem_iff.mpr hb)) ?_
  unfold rowLE at hab hba
  omega

/-- Which rule decides a query that the rows of `t` leave alone, after `rules` were
inserted. -/
theorem evaluate_createRules {t : PolicyTable} {rules : List PolicyRule} {ctx : Context}
    (hold : ∀ r ∈ t.rows, fires upper lang ctx r.rule.spec = false) :
    evaluate lang (compiledRules upper lang (createRules t rules)) ctx =
      (((accepted (t.rows.map (·.rule.name)) rules).filter
          (fires upper lang ctx ·.spec)).argmin (·.sortOrder)).bind
        fun r => r.spec.compile upper lang := by
  obtain ⟨new, hrows, hrules, hkeys, -⟩ := createRules_keys rules t
  let p : PolicyRow → Bool := fun r => fires upper lang ctx r.rule.spec
  have horder : (new.filter p).Pairwise fun a b =>
      rowLE a b ↔ a.rule.sortOrder ≤ b.rule.sortOrder := by
    refine (hkeys.filter p).imp ?_
    intro a b hlt
    unfold rowLE
    omega
  have hfirst : (createRules t rules).getPolicyRules.find? p =
      (new.filter p).argmin fun r => r.rule.sortOrder := by
    rw [← List.head?_filter, filter_getPolicyRules hrows hold, head?_insertionSort horder]
  have hnew : (accepted (t.rows.map (·.rule.name)) rules).filter (fires upper lang ctx ·.spec) =
      (new.filter p).map (·.rule) := by
    rw [← hrules, List.filter_map]
    rfl
  refine (@evaluate_filterMap upper lang PolicyRow (fun r => r.rule.spec) _ ctx).trans ?_
  rw [hfirst, hnew, argmin_map, Option.bind_map]
  rfl

/-- The same with the first-boot seed after the inserts, which an empty table gets. -/
theorem evaluate_seed_createRules {cfg : Config} {t : PolicyTable} {rules : List PolicyRule}
    {ctx : Context}
    (hnone : evaluate lang (compiledRules upper lang (seedPolicies cfg t)) ctx = none) :
    evaluate lang (compiledRules upper lang (seedPolicies cfg (createRules t rules))) ctx =
      (((accepted (t.rows.map (·.rule.name)) rules).filter
          (fires upper lang ctx ·.spec)).argmin (·.sortOrder)).bind
        fun r => r.spec.compile upper lang := by
  by_cases haccepted : accepted (t.rows.map (·.rule.name)) rules = []
  · rw [createRules_of_accepted_nil haccepted, hnone, haccepted]
    rfl
  · obtain ⟨new, hrows, hrules⟩ := createRules_rows rules t
    have hne : (createRules t rules).rows ≠ [] := by
      rw [hrows]
      apply List.append_ne_nil_of_right_ne_nil
      rintro rfl
      exact haccepted hrules.symm
    rw [seedPolicies_eq, if_neg hne]
    apply evaluate_createRules
    intro r hr
    have hold : seedPolicies cfg t = t := by
      rw [seedPolicies_eq, if_neg (List.ne_nil_of_mem hr)]
    rw [hold] at hnone
    exact evaluate_eq_none_iff.mp hnone r (mem_getPolicyRules.mpr hr)

end

end GloryHole.Boot
