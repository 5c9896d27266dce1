import GloryHole.Storage.Policies

/-!
# The evaluation order under writes

Where an inserted row lands, and when an update moves the row it changes.
-/

namespace GloryHole.Storage.PolicyTable

open Go

/-- Rows with different keys are in one of the two orders. -/
theorem rowBefore_of_not {a b : PolicyRow} (hne : a.id ≠ b.id) (h : ¬ RowBefore a b) :
    RowBefore b a := by
  unfold RowBefore at h ⊢
  omega

theorem rowBefore_asymm {a b : PolicyRow} (h : RowBefore a b) : ¬ RowBefore b a := by
  unfold RowBefore at h ⊢
  omega

theorem rowLE_of_rowBefore {a b : PolicyRow} (h : RowBefore a b) : rowLE a b := by
  unfold RowBefore at h
  unfold rowLE
  omega

/-! ## Insertion -/

section Insert

variable {t : PolicyTable} {rule : PolicyRule} {hcheck : checkAction rule.action = true}
  {hunique : rule.name ∉ t.rows.map (·.rule.name)}

end Insert

/-! ## Update -/

section Update

variable {t : PolicyTable} {id : Int} {rule : PolicyRule}
  {hcheck : checkAction rule.action = true}
  {hunique : ∀ r ∈ t.rows, r.id ≠ id → r.rule.name ≠ rule.name}

def SamePlace (t : PolicyTable) (id : Int) (rule : PolicyRule) : Prop :=
  ∀ old ∈ t.rows, old.id = id → ∀ r ∈ t.rows, r.id ≠ id →
    (RowBefore r old ↔ RowBefore r ⟨id, rule⟩)

theorem getPolicyRules_update (hsame : SamePlace t id rule) :
    (t.update id rule hcheck hunique).getPolicyRules =
      t.getPolicyRules.map (updateRow id rule) := by
  refine getPolicyRules_eq_of_sorted ?_ (t.getPolicyRules_perm.map _)
  refine List.pairwise_map.mpr (t.getPolicyRules_before.imp_of_mem ?_)
  intro a b ha hb hab
  have ha := mem_getPolicyRules.mp ha
  have hb := mem_getPolicyRules.mp hb
  have hne : a.id ≠ b.id := by
    intro heq
    rw [eq_of_id ha hb heq] at hab
    exact rowBefore_asymm hab hab
  refine rowLE_of_rowBefore ?_
  by_cases haid : a.id = id
  · -- `b` was not before the changed row and still is not
    have hbid : b.id ≠ id := fun h => hne (haid.trans h.symm)
    rw [updateRow_of_eq haid, updateRow_of_ne hbid]
    refine rowBefore_of_not hbid ?_
    rw [← hsame a ha haid b hb hbid]
    exact rowBefore_asymm hab
  · by_cases hbid : b.id = id
    · rw [updateRow_of_ne haid, updateRow_of_eq hbid]
      exact (hsame b hb hbid a ha haid).mp hab
    · rw [updateRow_of_ne haid, updateRow_of_ne hbid]
      exact hab

/-- Two lists of rows of one table with the same keys are the same list. -/
theorem eq_of_map_id {xs ys : List PolicyRow} (hxs : ∀ r ∈ xs, r ∈ t.rows)
    (hys : ∀ r ∈ ys, r ∈ t.rows) (h : xs.map (·.id) = ys.map (·.id)) : xs = ys := by
  have hlen : xs.length = ys.length := by simpa using congrArg List.length h
  refine List.ext_getElem hlen ?_
  intro i hi hi'
  refine eq_of_id (hxs _ (List.getElem_mem hi)) (hys _ (List.getElem_mem hi')) ?_
  have := List.getElem_of_eq h (by simpa using hi)
  simpa using this

theorem rel_or_swap {α : Type*} {R : α → α → Prop} {l : List α} (hl : l.Pairwise R) {a b : α}
    (ha : a ∈ l) (hb : b ∈ l) (hne : a ≠ b) : R a b ∨ R b a :=
  have : Std.Symm fun x y => R x y ∨ R y x := ⟨fun _ _ => Or.symm⟩
  (hl.imp fun h => Or.inl h : l.Pairwise fun x y => R x y ∨ R y x).forall ha hb hne

theorem samePlace_of_order
    (horder : (t.update id rule hcheck hunique).getPolicyRules.map (·.id) =
      t.getPolicyRules.map (·.id)) : SamePlace t id rule := by
  have hmap : (t.update id rule hcheck hunique).getPolicyRules =
      t.getPolicyRules.map (updateRow id rule) := by
    refine eq_of_map_id (t := t.update id rule hcheck hunique)
      (fun r hr => mem_getPolicyRules.mp hr) ?_ ?_
    · intro r hr
      obtain ⟨r', hr', rfl⟩ := List.mem_map.mp hr
      exact List.mem_map_of_mem (mem_getPolicyRules.mp hr')
    · rw [horder, List.map_map]
      simp [Function.comp_def]
  -- every two rows are in the same order before and after the update
  have hboth := t.getPolicyRules_before.and
    (List.pairwise_map.mp (hmap ▸ (t.update id rule hcheck hunique).getPolicyRules_before))
  intro old hold holdid r hr hrid
  have hne : r ≠ old := fun h => hrid (h ▸ holdid)
  have hpair := rel_or_swap hboth (mem_getPolicyRules.mpr hr) (mem_getPolicyRules.mpr hold) hne
  rw [updateRow_of_ne hrid, updateRow_of_eq holdid] at hpair
  rcases hpair with ⟨hbefore, hafter⟩ | ⟨hbefore, hafter⟩
  · exact ⟨fun _ => hafter, fun _ => hbefore⟩
  · exact ⟨fun h => absurd hbefore (rowBefore_asymm h),
      fun h => absurd hafter (rowBefore_asymm h)⟩

/-- An update keeps the evaluation order exactly when its row keeps its place. -/
theorem order_update_iff :
    (t.update id rule hcheck hunique).getPolicyRules.map (·.id) =
        t.getPolicyRules.map (·.id) ↔ SamePlace t id rule := by
  refine ⟨samePlace_of_order, fun hsame => ?_⟩
  rw [getPolicyRules_update hsame, List.map_map]
  simp [Function.comp_def]

theorem mem_update_of_ne {r : PolicyRow} (hr : r.id ≠ id) :
    r ∈ (t.update id rule hcheck hunique).rows ↔ r ∈ t.rows := by
  constructor
  · intro h
    obtain ⟨r', hr', rfl⟩ := List.mem_map.mp h
    rw [updateRow_id] at hr
    rwa [updateRow_of_ne hr]
  · intro h
    exact List.mem_map.mpr ⟨r, h, updateRow_of_ne hr⟩

end Update

end GloryHole.Storage.PolicyTable
