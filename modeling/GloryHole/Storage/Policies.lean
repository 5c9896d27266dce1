import GloryHole.Policy.Engine

/-!
# The policy table

The table `policy_rules` of the database with the constraints its schema declares: an
`AUTOINCREMENT` key, a unique name and a checked action.  The constraints are fields of
the table, so every table there is satisfies them.
-/

namespace GloryHole.Storage

open Go
open Policy (Action RuleSpec)

structure PolicyRule where
  name : GoString
  logic : GoString
  action : GoString
  actionData : GoString
  enabled : Bool
  sortOrder : Int
  deriving DecidableEq

structure PolicyRow where
  id : Int
  rule : PolicyRule
  deriving DecidableEq

def PolicyRule.spec (r : PolicyRule) : RuleSpec :=
  { name := r.name, logic := r.logic, action := r.action, actionData := r.actionData,
    enabled := r.enabled }

/-- `CHECK(action IN ('BLOCK','ALLOW','REDIRECT','FORWARD'))`. -/
def checkAction (action : GoString) : Bool :=
  action == Action.actionBlock.text || action == Action.actionAllow.text ||
    action == Action.actionRedirect.text || action == Action.actionForward.text

structure PolicyTable where
  rows : List PolicyRow
  seq : Int
  ids_le : ∀ r ∈ rows, r.id ≤ seq
  ids_nodup : (rows.map (·.id)).Nodup
  names_nodup : (rows.map (·.rule.name)).Nodup
  actions_checked : ∀ r ∈ rows, checkAction r.rule.action = true

inductive StorageError where
  | uniqueConstraint
  | checkConstraint
  | notFound
  deriving DecidableEq

namespace PolicyTable

def empty : PolicyTable := ⟨[], 0, by simp, by simp, by simp, by simp⟩

/-- `ORDER BY sort_order ASC, id ASC`. -/
def rowLE (a b : PolicyRow) : Prop :=
  a.rule.sortOrder < b.rule.sortOrder ∨
    (a.rule.sortOrder = b.rule.sortOrder ∧ a.id ≤ b.id)

instance : DecidableRel rowLE := fun _ _ => inferInstanceAs (Decidable (_ ∨ _))

instance : Std.Total rowLE := ⟨fun a b => by unfold rowLE; omega⟩

instance : IsTrans PolicyRow rowLE := ⟨fun a b c => by unfold rowLE; omega⟩

def getPolicyRules (t : PolicyTable) : List PolicyRow := t.rows.insertionSort rowLE

def insert (t : PolicyTable) (rule : PolicyRule) (hcheck : checkAction rule.action = true)
    (hunique : rule.name ∉ t.rows.map (·.rule.name)) : PolicyTable where
  rows := t.rows ++ [⟨t.seq + 1, rule⟩]
  seq := t.seq + 1
  ids_le := by
    intro r hr
    rcases List.mem_append.mp hr with hr | hr
    · have := t.ids_le r hr
      omega
    · rw [List.mem_singleton.mp hr]
  ids_nodup := by
    rw [List.map_append, List.nodup_append]
    refine ⟨t.ids_nodup, by simp, ?_⟩
    intro i hi j hj
    obtain ⟨r, hr, rfl⟩ := List.mem_map.mp hi
    have := t.ids_le r hr
    simp only [List.map_cons, List.map_nil, List.mem_singleton] at hj
    omega
  names_nodup := by
    rw [List.map_append, List.nodup_append]
    refine ⟨t.names_nodup, by simp, ?_⟩
    intro n hn m hm
    simp only [List.map_cons, List.map_nil, List.mem_singleton] at hm
    rintro rfl
    exact hunique (hm ▸ hn)
  actions_checked := by
    intro r hr
    rcases List.mem_append.mp hr with hr | hr
    · exact t.actions_checked r hr
    · rw [List.mem_singleton.mp hr]
      exact hcheck

def createPolicyRule (t : PolicyTable) (rule : PolicyRule) :
    Except StorageError (PolicyTable × Int) :=
  if hcheck : checkAction rule.action = true then
    if hunique : rule.name ∉ t.rows.map (·.rule.name) then
      .ok (t.insert rule hcheck hunique, t.seq + 1)
    else .error .uniqueConstraint
  else .error .checkConstraint

def updateRow (id : Int) (rule : PolicyRule) (r : PolicyRow) : PolicyRow :=
  if r.id = id then { r with rule := rule } else r

@[simp] theorem updateRow_id (id : Int) (rule : PolicyRule) (r : PolicyRow) :
    (updateRow id rule r).id = r.id := by
  unfold updateRow
  split <;> rfl

theorem updateRow_of_ne {id : Int} {rule : PolicyRule} {r : PolicyRow} (h : r.id ≠ id) :
    updateRow id rule r = r := if_neg h

theorem updateRow_of_eq {id : Int} {rule : PolicyRule} {r : PolicyRow} (h : r.id = id) :
    updateRow id rule r = ⟨id, rule⟩ := by
  simp [updateRow, h]

theorem eq_of_id {t : PolicyTable} {a b : PolicyRow} (ha : a ∈ t.rows) (hb : b ∈ t.rows)
    (h : a.id = b.id) : a = b :=
  List.inj_on_of_nodup_map t.ids_nodup ha hb h

theorem eq_of_name {t : PolicyTable} {a b : PolicyRow} (ha : a ∈ t.rows) (hb : b ∈ t.rows)
    (h : a.rule.name = b.rule.name) : a = b :=
  List.inj_on_of_nodup_map t.names_nodup ha hb h

def update (t : PolicyTable) (id : Int) (rule : PolicyRule)
    (hcheck : checkAction rule.action = true)
    (hunique : ∀ r ∈ t.rows, r.id ≠ id → r.rule.name ≠ rule.name) : PolicyTable where
  rows := t.rows.map (updateRow id rule)
  seq := t.seq
  ids_le := by
    intro r hr
    obtain ⟨r', hr', rfl⟩ := List.mem_map.mp hr
    simpa using t.ids_le r' hr'
  ids_nodup := by
    simpa [List.map_map, Function.comp_def] using t.ids_nodup
  names_nodup := by
    rw [List.map_map]
    refine List.Nodup.map_on ?_ (List.Nodup.of_map _ t.ids_nodup)
    intro a ha b hb heq
    simp only [Function.comp_apply, updateRow] at heq
    split at heq <;> split at heq
    · rename_i h1 h2
      exact eq_of_id ha hb (h1.trans h2.symm)
    · rename_i h1 h2
      exact absurd heq.symm (hunique b hb h2)
    · rename_i h1 h2
      exact absurd heq (hunique a ha h1)
    · exact eq_of_name ha hb heq
  actions_checked := by
    intro r hr
    obtain ⟨r', hr', rfl⟩ := List.mem_map.mp hr
    unfold updateRow
    split
    · exact hcheck
    · exact t.actions_checked r' hr'

/-- `UpdatePolicyRule`.  The row is not found before a constraint is looked at. -/
def updatePolicyRule (t : PolicyTable) (id : Int) (rule : PolicyRule) :
    Except StorageError PolicyTable :=
  if id ∉ t.rows.map (·.id) then .error .notFound
  else if hcheck : checkAction rule.action = true then
    if hunique : ∀ r ∈ t.rows, r.id ≠ id → r.rule.name ≠ rule.name then
      .ok (t.update id rule hcheck hunique)
    else .error .uniqueConstraint
  else .error .checkConstraint

def deletePolicyRule (t : PolicyTable) (id : Int) : Except StorageError PolicyTable :=
  if id ∉ t.rows.map (·.id) then .error .notFound
  else
    .ok { rows := t.rows.filter fun r => r.id ≠ id
          seq := t.seq
          ids_le := fun r hr => t.ids_le r (List.mem_of_mem_filter hr)
          ids_nodup := t.ids_nodup.sublist (List.filter_sublist.map _)
          names_nodup := t.names_nodup.sublist (List.filter_sublist.map _)
          actions_checked := fun r hr => t.actions_checked r (List.mem_of_mem_filter hr) }

/-! ## The order of the rows -/

theorem getPolicyRules_perm (t : PolicyTable) : t.getPolicyRules.Perm t.rows :=
  List.perm_insertionSort _ _

@[simp] theorem mem_getPolicyRules {t : PolicyTable} {r : PolicyRow} :
    r ∈ t.getPolicyRules ↔ r ∈ t.rows :=
  t.getPolicyRules_perm.mem_iff

theorem getPolicyRules_sorted (t : PolicyTable) : t.getPolicyRules.Pairwise rowLE :=
  List.pairwise_insertionSort _ _

/-- The keys are distinct, so there is one sorted list of the rows. -/
theorem getPolicyRules_eq_of_sorted {t : PolicyTable} {rows : List PolicyRow}
    (hsorted : rows.Pairwise rowLE) (hperm : rows.Perm t.rows) : t.getPolicyRules = rows := by
  refine (t.getPolicyRules_perm.trans hperm.symm).eq_of_pairwise ?_
    t.getPolicyRules_sorted hsorted
  intro a b ha hb hab hba
  refine eq_of_id (mem_getPolicyRules.mp ha) (hperm.mem_iff.mp hb) ?_
  unfold rowLE at hab hba
  omega

def RowBefore (a b : PolicyRow) : Prop :=
  a.rule.sortOrder < b.rule.sortOrder ∨
    (a.rule.sortOrder = b.rule.sortOrder ∧ a.id < b.id)

instance : DecidableRel RowBefore := fun _ _ => inferInstanceAs (Decidable (_ ∨ _))

theorem getPolicyRules_before (t : PolicyTable) : t.getPolicyRules.Pairwise RowBefore := by
  have hne : t.getPolicyRules.Pairwise fun a b => a.id ≠ b.id :=
    List.pairwise_map.mp ((t.getPolicyRules_perm.map PolicyRow.id).nodup_iff.mpr t.ids_nodup)
  refine (t.getPolicyRules_sorted.and hne).imp ?_
  rintro a b ⟨hle, hne⟩
  unfold rowLE at hle
  unfold RowBefore
  omega

end PolicyTable

end GloryHole.Storage
