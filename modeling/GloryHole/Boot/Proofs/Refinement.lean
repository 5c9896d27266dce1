import GloryHole.Boot.Proofs.Append

/-!
# Boot refinement

What a start adds to the table is a function of the configuration and of the names that
are taken: the migrated rules the table accepts or, if it is empty then, the rules of the
YAML file it accepts.  From that follows when the engine evaluates what it is meant to.
-/

namespace GloryHole.Boot

open Go Policy Storage Storage.PolicyTable
open Api (compiledRules)
open Config (Config)
open Support.Runs

/-! ## What a start adds -/

def accepted : List GoString → List PolicyRule → List PolicyRule
  | _, [] => []
  | taken, rule :: rules =>
    if checkAction rule.action = true ∧ rule.name ∉ taken then
      rule :: accepted (taken ++ [rule.name]) rules
    else accepted taken rules

def migratedRules (printable : Nat → Bool) (cfg : Config) (db : Database) : List PolicyRule :=
  (if db.whitelistMigrated then [] else whitelistRules cfg) ++
    if db.conditionalForwardingMigrated then [] else forwardingRules printable cfg

def addedRules (printable : Nat → Bool) (cfg : Config) (db : Database) : List PolicyRule :=
  let migrated := accepted (db.table.rows.map (·.rule.name)) (migratedRules printable cfg db)
  if db.table.rows = [] ∧ migrated = [] then accepted [] (seedRules cfg) else migrated

theorem mem_of_mem_accepted {rule : PolicyRule} {taken : List GoString}
    {rules : List PolicyRule} (h : rule ∈ accepted taken rules) : rule ∈ rules := by
  induction rules generalizing taken with
  | nil => cases h
  | cons r rules ih =>
    unfold accepted at h
    split at h
    · rcases List.mem_cons.mp h with rfl | h
      · exact List.mem_cons_self
      · exact List.mem_cons_of_mem _ (ih h)
    · exact List.mem_cons_of_mem _ (ih h)

theorem createRules_cons (t : PolicyTable) (rule : PolicyRule) (rules : List PolicyRule) :
    createRules t (rule :: rules) =
      if h : checkAction rule.action = true ∧ rule.name ∉ t.rows.map (·.rule.name) then
        createRules (t.insert rule h.1 h.2) rules
      else createRules t rules := by
  rw [createRules, List.foldl_cons, PolicyTable.createPolicyRule]
  by_cases hcheck : checkAction rule.action = true
  · by_cases hunique : rule.name ∉ t.rows.map (·.rule.name)
    · rw [dif_pos hcheck, dif_pos hunique, dif_pos ⟨hcheck, hunique⟩]
      rfl
    · rw [dif_pos hcheck, dif_neg hunique, dif_neg fun h => hunique h.2]
      rfl
  · rw [dif_neg hcheck, dif_neg fun h => hcheck h.1]
    rfl

theorem createRules_append (t : PolicyTable) (xs ys : List PolicyRule) :
    createRules t (xs ++ ys) = createRules (createRules t xs) ys := by
  simp only [createRules, List.foldl_append]

/-- A list of rules inserts rows after the others, with the accepted rules; keys are given out in
the order of the inserts. -/
theorem createRules_keys (rules : List PolicyRule) (t : PolicyTable) :
    ∃ new, (createRules t rules).rows = t.rows ++ new ∧
      new.map (·.rule) = accepted (t.rows.map (·.rule.name)) rules ∧
      new.Pairwise (·.id < ·.id) ∧ ∀ r ∈ new, t.seq < r.id := by
  induction rules generalizing t with
  | nil => exact ⟨[], by simp [createRules], rfl, List.Pairwise.nil, by simp⟩
  | cons rule rules ih =>
    rw [createRules_cons, accepted]
    by_cases h : checkAction rule.action = true ∧ rule.name ∉ t.rows.map (·.rule.name)
    · obtain ⟨new, hrows, hrules, hkeys, hseq⟩ := ih (t.insert rule h.1 h.2)
      rw [dif_pos h, if_pos h]
      refine ⟨⟨t.seq + 1, rule⟩ :: new, ?_, ?_, ?_, ?_⟩
      · rw [hrows]
        simp [PolicyTable.insert]
      · rw [List.map_cons, hrules]
        simp [PolicyTable.insert]
      · exact List.pairwise_cons.mpr ⟨hseq, hkeys⟩
      · rw [List.forall_mem_cons]
        refine ⟨Int.lt_succ t.seq, fun r hr => ?_⟩
        exact (Int.lt_succ t.seq).trans (hseq r hr)
    · rw [dif_neg h, if_neg h]
      exact ih t

theorem createRules_rows (rules : List PolicyRule) (t : PolicyTable) :
    ∃ new, (createRules t rules).rows = t.rows ++ new ∧
      new.map (·.rule) = accepted (t.rows.map (·.rule.name)) rules := by
  obtain ⟨new, hrows, hrules, -⟩ := createRules_keys rules t
  exact ⟨new, hrows, hrules⟩

theorem seedPolicies_eq (cfg : Config) (t : PolicyTable) :
    seedPolicies cfg t = if t.rows = [] then createRules t (seedRules cfg) else t := by
  have hempty : t.getPolicyRules = [] ↔ t.rows = [] :=
    ⟨fun h => List.nil_perm.mp (h ▸ t.getPolicyRules_perm),
      fun h => List.perm_nil.mp (h ▸ t.getPolicyRules_perm)⟩
  unfold seedPolicies
  simp only [hempty]
  by_cases hrows : t.rows = []
  · by_cases hyaml : cfg.policy.rules = []
    · simp [hrows, hyaml, seedRules, createRules]
    · simp [hrows, hyaml]
  · simp [hrows]

theorem migrateWhitelistToPolicies_spec (cfg : Config) (db : Database) :
    let after := migrateWhitelistToPolicies cfg db
    after.2.table =
        createRules db.table (if db.whitelistMigrated then [] else whitelistRules cfg) ∧
      after.2.conditionalForwardingMigrated = db.conditionalForwardingMigrated ∧
      after.1.conditionalForwarding = cfg.conditionalForwarding ∧
      after.1.policy.rules = cfg.policy.rules := by
  unfold migrateWhitelistToPolicies
  by_cases hnil : cfg.whitelist = []
  · simp [hnil, whitelistRules, createRules]
  · by_cases hdone : db.whitelistMigrated = true
    · simp [hnil, hdone, createRules]
    · simp [hnil, hdone]

theorem migrateConditionalForwardingToPolicies_spec (printable : Nat → Bool) (cfg : Config)
    (db : Database) :
    let after := migrateConditionalForwardingToPolicies printable cfg db
    after.2.table = createRules db.table
        (if db.conditionalForwardingMigrated then [] else forwardingRules printable cfg) ∧
      after.1.policy.rules = cfg.policy.rules := by
  unfold migrateConditionalForwardingToPolicies
  by_cases hskip : ¬ cfg.conditionalForwarding.enabled ∨ cfg.conditionalForwarding.rules = []
  · have hnone : forwardingRules printable cfg = [] := by
      rcases hskip with h | h <;> simp [forwardingRules, h]
    simp only [if_pos hskip, hnone, ite_self]
    exact ⟨rfl, trivial⟩
  · simp only [if_neg hskip]
    by_cases hdone : db.conditionalForwardingMigrated = true
    · simp [hdone, createRules]
    · simp [hdone]

theorem boot_table (upper : Nat → Nat) (printable : Nat → Bool) (lang : ExprLang)
    (cfg : Config) (db : Database) :
    let migrated := createRules db.table (migratedRules printable cfg db)
    (boot upper printable lang cfg db).2.1.table =
      if migrated.rows = [] then createRules migrated (seedRules cfg) else migrated := by
  obtain ⟨htable, hsentinel, hforward, hpolicies⟩ := migrateWhitelistToPolicies_spec cfg db
  obtain ⟨htable', hpolicies'⟩ := migrateConditionalForwardingToPolicies_spec printable
    (migrateWhitelistToPolicies cfg db).1 (migrateWhitelistToPolicies cfg db).2
  have hrules : forwardingRules printable (migrateWhitelistToPolicies cfg db).1 =
      forwardingRules printable cfg := by
    rw [forwardingRules, hforward, forwardingRules]
  have hseed : seedRules (migrateConditionalForwardingToPolicies printable
      (migrateWhitelistToPolicies cfg db).1 (migrateWhitelistToPolicies cfg db).2).1 =
        seedRules cfg := by
    rw [seedRules, hpolicies', hpolicies, seedRules]
  rw [hsentinel, hrules, htable, ← createRules_append] at htable'
  simp only [boot, seedPolicies_eq, hseed, migratedRules, ← htable']

theorem boot_engine (upper : Nat → Nat) (printable : Nat → Bool) (lang : ExprLang)
    (cfg : Config) (db : Database) :
    (boot upper printable lang cfg db).2.2 =
      (boot upper printable lang cfg db).2.1.table.getPolicyRules.filterMap
        fun r => r.rule.spec.compile upper lang := rfl

/-- A start adds rows with the added rules after the rows there are. -/
theorem boot_rows (upper : Nat → Nat) (printable : Nat → Bool) (lang : ExprLang)
    (cfg : Config) (db : Database) :
    ∃ new, (boot upper printable lang cfg db).2.1.table.rows = db.table.rows ++ new ∧
      new.map (·.rule) = addedRules printable cfg db := by
  obtain ⟨new, hrows, hrules⟩ := createRules_rows (migratedRules printable cfg db) db.table
  simp only [boot_table, addedRules, ← hrules, List.map_eq_nil_iff]
  by_cases hempty : db.table.rows = [] ∧ new = []
  · obtain ⟨hdb, rfl⟩ := hempty
    rw [hdb, List.nil_append] at hrows
    obtain ⟨seeds, hseeds, hseedRules⟩ := createRules_rows (seedRules cfg)
      (createRules db.table (migratedRules printable cfg db))
    rw [hrows] at hseeds hseedRules
    refine ⟨seeds, ?_, ?_⟩
    · rw [if_pos hrows, hseeds, hdb]
    · rw [if_pos ⟨hdb, rfl⟩, hseedRules, List.map_nil]
  · have hsome : (createRules db.table (migratedRules printable cfg db)).rows ≠ [] := by
      rw [hrows]
      simpa using hempty
    refine ⟨new, ?_, ?_⟩
    · rw [if_neg hsome, hrows]
    · rw [if_neg hempty]

/-! ## The rows that were there -/

theorem getPolicyRules_filter_old {t t' : PolicyTable} {new : List PolicyRow}
    (h : t'.rows = t.rows ++ new) :
    t'.getPolicyRules.filter (· ∈ t.rows) = t.getPolicyRules := by
  symm
  apply getPolicyRules_eq_of_sorted (t'.getPolicyRules_sorted.filter _)
  have hnodup : (t.rows ++ new).Nodup := h ▸ List.Nodup.of_map _ t'.ids_nodup
  have hfilter : (t.rows ++ new).filter (· ∈ t.rows) = t.rows := by
    rw [List.filter_append, List.filter_eq_self.mpr (by simp), List.filter_eq_nil_iff.mpr,
      List.append_nil]
    intro r hr
    simpa using fun hold => List.disjoint_of_nodup_append hnodup hold hr
  have hperm := t'.getPolicyRules_perm.filter fun r => decide (r ∈ t.rows)
  rw [h, hfilter] at hperm
  exact hperm

/-- New rows leave what is read from the rows unchanged exactly when nothing is read from
them. -/
theorem filterMap_getPolicyRules_iff {α : Type} {t t' : PolicyTable} {new : List PolicyRow}
    (h : t'.rows = t.rows ++ new) (f : PolicyRow → Option α) :
    t'.getPolicyRules.filterMap f = t.getPolicyRules.filterMap f ↔ ∀ r ∈ new, f r = none := by
  constructor
  · intro heq
    have hlen := congrArg List.length heq
    rw [(t'.getPolicyRules_perm.filterMap f).length_eq,
      (t.getPolicyRules_perm.filterMap f).length_eq, h, List.filterMap_append,
      List.length_append] at hlen
    apply List.filterMap_eq_nil_iff.mp
    apply List.eq_nil_of_length_eq_zero
    omega
  · intro hnone
    rw [← getPolicyRules_filter_old h, List.filterMap_filter]
    apply List.filterMap_congr
    intro r hr
    rw [mem_getPolicyRules, h, List.mem_append] at hr
    by_cases hold : r ∈ t.rows
    · simp [hold]
    · simp [hold, hnone r (hr.resolve_left hold)]

/-- Results that are all there are the results kept by `filterMap`. -/
theorem map_eq_map_some_iff {α β : Type} (f : α → Option β) (xs : List α) (ys : List β) :
    xs.map f = ys.map some ↔ (∀ x ∈ xs, f x ≠ none) ∧ ys = xs.filterMap f := by
  induction xs generalizing ys with
  | nil => cases ys <;> simp
  | cons x xs ih =>
    cases hx : f x with
    | none => cases ys <;> simp [hx]
    | some y =>
      cases ys with
      | nil => simp [hx]
      | cons z zs =>
        simp only [List.map_cons, hx, List.cons.injEq, Option.some.injEq, ih,
          List.forall_mem_cons, List.filterMap_cons]
        grind

/-! ## Refinement -/

section

variable (upper : Nat → Nat) (printable : Nat → Bool) (lang : ExprLang)

def expectedRules (cfg : Config) : List PolicyRule :=
  whitelistRules cfg ++ forwardingRules printable cfg ++ seedRules cfg

def Untouched (db : Database) : Prop :=
  db.table.rows = [] ∧ db.whitelistMigrated = false ∧ db.conditionalForwardingMigrated = false

/-- The engine `rules` evaluates exactly the rules of the table, in their order. -/
def EvaluatesTable (t : PolicyTable) (rules : List Rule) : Prop :=
  t.getPolicyRules.map (fun r => r.rule.spec.compile upper lang) = rules.map some

/-- The engine `rules` evaluates exactly the rules `specs`, in any order. -/
def EvaluatesAll (specs : List PolicyRule) (rules : List Rule) : Prop :=
  ∀ rule : Option Rule,
    rule ∈ specs.map (fun s => s.spec.compile upper lang) ↔ rule ∈ rules.map some

/-- The engine after a start: the rules of the database if an earlier start has
initialised it, and all the YAML file asks for on the first start. -/
def BootRefines (booted : Bool) (cfg : Config) (db : Database) : Prop :=
  if booted then EvaluatesTable upper lang db.table (boot upper printable lang cfg db).2.2
  else Untouched db →
    EvaluatesAll upper lang (expectedRules printable cfg) (boot upper printable lang cfg db).2.2

/-- On a later start all stored rules compile and no rule that is added does; on the first
one everything asked for compiles and is, but for its position, among what is added: the
migrated rules or, where there is nothing to migrate, the YAML rules. -/
def BootCondition (booted : Bool) (cfg : Config) (db : Database) : Prop :=
  if booted then
    (∀ r ∈ db.table.rows, r.rule.spec.compile upper lang ≠ none) ∧
      ∀ rule ∈ addedRules printable cfg db, rule.spec.compile upper lang = none
  else Untouched db →
    ∀ rule ∈ expectedRules printable cfg, rule.spec.compile upper lang ≠ none ∧
      ∃ kept ∈ addedRules printable cfg db,
        kept.spec.compile upper lang = rule.spec.compile upper lang

variable {upper printable lang}

variable {cfg : Config} {db : Database}

theorem evaluatesTable_iff :
    EvaluatesTable upper lang db.table (boot upper printable lang cfg db).2.2 ↔
      (∀ r ∈ db.table.rows, r.rule.spec.compile upper lang ≠ none) ∧
        ∀ rule ∈ addedRules printable cfg db, rule.spec.compile upper lang = none := by
  obtain ⟨new, hrows, hrules⟩ := boot_rows upper printable lang cfg db
  have hadded : (∀ rule ∈ addedRules printable cfg db, rule.spec.compile upper lang = none) ↔
      ∀ r ∈ new, r.rule.spec.compile upper lang = none := by
    rw [← hrules]
    exact List.forall_mem_map
  rw [EvaluatesTable, hadded, ← filterMap_getPolicyRules_iff hrows, boot_engine]
  generalize (boot upper printable lang cfg db).2.1.table.getPolicyRules.filterMap _ = rules
  simp only [← mem_getPolicyRules (t := db.table)]
  exact map_eq_map_some_iff _ _ _

theorem addedRules_subset (hdb : Untouched db) :
    addedRules printable cfg db ⊆ expectedRules printable cfg := by
  obtain ⟨-, hwhite, hforward⟩ := hdb
  intro rule hrule
  simp only [addedRules, migratedRules, hwhite, hforward, Bool.false_eq_true, if_false] at hrule
  rw [expectedRules, List.mem_append]
  split at hrule
  · right
    exact mem_of_mem_accepted hrule
  · left
    exact mem_of_mem_accepted hrule

/-- Before the start nothing is stored, so the engine holds what the start adds. -/
theorem mem_boot_engine (hdb : Untouched db) {rule : Option Rule} :
    rule ∈ (boot upper printable lang cfg db).2.2.map some ↔
      rule ≠ none ∧ ∃ kept ∈ addedRules printable cfg db,
        kept.spec.compile upper lang = rule := by
  obtain ⟨new, hrows, hrules⟩ := boot_rows upper printable lang cfg db
  rw [hdb.1, List.nil_append] at hrows
  have hmem (r : Rule) : r ∈ (boot upper printable lang cfg db).2.2 ↔
      ∃ row ∈ new, row.rule.spec.compile upper lang = some r := by
    rw [boot_engine, ← hrows]
    simp only [List.mem_filterMap, mem_getPolicyRules]
  rw [← hrules]
  cases rule with
  | none => simp
  | some r => simp [hmem]

theorem evaluatesAll_iff (hdb : Untouched db) :
    EvaluatesAll upper lang (expectedRules printable cfg)
        (boot upper printable lang cfg db).2.2 ↔
      ∀ rule ∈ expectedRules printable cfg, rule.spec.compile upper lang ≠ none ∧
        ∃ kept ∈ addedRules printable cfg db,
          kept.spec.compile upper lang = rule.spec.compile upper lang := by
  unfold EvaluatesAll
  simp only [mem_boot_engine hdb]
  constructor
  · intro hall rule hrule
    exact (hall _).mp (List.mem_map_of_mem hrule)
  · intro hkept rule
    constructor
    · intro hrule
      obtain ⟨spec, hspec, rfl⟩ := List.mem_map.mp hrule
      exact hkept spec hspec
    · rintro ⟨-, kept, hkept, rfl⟩
      exact List.mem_map_of_mem (addedRules_subset hdb hkept)

/-- The engine evaluates what it is meant to after a start exactly under
`BootCondition`. -/
theorem bootRefines_iff (upper : Nat → Nat) (printable : Nat → Bool) (lang : ExprLang)
    (booted : Bool) (cfg : Config) (db : Database) :
    BootRefines upper printable lang booted cfg db ↔
      BootCondition upper printable lang booted cfg db := by
  unfold BootRefines BootCondition
  cases booted with
  | true => exact evaluatesTable_iff
  | false => exact forall_congr' evaluatesAll_iff

end

/-! ## A rule lost and a rule that comes back -/

def policyConfig (whitelist : List GoString) : Config :=
  { Config.loadWithDefaults (fun _ => none) {} with
    whitelist := whitelist
    policy :=
      { rules := [{ name := lit "ads", logic := lit "true", action := lit "BLOCK",
                    actionData := [], enabled := true }]
        enabled := true } }

/-- With a whitelist entry to migrate, the first start does not seed the policy of the
YAML file; without one it does, and it does so again after the policy was deleted. -/
theorem boot_loses_and_revives_rule :
    (Config.validate (fun _ => none) (policyConfig [lit "good.example"])).isOk ∧
      (Config.validate (fun _ => none) (policyConfig [])).isOk ∧
      ¬ BootRefines id (fun _ => true) Api.anyLang false (policyConfig [lit "good.example"])
        fresh.db ∧
      ¬ BootRefines id (fun _ => true) Api.anyLang true (policyConfig [])
        (exec (step id (fun _ => true) Api.anyLang) fresh
          [.start (policyConfig []), .delete (some 1) {}]).db := by
  refine ⟨rfl, rfl, ?_, ?_⟩
  · intro h
    have hads := (h ⟨rfl, rfl, rfl⟩ _).mp (List.mem_map_of_mem
      (List.mem_append_right _ (List.mem_singleton.mpr rfl)))
    have hname := List.mem_map_of_mem (f := Option.map Rule.name) hads
    revert hname
    decide
  · intro h
    have hlen := congrArg List.length h
    revert hlen
    decide

end GloryHole.Boot
