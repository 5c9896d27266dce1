import GloryHole.Boot.Proofs.EngineOrder
import GloryHole.Boot.Proofs.ForwardingLogic
import GloryHole.Config.Proofs.RoundTrip

/-!
# Conditional forwarding after its migration

When the engine sends every query where the migrated section sent it: for a section and all
the sections made of some of its rules.  Queries that other policies decide are left aside.
-/

namespace GloryHole.Boot

open Go Policy Storage
open Api (compiledRules)
open Config (Config ForwardingRule ConditionalForwardingConfig Yaml)
open Support.Ranking

/-! ## Valid rules -/

structure Valid (rule : ForwardingRule) : Prop where
  upstreams : rule.upstreams ≠ []
  matcher : ¬ (rule.domains = [] ∧ rule.clientCIDRs = [] ∧ rule.queryTypes = [])
  priority : rule.priority ≠ 0

theorem valid_of_validate {rule rule' : ForwardingRule} (h : rule.validate = .ok rule') :
    Valid rule' := by
  simp only [ForwardingRule.validate, bind_eq_ok, refuse_eq_ok, pure_eq_ok, exists_const] at h
  obtain ⟨-, hupstreams, -, hpriority, hmatcher, rfl⟩ := h
  refine ⟨hupstreams, hmatcher, ?_⟩
  intro (hzero : Config.orInt rule.priority 50 = 0)
  rw [hzero] at hpriority
  exact hpriority (Or.inl (by decide))

theorem valid_of_validateRules {rules rules' : List ForwardingRule}
    (h : Config.validateRules rules = .ok rules') : ∀ r ∈ rules', Valid r := by
  induction rules generalizing rules' with
  | nil =>
    cases pure_eq_ok.mp h
    simp
  | cons r rules ih =>
    simp only [Config.validateRules, bind_eq_ok, pure_eq_ok] at h
    obtain ⟨r', hr, tail, htail, rfl⟩ := h
    rw [List.forall_mem_cons]
    exact ⟨valid_of_validate hr, ih htail⟩

theorem valid_of_accepted {raw cf : ConditionalForwardingConfig} (h : raw.validate = .ok cf)
    (henabled : cf.enabled = true) : ∀ r ∈ cf.rules, Valid r := by
  unfold ConditionalForwardingConfig.validate at h
  split at h
  · simp only [bind_eq_ok, pure_eq_ok] at h
    obtain ⟨rules', hrules, rfl⟩ := h
    exact valid_of_validateRules hrules
  · rename_i hdisabled
    cases pure_eq_ok.mp h
    exact absurd henabled hdisabled

/-- A valid rule whose strings are valid UTF-8. -/
structure Readable (rule : ForwardingRule) : Prop extends Valid rule where
  texts : ∀ s ∈ texts rule, validString s = true

/-! ## The policy of a rule -/

def forwardPolicy (printable : Nat → Bool) (rule : ForwardingRule) : PolicyRule where
  name := lit "Forward " ++ rule.name ++ lit " (migrated)"
  logic := buildPolicyLogicFromCFRule printable rule
  action := Action.actionForward.text
  actionData := join (lit ",") rule.upstreams
  enabled := true
  sortOrder :=
    conditionalForwardingPolicyBand + (100 - if rule.priority = 0 then 50 else rule.priority)

section

variable {lower upper : Nat → Nat} {literal : GoString → Option GoString}
  {printable : Nat → Bool} {lang : ExprLang}
  (hlang : Understands lower upper literal printable lang)

theorem forwardPolicy_name_inj {x y : ForwardingRule} :
    (forwardPolicy printable x).name = (forwardPolicy printable y).name ↔ x.name = y.name := by
  simp [forwardPolicy]

include hlang in
theorem forwardingRules_eq {cfg : Config} (henabled : cfg.conditionalForwarding.enabled = true)
    (hvalid : ∀ r ∈ cfg.conditionalForwarding.rules, Readable r) :
    forwardingRules printable cfg =
      (cfg.conditionalForwarding.rules.filter (·.enabled)).map (forwardPolicy printable) := by
  rw [forwardingRules, if_pos henabled, ← List.filterMap_eq_map, List.filterMap_filter]
  apply List.filterMap_congr
  intro r hr
  obtain ⟨n, hlogic⟩ := @expresses_buildPolicyLogic lower upper _ _ hlang.unquotes _
    (hvalid r hr).matcher (hvalid r hr).texts
  cases hon : r.enabled with
  | false => simp [forwardingRule, hon]
  | true =>
    simp [forwardingRule, hon, hlogic.ne_nil, (hvalid r hr).upstreams, forwardPolicy]

def forwardRule (printable : Nat → Bool) (rule : ForwardingRule) : Rule where
  name := (forwardPolicy printable rule).name
  logic := buildPolicyLogicFromCFRule printable rule
  action := .actionForward
  actionData := join (lit ",") rule.upstreams
  enabled := true

theorem validateAction_forward {data : GoString} {action : Action}
    (h : validateAction upper Action.actionForward.text data = some action) :
    action = .actionForward ∧ ∃ upstreams, parseUpstreams data = some upstreams := by
  have hupper : toUpper upper Action.actionForward.text = Action.actionForward.text := rfl
  simp only [validateAction, hupper] at h
  rw [if_neg (by decide), if_neg (by decide), if_neg (by decide), if_pos trivial] at h
  split at h
  · cases h
  · split at h
    · cases h
    · rename_i upstreams hparse
      split at h
      · cases h
      · cases h
        exact ⟨rfl, upstreams, hparse⟩

theorem compile_forwardPolicy {rule : ForwardingRule}
    (h : (forwardPolicy printable rule).spec.compile upper lang ≠ none) :
    (forwardPolicy printable rule).spec.compile upper lang =
        some (forwardRule printable rule) ∧
      lang.compiles (buildPolicyLogicFromCFRule printable rule) = true ∧
      parseUpstreams (join (lit ",") rule.upstreams) =
        some (forwardRule printable rule).getUpstreams := by
  cases haction : validateAction upper Action.actionForward.text
      (join (lit ",") rule.upstreams) with
  | none => simp [RuleSpec.compile, PolicyRule.spec, forwardPolicy, haction] at h
  | some action =>
    obtain ⟨rfl, upstreams, hparse⟩ := validateAction_forward haction
    cases hcompiles : lang.compiles (buildPolicyLogicFromCFRule printable rule) with
    | false =>
      simp [RuleSpec.compile, PolicyRule.spec, forwardPolicy, haction, hcompiles] at h
    | true =>
      refine ⟨?_, rfl, ?_⟩
      · simp [RuleSpec.compile, PolicyRule.spec, forwardPolicy, forwardRule, haction,
          hcompiles]
      · simp [forwardRule, Rule.getUpstreams, hparse]

include hlang in
/-- The policy of a valid rule is true of the queries its matchers match. -/
theorem fires_forwardPolicy {rule : ForwardingRule} (hvalid : Readable rule) (ctx : Context) :
    fires upper lang ctx (forwardPolicy printable rule).spec =
      (((forwardPolicy printable rule).spec.compile upper lang).isSome &&
        appliesTo lower upper (domainMatches lower) rule ctx) := by
  unfold fires
  by_cases hnone : (forwardPolicy printable rule).spec.compile upper lang = none
  · rw [hnone]
    rfl
  · obtain ⟨hsome, hcompiles, -⟩ := compile_forwardPolicy hnone
    obtain ⟨n, hlogic⟩ := @expresses_buildPolicyLogic lower upper _ _ hlang.unquotes _
      hvalid.matcher hvalid.texts
    have hrun := hlogic.run hlang hcompiles ctx
    rw [hsome]
    cases happlies : appliesTo lower upper (domainMatches lower) rule ctx with
    | false | true => simp [Rule.matches, forwardRule, hrun, happlies]

/-! ## What is inserted -/

theorem accepted_forwardPolicies (taken : List GoString) (rules : List ForwardingRule) :
    accepted taken (rules.map (forwardPolicy printable)) =
      (kept (fun r => (forwardPolicy printable r).name) taken rules).map
        (forwardPolicy printable) := by
  induction rules generalizing taken with
  | nil => rfl
  | cons rule rules ih =>
    have hcheck : checkAction (forwardPolicy printable rule).action = true := by
      change checkAction Action.actionForward.text = true
      decide
    rw [List.map_cons, accepted, kept, ih, ih]
    by_cases hname : (forwardPolicy printable rule).name ∈ taken
    · rw [if_neg fun h => h.2 hname, if_pos hname]
    · rw [if_pos ⟨hcheck, hname⟩, if_neg hname, List.map_cons]

end

/-! ## Routing before and after -/

section

variable {δ : Type} (yaml : Yaml δ) (lower upper : Nat → Nat) (printable : Nat → Bool)
  (regexp : GoString → Option (GoString → Bool)) (lang : ExprLang)

def Process.withRules (p : Process δ) (rules : List ForwardingRule) : Process δ :=
  { p with
    config :=
      { p.config with
        conditionalForwarding := { p.config.conditionalForwarding with rules := rules } } }

/-- No policy that the engine would have without the migration matches the query. -/
def Undecided (p : Process δ) (ctx : Context) : Prop :=
  evaluate lang (p.seed.engine upper lang) ctx = none

/-- After the migration every query goes where the section sends it. -/
def RoutesAsConfigured (p : Process δ) : Prop :=
  ∀ ctx, Undecided upper lang p ctx →
    ((p.migrateConditionalForwarding yaml printable).seed.decides upper lang ctx).map
      Rule.getUpstreams = routeOf lower upper regexp p.config.conditionalForwarding ctx

def Process.policyNames (p : Process δ) : List GoString :=
  match p.storage with
  | some s => s.database.table.rows.map (·.rule.name)
  | none => []

structure Delivered (p : Process δ) (rule : ForwardingRule) : Prop where
  policies : p.config.server.enablePolicies = true
  name : (forwardPolicy printable rule).name ∉ p.policyNames
  compiles : ((forwardPolicy printable rule).spec.compile upper lang).isSome = true

/-- If the rule matches a query at all, its policy is delivered with its upstreams; and a
policy that is delivered matches what the rule matches. -/
structure RuleKept (p : Process δ) (rule : ForwardingRule) : Prop where
  delivered : ∀ ctx, Undecided upper lang p ctx →
    appliesTo lower upper (regexMatches lower regexp) rule ctx = true →
      Delivered upper printable lang p rule ∧
        parseUpstreams (join (lit ",") rule.upstreams) = some (upstreamsOf rule)
  patterns : Delivered upper printable lang p rule → ∀ ctx, Undecided upper lang p ctx →
    appliesTo lower upper (domainMatches lower) rule ctx =
      appliesTo lower upper (regexMatches lower regexp) rule ctx

def Process.rankedRules (p : Process δ) : List (ForwardingRule × Nat) :=
  p.config.conditionalForwarding.rules.zipIdx.filter (·.1.enabled)

/-- With a database, a rule whose name an earlier one has must be covered by it; without one,
a rule of lower priority must not take queries away from a later one. -/
def OrderKept (p : Process δ) : Prop :=
  if p.storage.isSome then
    ∀ x ∈ p.rankedRules, ∀ y ∈ p.rankedRules, x.1.name = y.1.name → x.2 < y.2 →
      Covers (·.1.priority) (·.2)
        (fun x (ctx : Subtype (Undecided upper lang p)) =>
          appliesTo lower upper (regexMatches lower regexp) x.1 ctx.1)
        (upstreamsOf ·.1) p.rankedRules x y
  else
    p.rankedRules.Pairwise fun x y => x.1.priority < y.1.priority →
      ∀ ctx, Undecided upper lang p ctx →
        appliesTo lower upper (regexMatches lower regexp) x.1 ctx = true →
        appliesTo lower upper (regexMatches lower regexp) y.1 ctx = true →
        upstreamsOf x.1 = upstreamsOf y.1

def policyDoes (p : Process δ) (rule : ForwardingRule) (ctx : Context) : Bool :=
  p.config.server.enablePolicies &&
    (decide ((forwardPolicy printable rule).name ∉ p.policyNames) &&
      (((forwardPolicy printable rule).spec.compile upper lang).isSome &&
        appliesTo lower upper (domainMatches lower) rule ctx))

variable {yaml lower upper printable regexp lang}

variable {p : Process δ}

theorem policyDoes_iff {rule : ForwardingRule} {ctx : Context} :
    policyDoes lower upper printable lang p rule ctx = true ↔
      Delivered upper printable lang p rule ∧
        appliesTo lower upper (domainMatches lower) rule ctx = true := by
  simp only [policyDoes, Bool.and_eq_true, decide_eq_true_eq]
  constructor
  · rintro ⟨hpolicies, hname, hcompiles, happlies⟩
    exact ⟨⟨hpolicies, hname, hcompiles⟩, happlies⟩
  · rintro ⟨⟨hpolicies, hname, hcompiles⟩, happlies⟩
    exact ⟨hpolicies, hname, hcompiles, happlies⟩

def policyUpstreams (printable : Nat → Bool) (rule : ForwardingRule) : List GoString :=
  (forwardRule printable rule).getUpstreams

theorem faithful_iff_ruleKept {x : ForwardingRule × Nat} :
    Faithful
        (fun x (ctx : Subtype (Undecided upper lang p)) =>
          appliesTo lower upper (regexMatches lower regexp) x.1 ctx.1)
        (fun x ctx => policyDoes lower upper printable lang p x.1 ctx.1)
        (fun x => upstreamsOf x.1) (fun x => policyUpstreams printable x.1) x ↔
      RuleKept lower upper printable regexp lang p x.1 := by
  constructor
  · intro h
    refine ⟨?_, ?_⟩
    · intro ctx hctx happlies
      obtain ⟨hdoes, houtcome⟩ := h ⟨ctx, hctx⟩
      obtain ⟨hdelivered, -⟩ := policyDoes_iff.mp (hdoes.trans happlies)
      obtain ⟨-, -, hparse⟩ :=
        compile_forwardPolicy (Option.isSome_iff_ne_none.mp hdelivered.compiles)
      exact ⟨hdelivered, hparse.trans (congrArg some (houtcome happlies))⟩
    · intro hdelivered ctx hctx
      have hdoes : policyDoes lower upper printable lang p x.1 ctx =
        appliesTo lower upper (regexMatches lower regexp) x.1 ctx := (h ⟨ctx, hctx⟩).1
      rw [← hdoes, Bool.eq_iff_iff, policyDoes_iff]
      exact ⟨fun happlies => ⟨hdelivered, happlies⟩, fun happlies => happlies.2⟩
  · rintro ⟨hdelivered, hpatterns⟩ ⟨ctx, hctx⟩
    refine ⟨?_, ?_⟩
    · rw [Bool.eq_iff_iff, policyDoes_iff]
      constructor
      · rintro ⟨hd, happlies⟩
        exact (hpatterns hd ctx hctx).symm.trans happlies
      · intro happlies
        have hd := (hdelivered ctx hctx happlies).1
        exact ⟨hd, (hpatterns hd ctx hctx).trans happlies⟩
    · intro happlies
      obtain ⟨hd, hparse⟩ := hdelivered ctx hctx happlies
      obtain ⟨-, -, hparse'⟩ := compile_forwardPolicy (Option.isSome_iff_ne_none.mp hd.compiles)
      exact Option.some.inj (hparse'.symm.trans hparse)

theorem sortOrder_lt_iff {a b : ForwardingRule} (ha : Valid a) (hb : Valid b) :
    (forwardPolicy printable a).sortOrder < (forwardPolicy printable b).sortOrder ↔
      b.priority < a.priority := by
  simp only [forwardPolicy, if_neg ha.priority, if_neg hb.priority]
  omega

theorem policyDoes_of_off (hoff : p.config.server.enablePolicies = false) (rule : ForwardingRule)
    (ctx : Context) :
    policyDoes lower upper printable lang p rule ctx = false := by
  rw [policyDoes, hoff, Bool.false_and]

theorem fires_eq_policyDoes {rule : ForwardingRule} {literal : GoString → Option GoString}
    (hlang : Understands lower upper literal printable lang)
    (hon : p.config.server.enablePolicies = true) (hvalid : Readable rule)
    (hname : (forwardPolicy printable rule).name ∉ p.policyNames) (ctx : Context) :
    fires upper lang ctx (forwardPolicy printable rule).spec =
      policyDoes lower upper printable lang p rule ctx := by
  rw [fires_forwardPolicy hlang hvalid, policyDoes, hon, decide_eq_true hname, Bool.true_and,
    Bool.true_and]

/-- The upstreams of the rule in the engine, when the policy of `found` decides. -/
theorem map_getUpstreams_bind {found : Option ForwardingRule} {ctx : Context}
    (h : ∀ r ∈ found, policyDoes lower upper printable lang p r ctx = true) :
    (found.bind fun r => (forwardPolicy printable r).spec.compile upper lang).map
      Rule.getUpstreams = found.map (policyUpstreams printable) := by
  cases found with
  | none => rfl
  | some r =>
    obtain ⟨hdelivered, -⟩ := policyDoes_iff.mp (h r rfl)
    obtain ⟨hsome, -⟩ :=
      compile_forwardPolicy (Option.isSome_iff_ne_none.mp hdelivered.compiles)
    rw [Option.bind_some, hsome]
    rfl

/-! ## The engine after the migration -/

section

variable {p : Process δ} {rules : List ForwardingRule} {literal : GoString → Option GoString}
  (hlang : Understands lower upper literal printable lang)
  (henabled : p.config.conditionalForwarding.enabled = true) (hvalid : ∀ r ∈ rules, Readable r)

theorem seedPolicies_congr {cfg cfg' : Config} (h : cfg.policy.rules = cfg'.policy.rules)
    (t : PolicyTable) : seedPolicies cfg t = seedPolicies cfg' t := by
  rw [seedPolicies_eq, seedPolicies_eq, seedRules, seedRules, h]

theorem migrateConditionalForwarding_storage {p : Process δ} {s : Store}
    (hstorage : p.storage = some s)
    (hmarker : s.database.conditionalForwardingMigrated = false) :
    let after := p.migrateConditionalForwarding yaml printable
    (∃ s', after.storage = some s' ∧ s'.database.table =
        createRules s.database.table (forwardingRules printable p.config)) ∧
      after.config.policy.rules = p.config.policy.rules ∧
      after.config.server = p.config.server := by
  obtain ⟨htable, hpolicies⟩ :=
    migrateConditionalForwardingToPolicies_spec printable p.config s.database
  rw [hmarker] at htable
  unfold Process.migrateConditionalForwarding
  dsimp only
  split
  · rename_i hskip
    simp only [migrateConditionalForwardingToPolicies, if_pos hskip] at htable
    exact ⟨⟨s, hstorage, htable⟩, rfl, rfl⟩
  · rename_i hskip
    rw [hstorage]
    refine ⟨⟨_, rfl, htable⟩, hpolicies, ?_⟩
    unfold migrateConditionalForwardingToPolicies
    dsimp only
    rw [if_neg hskip, hmarker]
    rfl

theorem seed_engine_storage {p : Process δ} {s : Store} (hstorage : p.storage = some s) :
    p.seed.engine upper lang =
      compiledRules upper lang (seedPolicies p.config s.database.table) := by
  simp only [Process.seed, Process.engine, hstorage, Option.map_some]

theorem migrateConditionalForwarding_none {p : Process δ} (hstorage : p.storage = none) :
    let after := p.migrateConditionalForwarding yaml printable
    after.storage = none ∧ after.config.server = p.config.server ∧
      after.config.policy.rules = p.config.policy.rules ++
        (forwardingRules printable p.config).map policyRuleEntry := by
  unfold Process.migrateConditionalForwarding
  dsimp only
  split
  · rename_i hskip
    have hnone : forwardingRules printable p.config = [] := by
      rcases hskip with h | h <;> simp [forwardingRules, h]
    simp [hstorage, hnone]
  · simp [hstorage]

theorem seed_engine_none {p : Process δ} (hstorage : p.storage = none) :
    p.seed.engine upper lang =
      p.config.policy.rules.filterMap fun entry => (entrySpec entry).compile upper lang := by
  simp only [Process.seed, Process.engine, hstorage, Option.map_none]

include hlang henabled hvalid

theorem map_forwardingRules :
    forwardingRules printable (p.withRules rules).config =
      (rules.filter (·.enabled)).map (forwardPolicy printable) :=
  forwardingRules_eq hlang henabled hvalid

theorem decides_with_storage {s : Store} (hstorage : p.storage = some s)
    (hmarker : s.database.conditionalForwardingMigrated = false) (ctx : Context)
    (hctx : Undecided upper lang p ctx) :
    (((p.withRules rules).migrateConditionalForwarding yaml printable).seed.decides upper lang
        ctx).map Rule.getUpstreams =
      actual (·.priority) (policyDoes lower upper printable lang p)
        (policyUpstreams printable) (fun r => (forwardPolicy printable r).name) p.policyNames
        (rules.filter (·.enabled)) ctx := by
  obtain ⟨⟨s', hstorage', htable⟩, hpolicies, hserver⟩ :=
    @migrateConditionalForwarding_storage δ yaml printable (p.withRules rules) s hstorage hmarker
  rw [map_forwardingRules hlang henabled hvalid] at htable
  rw [Undecided, seed_engine_storage hstorage] at hctx
  have hnames : p.policyNames = s.database.table.rows.map (·.rule.name) := by
    rw [Process.policyNames, hstorage]
  have hdecides : ((p.withRules rules).migrateConditionalForwarding yaml printable).seed.decides
      upper lang ctx = if p.config.server.enablePolicies then
        evaluate lang (compiledRules upper lang (seedPolicies p.config (createRules
          s.database.table ((rules.filter (·.enabled)).map (forwardPolicy printable))))) ctx
      else none := by
    rw [Process.decides, seed_engine_storage hstorage', htable, seedPolicies_congr hpolicies]
    change (if (Process.migrateConditionalForwarding _ _ _).config.server.enablePolicies then _
      else _) = _
    rw [hserver]
    rfl
  rw [hdecides, evaluate_seed_createRules hctx, accepted_forwardPolicies, List.filter_map,
    argmin_map, Option.bind_map, actual, ← hnames]
  have hmem : ∀ r ∈ kept (fun r => (forwardPolicy printable r).name) p.policyNames
      (rules.filter (·.enabled)),
        Readable r ∧ (forwardPolicy printable r).name ∉ p.policyNames := by
    intro r hr
    have hrule := List.mem_of_mem_filter ((kept_sublist _ _).subset hr)
    exact ⟨hvalid r hrule, @name_not_mem_of_mem_kept _ _ _
      (fun r => (forwardPolicy printable r).name) _ _ r hr⟩
  generalize kept (fun r => (forwardPolicy printable r).name) p.policyNames
    (rules.filter (·.enabled)) = inserted at hmem ⊢
  cases hon : p.config.server.enablePolicies with
  | false =>
    have hnone : inserted.filter (policyDoes lower upper printable lang p · ctx) = [] := by
      simp [policyDoes_of_off hon]
    rw [hnone]
    rfl
  | true =>
    have hdoes : inserted.filter ((fires upper lang ctx ·.spec) ∘ forwardPolicy printable) =
        inserted.filter (policyDoes lower upper printable lang p · ctx) :=
      List.filter_congr fun r hr =>
        fires_eq_policyDoes hlang hon (hmem r hr).1 (hmem r hr).2 ctx
    rw [if_pos rfl, hdoes, argmin_eq_argmax fun a ha b hb =>
      sortOrder_lt_iff (hmem a (List.mem_of_mem_filter ha)).1.toValid
        (hmem b (List.mem_of_mem_filter hb)).1.toValid]
    apply map_getUpstreams_bind
    intro r hr
    exact (List.mem_filter.mp (List.argmax_mem hr)).2

theorem decides_without_storage (hstorage : p.storage = none) (ctx : Context)
    (hctx : Undecided upper lang p ctx) :
    (((p.withRules rules).migrateConditionalForwarding yaml printable).seed.decides upper lang
        ctx).map Rule.getUpstreams =
      ((rules.filter (·.enabled)).find? (policyDoes lower upper printable lang p · ctx)).map
        (policyUpstreams printable) := by
  obtain ⟨hstorage', hserver, hpolicies⟩ :=
    @migrateConditionalForwarding_none δ yaml printable (p.withRules rules) hstorage
  rw [map_forwardingRules hlang henabled hvalid, List.map_map] at hpolicies
  rw [Undecided, seed_engine_none hstorage, evaluate_eq_none_iff] at hctx
  have hnames : p.policyNames = [] := by rw [Process.policyNames, hstorage]
  have hon' : ((p.withRules rules).migrateConditionalForwarding yaml
      printable).seed.config.server.enablePolicies = p.config.server.enablePolicies :=
    congrArg (·.enablePolicies) hserver
  rw [Process.decides, hon']
  cases hon : p.config.server.enablePolicies with
  | false =>
    rw [List.find?_eq_none.mpr fun r _ => by simp [policyDoes_of_off hon]]
    rfl
  | true =>
    have hold : (p.withRules rules).config.policy.rules.find?
        (fun e => fires upper lang ctx (entrySpec e)) = none :=
      List.find?_eq_none.mpr fun e he => by simp [hctx e he]
    have hdoes : (rules.filter (·.enabled)).find?
        ((fun e => fires upper lang ctx (entrySpec e)) ∘
          (policyRuleEntry ∘ forwardPolicy printable)) =
        (rules.filter (·.enabled)).find? (policyDoes lower upper printable lang p · ctx) := by
      rw [← List.head?_filter, ← List.head?_filter]
      congr 1
      apply List.filter_congr
      intro r hr
      have hfree : (forwardPolicy printable r).name ∉ p.policyNames := by simp [hnames]
      exact fires_eq_policyDoes hlang hon (hvalid r (List.mem_of_mem_filter hr)) hfree ctx
    rw [if_pos rfl, seed_engine_none hstorage', hpolicies]
    refine (congrArg _ (@evaluate_filterMap upper lang _ entrySpec _ ctx)).trans ?_
    rw [List.find?_append, hold, Option.none_or, List.find?_map, hdoes, Option.bind_map]
    apply map_getUpstreams_bind
    intro r hr
    exact List.find?_some (p := (policyDoes lower upper printable lang p · ctx)) hr

end

theorem map_rankedRules (p : Process δ) :
    p.rankedRules.map (·.1) = p.config.conditionalForwarding.rules.filter (·.enabled) := by
  have hzip := List.zipIdx_map_fst 0 p.config.conditionalForwarding.rules
  conv_rhs => rw [← hzip, List.filter_map]
  rfl

theorem ordered_rankedRules (p : Process δ) : Ordered (·.2) p.rankedRules := by
  have hindices : (p.config.conditionalForwarding.rules.zipIdx.map (·.2)).Pairwise (· < ·) := by
    rw [List.zipIdx_map_snd]
    exact List.pairwise_lt_range'
  exact (List.pairwise_map.mp hindices).filter _

/-- A section that is off sends no query anywhere, and nothing is migrated. -/
theorem routesAsConfigured_of_off (hoff : p.config.conditionalForwarding.enabled = false) :
    RoutesAsConfigured yaml lower upper printable regexp lang p := by
  intro ctx hctx
  have hskip : p.migrateConditionalForwarding yaml printable = p := by
    rw [Process.migrateConditionalForwarding, if_pos (by simp [hoff])]
  rw [hskip, routeOf, inForce, hoff, Process.decides]
  split
  · rw [hctx]
    rfl
  · rfl

/-- The parts of a section, as parts of its ranked rules; `route` is where the engine sends a
query after the migration. -/
theorem forall_sections_iff {p : Process δ}
    (hon : p.config.conditionalForwarding.enabled = true)
    {route : List ForwardingRule → Context → Option (List GoString)}
    (hroute : ∀ rules, rules.Sublist p.config.conditionalForwarding.rules → ∀ ctx,
      Undecided upper lang p ctx →
        (((p.withRules rules).migrateConditionalForwarding yaml printable).seed.decides upper lang
          ctx).map Rule.getUpstreams = route (rules.filter (·.enabled)) ctx) :
    (∀ rules, rules.Sublist p.config.conditionalForwarding.rules →
        RoutesAsConfigured yaml lower upper printable regexp lang (p.withRules rules)) ↔
      ∀ l, l.Sublist p.rankedRules → ∀ ctx : Subtype (Undecided upper lang p),
        route (l.map (·.1)) ctx.1 =
          intended (fun x => x.1.priority)
            (fun x (ctx : Subtype (Undecided upper lang p)) =>
              appliesTo lower upper (regexMatches lower regexp) x.1 ctx.1)
            (fun x => upstreamsOf x.1) l ctx := by
  have hsection (rules : List ForwardingRule) (ctx : Context) :
      routeOf lower upper regexp (p.withRules rules).config.conditionalForwarding ctx =
        intended (·.priority) (appliesTo lower upper (regexMatches lower regexp)) upstreamsOf
          (rules.filter (·.enabled)) ctx := by
    rw [routeOf, inForce, if_pos (show (p.withRules rules).config.conditionalForwarding.enabled =
      true from hon)]
    rfl
  constructor
  · rintro h l hl ⟨ctx, hctx⟩
    have hsub := hl.map (·.1)
    rw [map_rankedRules] at hsub
    have henabled : (l.map (·.1)).filter (·.enabled) = l.map (·.1) :=
      List.filter_eq_self.mpr fun r hr => (List.mem_filter.mp (hsub.subset hr)).2
    have hctx' := h _ (hsub.trans List.filter_sublist) ctx hctx
    rw [hroute _ (hsub.trans List.filter_sublist) ctx hctx, hsection, henabled, intended_map]
      at hctx'
    exact hctx'
  · intro h rules hrules ctx hctx
    have hsub := hrules.filter (·.enabled)
    rw [← map_rankedRules, List.sublist_map_iff] at hsub
    obtain ⟨l, hl, heq⟩ := hsub
    rw [hroute rules hrules ctx hctx, hsection, heq, intended_map]
    exact h l hl ⟨ctx, hctx⟩

/-- A migration that has not run before keeps the routing of a section, and of every part of
it, just if each rule is kept and so is their order. -/
theorem routes_as_configured_iff {literal : GoString → Option GoString} {p : Process δ}
    {raw : ConditionalForwardingConfig}
    (hlang : Understands lower upper literal printable lang)
    (haccepted : raw.validate = .ok p.config.conditionalForwarding)
    (htexts : ∀ rule ∈ p.config.conditionalForwarding.rules, ∀ s ∈ texts rule,
      validString s = true)
    (hmarker : p.storage.map (·.database.conditionalForwardingMigrated) ≠ some true) :
    (∀ rules, rules.Sublist p.config.conditionalForwarding.rules →
        RoutesAsConfigured yaml lower upper printable regexp lang (p.withRules rules)) ↔
      (p.config.conditionalForwarding.enabled = true →
        (∀ rule ∈ p.config.conditionalForwarding.rules, rule.enabled = true →
          RuleKept lower upper printable regexp lang p rule) ∧
          OrderKept lower upper regexp lang p) := by
  cases hon : p.config.conditionalForwarding.enabled with
  | false =>
    constructor
    · intro _ h
      cases h
    · intro _ rules _
      exact routesAsConfigured_of_off hon
  | true =>
    have hvalid : ∀ r ∈ p.config.conditionalForwarding.rules, Readable r :=
      fun r hr => ⟨valid_of_accepted haccepted hon r hr, htexts r hr⟩
    have hkept : (∀ x ∈ p.rankedRules, RuleKept lower upper printable regexp lang p x.1) ↔
        ∀ rule ∈ p.config.conditionalForwarding.rules, rule.enabled = true →
          RuleKept lower upper printable regexp lang p rule := by
      rw [← List.forall_mem_map (P := RuleKept lower upper printable regexp lang p),
        map_rankedRules]
      simp [List.mem_filter]
    simp only [forall_const, ← hkept, ← faithful_iff_ruleKept]
    cases hstorage : p.storage with
    | none =>
      have hsections := @forall_sections_iff δ yaml lower upper printable regexp lang p hon
        (fun rules ctx => (rules.find? (policyDoes lower upper printable lang p · ctx)).map
          (policyUpstreams printable))
        fun rules hrules ctx hctx => decides_without_storage hlang hon
          (fun r hr => hvalid r (hrules.subset hr)) hstorage ctx hctx
      simp only [List.find?_map, Option.map_map] at hsections
      refine hsections.trans (first_iff.trans (and_congr_right fun _ => ?_))
      simp only [OrderKept, hstorage, Option.isSome_none, Bool.false_eq_true, if_false,
        Subtype.forall]
    | some s =>
      have hmarker' : s.database.conditionalForwardingMigrated = false := by
        simpa [hstorage] using hmarker
      have hsections := @forall_sections_iff δ yaml lower upper printable regexp lang p hon
        (fun rules ctx => actual (·.priority) (policyDoes lower upper printable lang p)
          (policyUpstreams printable) (fun r => (forwardPolicy printable r).name)
          p.policyNames rules ctx)
        fun rules hrules ctx hctx => decides_with_storage hlang hon
          (fun r hr => hvalid r (hrules.subset hr)) hstorage hmarker' ctx hctx
      simp only [actual_map] at hsections
      have hfree : ∀ x ∈ p.rankedRules, ∀ ctx : Subtype (Undecided upper lang p),
          policyDoes lower upper printable lang p x.1 ctx.1 = true →
            (forwardPolicy printable x.1).name ∉ p.policyNames :=
        fun x _ ctx hdoes => (policyDoes_iff.mp hdoes).1.name
      refine hsections.trans ((kept_iff (ordered_rankedRules p) hfree).trans
        (and_congr_right fun _ => ?_))
      simp only [OrderKept, hstorage, Option.isSome_some, if_true, forwardPolicy_name_inj]

end

/-! ## Examples -/

/-- What reads patterns does not matter to a rule that has none. -/
theorem appliesTo_congr {lower upper : Nat → Nat} {rule : ForwardingRule}
    (h : ∀ d ∈ rule.domains, hasPrefix d (lit "*.") = true ∨ hasPatternChar d = false)
    (f g : GoString → GoString → Bool) (ctx : Context) :
    appliesTo lower upper f rule ctx = appliesTo lower upper g rule ctx := by
  have hdomains : rule.domains.any (kindMatches lower f · ctx.domain) =
      rule.domains.any (kindMatches lower g · ctx.domain) := by
    rw [Bool.eq_iff_iff, List.any_eq_true, List.any_eq_true]
    apply exists_congr
    intro d
    apply and_congr_right
    intro hd
    rcases h d hd with hwild | hplain
    · simp [kindMatches, hwild]
    · simp [kindMatches, hplain]
  rw [appliesTo, appliesTo, hdomains]

def sectionProcess (rules : List ForwardingRule) (storage : Option Store) : Process Config where
  config :=
    { server := { enablePolicies := true }
      conditionalForwarding := { rules := rules, enabled := true } }
  file := {}
  storage := storage

def emptyStore : Store := ⟨⟨PolicyTable.empty, false, false⟩, .missing⟩

def officeRules : List ForwardingRule :=
  [{ name := lit "all", domains := [lit "*.lan"], upstreams := [lit "10.0.0.1:53"],
     priority := 10, enabled := true },
   { name := lit "office", domains := [lit "*.office.lan"], upstreams := [lit "10.0.0.2:53"],
     priority := 90, enabled := true }]

theorem office_delivered :
    ∀ rule ∈ officeRules, Delivered id (fun _ => true) (fragment id id)
      (sectionProcess officeRules (some emptyStore)) rule := by
  have hnames : ∀ rule ∈ officeRules, (forwardPolicy (fun _ => true) rule).name ∉
      (sectionProcess officeRules (some emptyStore)).policyNames := by decide
  have hcompiles : ∀ rule ∈ officeRules,
      ((forwardPolicy (fun _ => true) rule).spec.compile id (fragment id id)).isSome = true := by
    decide +kernel
  exact fun rule hrule => ⟨rfl, hnames rule hrule, hcompiles rule hrule⟩

/-- With a database the rules are asked by their priorities. -/
theorem office_routes_as_configured :
    RoutesAsConfigured Config.plainYaml id id (fun _ => true) (fun _ => none) (fragment id id)
      ((sectionProcess officeRules (some emptyStore)).withRules officeRules) := by
  refine (@routes_as_configured_iff Config Config.plainYaml id id (fun _ => true) (fun _ => none)
    (fragment id id) unquote (sectionProcess officeRules (some emptyStore)) ⟨officeRules, true⟩
    (understands_fragment _) (by decide +kernel) (by decide) (by decide)).mpr (fun _ => ⟨?_, ?_⟩) _
    (List.Sublist.refl _)
  · have hwild : ∀ rule ∈ officeRules, ∀ d ∈ rule.domains,
        hasPrefix d (lit "*.") = true ∨ hasPatternChar d = false := by decide
    have hupstreams : ∀ rule ∈ officeRules,
        parseUpstreams (join (lit ",") rule.upstreams) = some (upstreamsOf rule) := by
      decide +kernel
    intro rule hrule _
    exact ⟨fun ctx _ _ => ⟨office_delivered rule hrule, hupstreams rule hrule⟩,
      fun _ ctx _ => appliesTo_congr (hwild rule hrule) _ _ ctx⟩
  · have hnames : ∀ x ∈ (sectionProcess officeRules (some emptyStore)).rankedRules,
        ∀ y ∈ (sectionProcess officeRules (some emptyStore)).rankedRules,
          x.1.name = y.1.name → ¬ x.2 < y.2 := by decide +kernel
    intro x hx y hy hname hlt
    exact absurd hlt (hnames x hx y hy hname)

def printerQuery : Context :=
  ⟨0, lit "printer.office.lan", lit "192.168.1.2", lit "A", 0, 0, 0, 0, 0⟩

/-- Without a database the rule of the lower priority takes the query. -/
theorem office_routed_by_list_order :
    ConditionalForwardingConfig.validate ⟨officeRules, true⟩ = .ok ⟨officeRules, true⟩ ∧
      (((sectionProcess officeRules none).migrateConditionalForwarding Config.plainYaml
          (fun _ => true)).seed.decides id (fragment id id) printerQuery).map Rule.getUpstreams =
        some [lit "10.0.0.1:53"] ∧
      routeOf id id (fun _ => none) ⟨officeRules, true⟩ printerQuery =
        some [lit "10.0.0.2:53"] ∧
      ¬ RoutesAsConfigured Config.plainYaml id id (fun _ => true) (fun _ => none)
        (fragment id id) (sectionProcess officeRules none) := by
  have hdecides : (((sectionProcess officeRules none).migrateConditionalForwarding
      Config.plainYaml (fun _ => true)).seed.decides id (fragment id id) printerQuery).map
        Rule.getUpstreams = some [lit "10.0.0.1:53"] := by decide +kernel
  have hroute : routeOf id id (fun _ => none) ⟨officeRules, true⟩ printerQuery =
      some [lit "10.0.0.2:53"] := by decide +kernel
  refine ⟨by decide +kernel, hdecides, hroute, fun h => ?_⟩
  have hsame := hdecides.symm.trans ((h printerQuery rfl).trans hroute)
  revert hsame
  decide

end GloryHole.Boot
