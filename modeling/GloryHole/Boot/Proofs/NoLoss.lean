import GloryHole.Boot.Restarts
import GloryHole.Boot.Proofs.Refinement
import GloryHole.Boot.Proofs.Startup

/-!
# Migrations over any number of starts

What each start must leave alone so that no entry of the whitelist or of the forwarding
section ends up in neither the file nor the table, however many writes fail and wherever
starts are cut off.
-/

namespace GloryHole.Boot

open Go Policy Storage Support.Runs
open Config (Config Yaml ForwardingRule ConditionalForwardingConfig orInt)

/-! ## Rows -/

variable {t : PolicyTable}

theorem HasRow.createRules {spec : RuleSpec} (h : HasRow t spec) (rules : List PolicyRule) :
    HasRow (createRules t rules) spec := by
  obtain ⟨new, hrows, -⟩ := createRules_rows rules t
  unfold HasRow
  rw [hrows, List.map_append]
  exact List.mem_append_left _ h

theorem hasRow_insert {rule : PolicyRule} (hcheck : checkAction rule.action = true)
    (hunique : rule.name ∉ t.rows.map (·.rule.name)) :
    HasRow (t.insert rule hcheck hunique) rule.spec := by
  unfold HasRow
  simp [PolicyTable.insert]

/-- The first rule of a free name is inserted. -/
theorem hasRow_createRules {rules : List PolicyRule} {spec : RuleSpec}
    (hcheck : checkAction spec.action = true) (hfree : spec.name ∉ t.rows.map (·.rule.name))
    (hfirst : (rules.find? (·.name = spec.name)).map (·.spec) = some spec) :
    HasRow (createRules t rules) spec := by
  induction rules generalizing t with
  | nil => simp at hfirst
  | cons rule rules ih =>
    rw [createRules_cons]
    by_cases hname : rule.name = spec.name
    · rw [List.find?_cons_of_pos (by simpa using hname), Option.map_some,
        Option.some.injEq] at hfirst
      subst hfirst
      rw [dif_pos ⟨hcheck, hfree⟩]
      exact (hasRow_insert hcheck hfree).createRules rules
    · rw [List.find?_cons_of_neg (by simpa using hname)] at hfirst
      split
      · apply ih _ hfirst
        simpa [PolicyTable.insert, Ne.symm hname] using hfree
      · exact ih hfree hfirst

/-! ## Writes -/

def Done (ws : List Write) (outcomes : List Bool) (w : Write) : Prop :=
  (w, true) ∈ ws.zip outcomes

def insertedRule : Write × Bool → Option PolicyRule
  | (.insert rule, true) => some rule
  | _ => none

def inserted (ws : List Write) (outcomes : List Bool) : List PolicyRule :=
  (ws.zip outcomes).filterMap insertedRule

section

variable {δ : Type} {yaml : Yaml δ}

theorem perform_cons (d : Disk δ) (w : Write) (ws : List Write) (ok : Bool)
    (outcomes : List Bool) :
    d.perform yaml (w :: ws) (ok :: outcomes) =
      (if ok then d.write yaml w else d).perform yaml ws outcomes := rfl

theorem perform_table (d : Disk δ) (ws : List Write) (outcomes : List Bool) :
    (d.perform yaml ws outcomes).1.table = createRules d.table (inserted ws outcomes) := by
  induction ws generalizing d outcomes with
  | nil => rfl
  | cons w ws ih =>
    cases outcomes with
    | nil => rfl
    | cons ok outcomes =>
      rw [perform_cons, ih]
      cases ok with
      | false => cases w <;> rfl
      | true =>
        cases w with
        | insert rule => exact (createRules_append d.table [rule] _).symm
        | save cfg | markWhitelist | markForwarding => rfl

/-- The file is as it was or holds a configuration that was saved. -/
theorem perform_file (hyaml : yaml.Faithful) (d : Disk δ) (ws : List Write)
    (outcomes : List Bool) :
    (d.perform yaml ws outcomes).1.file = d.file ∨
      ∃ cfg, Done ws outcomes (.save cfg) ∧
        yaml.unmarshal (d.perform yaml ws outcomes).1.file = .ok cfg := by
  induction ws generalizing d outcomes with
  | nil => exact Or.inl rfl
  | cons w ws ih =>
    cases outcomes with
    | nil => exact Or.inl rfl
    | cons ok outcomes =>
      rw [perform_cons]
      have hlater (cfg : Config) (h : Done ws outcomes (.save cfg)) :
          Done (w :: ws) (ok :: outcomes) (.save cfg) := List.mem_cons_of_mem _ h
      rcases ih (if ok then d.write yaml w else d) outcomes with hfile | ⟨cfg, hdone, hcfg⟩
      · rw [hfile]
        cases ok with
        | false => exact Or.inl rfl
        | true =>
          cases w with
          | save cfg =>
            exact Or.inr ⟨cfg, List.mem_cons_self, unmarshal_persist hyaml cfg d.file⟩
          | insert rule | markWhitelist | markForwarding => exact Or.inl rfl
      · exact Or.inr ⟨cfg, hlater cfg hdone, hcfg⟩

/-! ## The configurations that are saved -/

variable {printable : Nat → Bool}

theorem migrateWhitelist_rules (p : Process δ) :
    (p.migrateWhitelist yaml).config.policy.rules =
      p.config.policy.rules ++
        if p.storage = none then (whitelistRules p.config).map policyRuleEntry else [] := by
  unfold Process.migrateWhitelist
  by_cases hnil : p.config.whitelist = []
  · simp [hnil, whitelistRules]
  · rw [if_neg hnil]
    cases hstorage : p.storage with
    | none => simp
    | some s =>
      have hspec := (migrateWhitelistToPolicies_spec p.config s.database).2.2.2
      simpa using hspec

theorem migrateForwarding_rules (p : Process δ) :
    (p.migrateConditionalForwarding yaml printable).config.policy.rules =
      p.config.policy.rules ++
        if p.storage = none then (forwardingRules printable p.config).map policyRuleEntry
        else [] := by
  unfold Process.migrateConditionalForwarding
  by_cases hskip : ¬ p.config.conditionalForwarding.enabled ∨
      p.config.conditionalForwarding.rules = []
  · have hnone : forwardingRules printable p.config = [] := by
      rcases hskip with h | h <;> simp [forwardingRules, h]
    rw [if_pos hskip, hnone, List.map_nil, ite_self, List.append_nil]
  · rw [if_neg hskip]
    cases hstorage : p.storage with
    | none => simp
    | some s =>
      have hspec :=
        (migrateConditionalForwardingToPolicies_spec printable p.config s.database).2
      simpa using hspec

theorem migrateWhitelist_storage (p : Process δ) :
    (p.migrateWhitelist yaml).storage = none ↔ p.storage = none := by
  unfold Process.migrateWhitelist
  split
  · rfl
  · cases p.storage <;> simp

theorem migrateWhitelist_migratesForwarding (hyaml : yaml.Faithful) (p : Process δ) :
    MigratesForwarding (p.migrateWhitelist yaml).storage (p.migrateWhitelist yaml).config ↔
      MigratesForwarding p.storage p.config := by
  obtain ⟨policy, hconfig, -, hsentinel, -⟩ := p.migrateWhitelist_spec hyaml
  unfold MigratesForwarding ForwardsConditionally
  rw [hconfig, hsentinel]

theorem done_save_migrationWrites {storage : Option Store} {rules : List PolicyRule}
    {cfg cfg' : Config} {mark : Write} (hmark : mark ≠ .save cfg')
    (h : .save cfg' ∈ migrationWrites storage rules cfg mark) : cfg' = cfg := by
  cases storage with
  | none => simpa [migrationWrites] using h
  | some s => simpa [migrationWrites, hmark.symm] using h

variable {p : Process δ} {item : Item} {t : PolicyTable} {d : Disk δ} {a : StartAttempt}

theorem saved_config (hyaml : yaml.Faithful) {outcomes : List Bool} {cfg : Config}
    (h : Done (p.writes yaml printable) outcomes (.save cfg)) :
    cfg = (p.migrateWhitelist yaml).config ∨
      (MigratesForwarding p.storage p.config ∧ cfg = (p.migrate yaml printable).config) := by
  have hmem : .save cfg ∈ p.writes yaml printable := (List.of_mem_zip h).1
  rw [Process.writes, List.mem_append, Process.whitelistWrites, Process.forwardingWrites] at hmem
  rcases hmem with hmem | hmem
  · split at hmem
    · exact Or.inl (done_save_migrationWrites (by simp) hmem)
    · simp at hmem
  · split at hmem
    · rename_i hmigrates
      rw [migrateWhitelist_migratesForwarding hyaml] at hmigrates
      exact Or.inr ⟨hmigrates, done_save_migrationWrites (by simp) hmem⟩
    · simp at hmem

/-! ## Entries -/

theorem whitelistRule_spec (entry : GoString) (i : Nat) :
    (whitelistRule entry i).spec = (Item.domain entry).spec printable := by
  have hwild : (whitelistRule entry i).spec = (whitelistRule entry 0).spec := by
    unfold whitelistRule PolicyRule.spec
    generalize (if hasPrefix entry (lit "*.") = true then _ else _ : GoString × GoString) = text
    rfl
  exact hwild

theorem forwardingRule_spec {rule : ForwardingRule} {policy : PolicyRule}
    (h : forwardingRule printable rule = some policy) :
    policy.spec = (Item.forwarding rule).spec printable := by
  unfold forwardingRule at h
  dsimp only at h
  split at h
  · cases h
  · split at h
    · cases h
    · split at h
      · cases h
      · cases h
        rfl

theorem checkAction_spec (item : Item) : checkAction (item.spec printable).action = true := by
  cases item with
  | domain entry | forwarding rule => rfl

theorem map_settled_validate {raw cf : ConditionalForwardingConfig}
    (h : raw.validate = .ok cf) : cf.rules.map settled = raw.rules.map settled := by
  have htwice (rule : ForwardingRule) : settled (settled rule) = settled rule := by
    unfold settled orInt
    split <;> simp_all
  unfold ConditionalForwardingConfig.validate at h
  split at h
  · simp only [bind_eq_ok, pure_eq_ok] at h
    obtain ⟨rules, hrules, rfl⟩ := h
    change rules.map settled = raw.rules.map settled
    rw [Config.validateRules_ok hrules, List.map_map]
    exact List.map_congr_left fun rule _ => htwice rule
  · cases pure_eq_ok.mp h
    rfl

theorem inFile_loaded {sur : Surroundings} {hash : GoString → Option GoString} {env : Config.Env}
    {file : δ} {raw : Config} {cf : ConditionalForwardingConfig}
    (hcf : raw.conditionalForwarding.validate = .ok cf) (h : item.InFile printable raw) :
    item.InFile printable (loaded hash env sur file raw cf).config := by
  rcases h with h | h
  · left
    cases item with
    | domain entry => exact h
    | forwarding rule =>
      change settled rule ∈ cf.rules.map settled
      rw [map_settled_validate hcf]
      exact h
  · exact Or.inr h

theorem mem_whitelistRules {c : Config} {entry : GoString} (h : entry ∈ c.whitelist) :
    ∃ rule ∈ whitelistRules c, rule.spec = (Item.domain entry).spec printable := by
  obtain ⟨i, hi⟩ := List.mem_iff_getElem?.mp h
  refine ⟨whitelistRule entry i, ?_, whitelistRule_spec entry i⟩
  exact List.mem_map_of_mem (f := fun e => whitelistRule e.1 e.2)
    (List.mk_mem_zipIdx_iff_getElem?.mpr hi)

theorem spec_mem_append {rules : List Config.PolicyRuleEntry} {added : List PolicyRule}
    {spec : RuleSpec} (h : ∃ rule ∈ added, rule.spec = spec) :
    spec ∈ (rules ++ added.map policyRuleEntry).map entrySpec := by
  obtain ⟨rule, hrule, rfl⟩ := h
  rw [List.map_append, List.map_map]
  exact List.mem_append_right _ (List.mem_map_of_mem (f := entrySpec ∘ policyRuleEntry) hrule)

/-- What the whitelist migration leaves in the memory, and with it what it saves. -/
theorem inFile_migrateWhitelist (hyaml : yaml.Faithful) {p : Process δ} {item : Item}
    {t : PolicyTable}
    (hrows : p.storage ≠ none → ∀ entry ∈ p.config.whitelist,
      HasRow t ((Item.domain entry).spec printable))
    (h : item.InFile printable p.config) :
    item.InFile printable (p.migrateWhitelist yaml).config ∨ HasRow t (item.spec printable) := by
  obtain ⟨policy, hconfig, -⟩ := p.migrateWhitelist_spec hyaml
  unfold Item.InFile
  rw [migrateWhitelist_rules]
  rcases h with h | h
  · cases item with
    | domain entry =>
      by_cases hstorage : p.storage = none
      · rw [if_pos hstorage]
        exact Or.inl (Or.inr (spec_mem_append (mem_whitelistRules h)))
      · exact Or.inr (hrows hstorage entry h)
    | forwarding rule =>
      left; left
      rw [hconfig]
      exact h
  · left; right
    rw [List.map_append]
    exact List.mem_append_left _ h

theorem inFile_migrateForwarding (hyaml : yaml.Faithful) {p : Process δ} {item : Item}
    {t : PolicyTable} (hmigrates : MigratesForwarding p.storage p.config)
    (hrows : ∀ rule ∈ p.config.conditionalForwarding.rules,
      (p.storage = none → forwardingRule printable rule ≠ none) ∧
        (p.storage ≠ none → HasRow t ((Item.forwarding rule).spec printable)))
    (h : item.InFile printable p.config) :
    item.InFile printable (p.migrateConditionalForwarding yaml printable).config ∨
      HasRow t (item.spec printable) := by
  obtain ⟨policy, hconfig, -⟩ := p.migrateConditionalForwarding_spec printable hyaml
  unfold Item.InFile
  rw [migrateForwarding_rules]
  rcases h with h | h
  · cases item with
    | domain entry =>
      left; left
      rw [hconfig]
      exact h
    | forwarding rule =>
      obtain ⟨rule', hrule', hsettled⟩ := List.mem_map.mp h
      have hspec : (Item.forwarding rule).spec printable =
          (Item.forwarding rule').spec printable := by
        change (Item.forwarding (settled rule)).spec printable =
          (Item.forwarding (settled rule')).spec printable
        rw [hsettled]
      rw [hspec]
      by_cases hstorage : p.storage = none
      · rw [if_pos hstorage]
        obtain ⟨made, hmade⟩ := Option.ne_none_iff_exists'.mp ((hrows rule' hrule').1 hstorage)
        left; right
        apply spec_mem_append
        refine ⟨made, ?_, forwardingRule_spec hmade⟩
        rw [forwardingRules, if_pos hmigrates.1.1]
        exact List.mem_filterMap.mpr ⟨rule', hrule', hmade⟩
      · exact Or.inr ((hrows rule' hrule').2 hstorage)
  · left; right
    rw [List.map_append]
    exact List.mem_append_left _ h

/-! ## Starts -/

/-- The policy is in the table when the start begins, or its name is free and the first
insert of that name to go through is this policy's. -/
def Arrives (t : PolicyTable) (rules : List PolicyRule) (spec : RuleSpec) : Prop :=
  HasRow t spec ∨ (spec.name ∉ t.rows.map (·.rule.name) ∧
    (rules.find? (·.name = spec.name)).map (·.spec) = some spec)

theorem Arrives.hasRow {rules : List PolicyRule} (h : Arrives t rules (item.spec printable)) :
    HasRow (createRules t rules) (item.spec printable) := by
  rcases h with h | ⟨hfree, hfirst⟩
  · exact h.createRules rules
  · exact hasRow_createRules (checkAction_spec item) hfree hfirst

variable (yaml printable)

/-- A start that saves the file has delivered what it takes out of it.  Where the rules go to
the file instead, none is skipped. -/
structure Careful (d : Disk δ) (a : StartAttempt) (p : Process δ) : Prop where
  whitelist : p.storage ≠ none →
    (∃ cfg, Done (p.writes yaml printable) a.outcomes (.save cfg)) →
    ∀ entry ∈ p.config.whitelist,
      Arrives d.table (inserted (p.writes yaml printable) a.outcomes)
        ((Item.domain entry).spec printable)
  forwarding : MigratesForwarding p.storage p.config →
    Done (p.writes yaml printable) a.outcomes (.save (p.migrate yaml printable).config) →
    ∀ rule ∈ p.config.conditionalForwarding.rules,
      (p.storage = none → forwardingRule printable rule ≠ none) ∧
        (p.storage ≠ none →
          Arrives d.table (inserted (p.writes yaml printable) a.outcomes)
            ((Item.forwarding rule).spec printable))

def CarefulStart (d : Disk δ) (a : StartAttempt) : Prop :=
  ∀ p, launch yaml a.hash a.env (a.surroundings d) d.file = .ok p → Careful yaml printable d a p

variable {yaml printable}

theorem Disk.Keeps.perform_of_no_save (hyaml : yaml.Faithful) {ws : List Write}
    {outcomes : List Bool} (hsave : ∀ cfg, .save cfg ∉ ws) (h : d.Keeps yaml printable item) :
    (d.perform yaml ws outcomes).1.Keeps yaml printable item := by
  rcases h with ⟨c, hc, hitem⟩ | hrow
  · rcases perform_file hyaml d ws outcomes with hfile | ⟨cfg, hdone, -⟩
    · exact Or.inl ⟨c, by rw [hfile]; exact hc, hitem⟩
    · exact absurd (List.of_mem_zip hdone).1 (hsave cfg)
  · right
    rw [perform_table]
    exact hrow.createRules _

/-- What both migrations leave in the memory of a careful start. -/
theorem inFile_saved (hyaml : yaml.Faithful) {cfg : Config}
    (hcareful : Careful yaml printable d a p)
    (hdone : Done (p.writes yaml printable) a.outcomes (.save cfg))
    (hitem : item.InFile printable p.config) :
    item.InFile printable cfg ∨
      HasRow (createRules d.table (inserted (p.writes yaml printable) a.outcomes))
        (item.spec printable) := by
  have hfirst := inFile_migrateWhitelist hyaml
    (fun hstorage entry hentry =>
      (hcareful.whitelist hstorage ⟨cfg, hdone⟩ entry hentry).hasRow) hitem
  rcases saved_config hyaml hdone with rfl | ⟨hmigrates, rfl⟩
  · exact hfirst
  · rcases hfirst with hfirst | hrow
    · have hrules := hcareful.forwarding hmigrates hdone
      obtain ⟨policy, hconfig, -⟩ := p.migrateWhitelist_spec hyaml
      apply inFile_migrateForwarding hyaml
        ((migrateWhitelist_migratesForwarding hyaml p).mpr hmigrates) _ hfirst
      intro rule hrule
      rw [hconfig] at hrule
      simp only [ne_eq, migrateWhitelist_storage]
      obtain ⟨hskipped, harrives⟩ := hrules rule hrule
      exact ⟨hskipped, fun hstorage => (harrives hstorage).hasRow⟩
    · exact Or.inr hrow

theorem Disk.Keeps.perform (hyaml : yaml.Faithful)
    (hlaunch : launch yaml a.hash a.env (a.surroundings d) d.file = .ok p)
    (hcareful : Careful yaml printable d a p) (h : d.Keeps yaml printable item) :
    (d.perform yaml (p.writes yaml printable) a.outcomes).1.Keeps yaml printable item := by
  unfold Disk.Keeps
  rw [perform_table]
  rcases h with ⟨c, hc, hitem⟩ | hrow
  · rcases perform_file hyaml d (p.writes yaml printable) a.outcomes with
      hfile | ⟨cfg, hdone, hcfg⟩
    · rw [hfile]
      exact Or.inl ⟨c, hc, hitem⟩
    · -- the file was replaced: each entry is in what was saved, or its row is in the table
      obtain ⟨raw, cf, hraw, hcf, hp, -⟩ := launch_ok hlaunch
      obtain rfl : c = raw := Except.ok.inj (hc.symm.trans hraw)
      have hloaded : item.InFile printable p.config := by
        rw [hp]
        exact inFile_loaded hcf hitem
      rcases inFile_saved hyaml hcareful hdone hloaded with hsaved | hrow
      · exact Or.inl ⟨cfg, hcfg, hsaved⟩
      · exact Or.inr hrow
  · exact Or.inr (hrow.createRules _)

theorem save_not_mem_seedWrites (a : StartAttempt) (cfg : Config) (t : PolicyTable)
    (cfg' : Config) :
    .save cfg' ∉ seedWrites a cfg t := by
  unfold seedWrites
  split <;> simp

/-- One start. -/
theorem Disk.Keeps.restart (hyaml : yaml.Faithful) (hcareful : CarefulStart yaml printable d a)
    (h : d.Keeps yaml printable item) :
    (d.restart yaml printable a).Keeps yaml printable item := by
  unfold Disk.restart
  cases hlaunch : launch yaml a.hash a.env (a.surroundings d) d.file with
  | error e => exact h
  | ok p =>
    have hmigrated := h.perform hyaml hlaunch (hcareful p hlaunch)
    cases hstorage : p.storage with
    | none =>
      simp only [hstorage]
      exact hmigrated
    | some s =>
      simp only [hstorage]
      exact hmigrated.perform_of_no_save hyaml (save_not_mem_seedWrites _ _ _)

end

/-- In a run of careful starts every entry stays in the file or is a row, whatever fails and
wherever the starts are cut off. -/
theorem careful_starts_lose_nothing {δ : Type} {yaml : Yaml δ} (hyaml : yaml.Faithful)
    (printable : Nat → Bool) (d : Disk δ) (starts : List StartAttempt)
    (hcareful : AllSteps (Disk.restart yaml printable) (CarefulStart yaml printable) d starts)
    {c : Config} (hc : yaml.unmarshal d.file = .ok c) (item : Item) (hitem : item.InSection c) :
    ∀ d' ∈ states (Disk.restart yaml printable) d starts, d'.Keeps yaml printable item := by
  have hstart : d.Keeps yaml printable item := Or.inl ⟨c, hc, Or.inl hitem⟩
  have hstep : ∀ (d : Disk δ) (a : StartAttempt), CarefulStart yaml printable d a →
      d.Keeps yaml printable item → (d.restart yaml printable a).Keeps yaml printable item :=
    fun d a hcareful hkeeps => hkeeps.restart hyaml hcareful
  exact invariant_states hstep hcareful hstart

/-! ## Instances -/

def whitelistDisk : Disk Config where
  file := { whitelist := [lit "ads.example"], database := { enabled := true } }
  store := ⟨⟨PolicyTable.empty, false, false⟩, .missing⟩

def trial (outcomes : List Bool) : StartAttempt :=
  ⟨lit "dev", fun _ => none, {}, true, true, true, true, outcomes⟩

theorem launched_eq {α : Type} (f : Process Config → α) {sur : Surroundings} {file : Config}
    {hash : GoString → Option GoString} {env : Config.Env} {x : α} {p : Process Config}
    (h : launch Config.plainYaml hash env sur file = .ok p)
    (hx : (launch Config.plainYaml hash env sur file).toOption.map f = some x) : f p = x := by
  rw [h] at hx
  exact Option.some.inj hx

theorem carefulStart_of_all_fail {δ : Type} {yaml : Yaml δ} {printable : Nat → Bool} {d : Disk δ}
    {a : StartAttempt} (h : true ∉ a.outcomes) : CarefulStart yaml printable d a := by
  intro p _
  refine ⟨fun _ hsave => ?_, fun _ hsave => ?_⟩
  · obtain ⟨cfg, hdone⟩ := hsave
    exact absurd (List.of_mem_zip hdone).2 h
  · exact absurd (List.of_mem_zip hsave).2 h

/-- The insert fails and the process stops; the next start makes up for it. -/
theorem interrupted_start_loses_nothing :
    (states (Disk.restart Config.plainYaml fun _ => true) whitelistDisk
        [trial [false], trial [true, true, true]]).Forall fun d =>
      d.Keeps Config.plainYaml (fun _ => true) (.domain (lit "ads.example")) := by
  have hsecond : CarefulStart Config.plainYaml (fun _ => true)
      (whitelistDisk.restart Config.plainYaml (fun _ => true) (trial [false]))
      (trial [true, true, true]) := by
    intro p hp
    have hwhitelist := launched_eq (·.config.whitelist) (x := [lit "ads.example"]) hp
      (by decide +kernel)
    have hrules := launched_eq (·.config.conditionalForwarding.rules) (x := []) hp
      (by decide +kernel)
    have hinserted := launched_eq
      (fun p => inserted (p.writes Config.plainYaml fun _ => true) [true, true, true])
      (x := [whitelistRule (lit "ads.example") 0]) hp (by decide +kernel)
    refine ⟨fun _ _ entry hentry => ?_, fun _ _ rule hrule => ?_⟩
    · rw [hwhitelist] at hentry
      obtain rfl := List.mem_singleton.mp hentry
      right
      change _ ∧ ((inserted _ [true, true, true]).find? _).map _ = _
      rw [hinserted]
      decide +kernel
    · rw [hrules] at hrule
      cases hrule
  have hrun : AllSteps (Disk.restart Config.plainYaml fun _ => true)
      (CarefulStart Config.plainYaml fun _ => true) whitelistDisk
      [trial [false], trial [true, true, true]] :=
    ⟨carefulStart_of_all_fail (by decide), hsecond, trivial⟩
  exact List.forall_iff_forall_mem.mpr (careful_starts_lose_nothing (fun c => ⟨c, rfl, rfl⟩) _ _ _
    hrun rfl _ (List.mem_singleton.mpr rfl))

theorem keeps_plainYaml_iff {printable : Nat → Bool} {d : Disk Config} {item : Item} :
    d.Keeps Config.plainYaml printable item ↔
      item.InFile printable d.file ∨ HasRow d.table (item.spec printable) := by
  have hfile (c : Config) : Config.plainYaml.unmarshal d.file = .ok c ↔ c = d.file :=
    ⟨fun h => (Except.ok.inj h).symm, fun h => h ▸ rfl⟩
  unfold Disk.Keeps
  simp only [hfile, exists_eq_left]

def officeOff : ForwardingRule where
  name := lit "office"
  domains := [lit "*.office.lan"]
  upstreams := [lit "10.0.0.2:53"]
  priority := 50

def forwardingDisk : Disk Config where
  file :=
    { conditionalForwarding := { rules := [officeOff], enabled := true }
      database := { enabled := true } }
  store := ⟨⟨PolicyTable.empty, false, false⟩, .missing⟩

/-- One insert fails and the save goes through; or all goes well, and the rule is switched
off. -/
theorem start_loses_entry :
    ¬ (whitelistDisk.restart Config.plainYaml (fun _ => true)
        (trial [false, true, true])).Keeps Config.plainYaml (fun _ => true)
          (.domain (lit "ads.example")) ∧
      ¬ (forwardingDisk.restart Config.plainYaml (fun _ => true)
        (trial [true, true])).Keeps Config.plainYaml (fun _ => true)
          (.forwarding officeOff) := by
  rw [keeps_plainYaml_iff, keeps_plainYaml_iff]
  decide +kernel

end GloryHole.Boot
