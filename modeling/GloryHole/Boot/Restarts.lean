import GloryHole.Boot.Engine

/-!
# Starts that fail and stop

A start of the server as the writes its migrations make, one after the other: rows, the file,
the two sentinels.  Any of them may fail, which is logged and no more, and the process may
stop between any two.  The next start begins with what the disk holds.
-/

namespace GloryHole.Boot

open Go Policy Storage
open Config (Config Env Yaml ForwardingRule orInt)

/-! ## Writes -/

structure Disk (δ : Type) where
  file : δ
  store : Store

def Disk.table {δ : Type} (d : Disk δ) : PolicyTable := d.store.database.table

inductive Write where
  | insert (rule : PolicyRule)
  | save (cfg : Config)
  | markWhitelist
  | markForwarding

section

variable {δ : Type} (yaml : Yaml δ)

def Disk.onDatabase (d : Disk δ) (f : Database → Database) : Disk δ :=
  { d with store := { d.store with database := f d.store.database } }

def Disk.write (d : Disk δ) : Write → Disk δ
  | .insert rule => d.onDatabase fun db => { db with table := createRules db.table [rule] }
  | .save cfg => { d with file := persist yaml cfg d.file }
  | .markWhitelist => d.onDatabase fun db => { db with whitelistMigrated := true }
  | .markForwarding => d.onDatabase fun db => { db with conditionalForwardingMigrated := true }

/-- Writes with their outcomes, and the outcomes left over.  A write that fails is skipped;
where the outcomes end, the process stops. -/
def Disk.perform : Disk δ → List Write → List Bool → Disk δ × List Bool
  | d, [], outcomes => (d, outcomes)
  | d, _ :: _, [] => (d, [])
  | d, w :: ws, ok :: outcomes => Disk.perform (if ok then d.write yaml w else d) ws outcomes

/-! ## The writes of a start -/

/-- The writes of a migration: its rows, the file and its sentinel, or the file alone where
there is no database. -/
def migrationWrites (storage : Option Store) (rules : List PolicyRule) (cfg : Config)
    (mark : Write) : List Write :=
  match storage with
  | some _ => rules.map Write.insert ++ [Write.save cfg, mark]
  | none => [.save cfg]

def Process.whitelistWrites (p : Process δ) : List Write :=
  if MigratesWhitelist p.storage p.config then
    migrationWrites p.storage (whitelistRules p.config) (p.migrateWhitelist yaml).config
      .markWhitelist
  else []

variable (printable : Nat → Bool)

def Process.forwardingWrites (p : Process δ) : List Write :=
  if MigratesForwarding p.storage p.config then
    migrationWrites p.storage (forwardingRules printable p.config)
      (p.migrateConditionalForwarding yaml printable).config .markForwarding
  else []

def Process.writes (p : Process δ) : List Write :=
  p.whitelistWrites yaml ++ (p.migrateWhitelist yaml).forwardingWrites yaml printable

def Process.migrate (p : Process δ) : Process δ :=
  (p.migrateWhitelist yaml).migrateConditionalForwarding yaml printable

/-- What a start meets: whether the database opens and its reads succeed, and the outcome of
each write up to where the process stops. -/
structure StartAttempt where
  version : GoString
  hash : GoString → Option GoString
  env : Env
  opens : Bool
  readsWhitelistSentinel : Bool
  readsForwardingSentinel : Bool
  readsRules : Bool
  outcomes : List Bool

/-- The database as the start reads it: a sentinel it cannot read counts as not set. -/
def StartAttempt.seen (a : StartAttempt) (s : Store) : Store :=
  { s with
    database :=
      { s.database with
        whitelistMigrated := s.database.whitelistMigrated && a.readsWhitelistSentinel
        conditionalForwardingMigrated :=
          s.database.conditionalForwardingMigrated && a.readsForwardingSentinel } }

def StartAttempt.surroundings (a : StartAttempt) (d : Disk δ) : Surroundings where
  version := a.version
  store := if a.opens then some (a.seen d.store) else none
  unboundStarts := false

def seedWrites (a : StartAttempt) (cfg : Config) (t : PolicyTable) : List Write :=
  if (a.readsRules = false ∨ t.getPolicyRules = []) ∧ cfg.policy.rules ≠ [] then
    (seedRules cfg).map .insert
  else []

def Disk.restart (d : Disk δ) (a : StartAttempt) : Disk δ :=
  match launch yaml a.hash a.env (a.surroundings d) d.file with
  | .error _ => d
  | .ok p =>
    let (d, outcomes) := d.perform yaml (p.writes yaml printable) a.outcomes
    match p.storage with
    | some _ =>
      (d.perform yaml (seedWrites a (p.migrate yaml printable).config d.table) outcomes).1
    | none => d

/-! ## Where an entry is -/

def settled (rule : ForwardingRule) : ForwardingRule :=
  { rule with priority := orInt rule.priority 50 }

inductive Item where
  | domain (entry : GoString)
  | forwarding (rule : ForwardingRule)

def Item.InSection (c : Config) : Item → Prop
  | .domain entry => entry ∈ c.whitelist
  | .forwarding rule => settled rule ∈ c.conditionalForwarding.rules.map settled

instance decidableInSection (c : Config) : (item : Item) → Decidable (item.InSection c)
  | .domain entry => inferInstanceAs (Decidable (entry ∈ c.whitelist))
  | .forwarding rule =>
    inferInstanceAs (Decidable (settled rule ∈ c.conditionalForwarding.rules.map settled))

def Item.spec : Item → RuleSpec
  | .domain entry => (whitelistRule entry 0).spec
  | .forwarding rule =>
    { name := lit "Forward " ++ rule.name ++ lit " (migrated)"
      logic := buildPolicyLogicFromCFRule printable rule
      action := Action.actionForward.text
      actionData := join (lit ",") rule.upstreams
      enabled := true }

def Item.InFile (c : Config) (item : Item) : Prop :=
  item.InSection c ∨ item.spec printable ∈ c.policy.rules.map entrySpec

instance decidableInFile (c : Config) (item : Item) : Decidable (item.InFile printable c) :=
  inferInstanceAs (Decidable (_ ∨ _))

def HasRow (t : PolicyTable) (spec : RuleSpec) : Prop := spec ∈ t.rows.map (·.rule.spec)

instance decidableHasRow (t : PolicyTable) (spec : RuleSpec) : Decidable (HasRow t spec) :=
  inferInstanceAs (Decidable (_ ∈ _))

def Disk.Keeps (d : Disk δ) (item : Item) : Prop :=
  (∃ c, yaml.unmarshal d.file = .ok c ∧ item.InFile printable c) ∨
    HasRow d.table (item.spec printable)

end

end GloryHole.Boot
