import GloryHole.Api.Policies
import GloryHole.Config.Types

/-!
# Policies at start-up

What `main` does to the policy table and the engine when the server starts with
storage: it migrates whitelist entries and conditional-forwarding rules into policies,
each once, then seeds an empty table with the policies of the YAML file, and builds the
engine from the table.
-/

namespace GloryHole.Boot

open Go Policy Storage
open Config (Config ForwardingRule PolicyRuleEntry)

structure Database where
  table : PolicyTable
  whitelistMigrated : Bool
  conditionalForwardingMigrated : Bool

def conditionalForwardingPolicyBand : Int := 1000

/-- Inserting rules one after the other; a failed `INSERT` is logged and skipped. -/
def createRules (t : PolicyTable) (rules : List PolicyRule) : PolicyTable :=
  rules.foldl (fun t rule =>
    match t.createPolicyRule rule with
    | .ok (t, _) => t
    | .error _ => t) t

/-! ## The whitelist -/

def hasPatternChar (entry : GoString) : Bool :=
  entry.any fun b => [byte '(', byte ')', byte '[', byte ']', 0x7B, 0x7D, byte '^', byte '$',
    byte '|', 0x5C, byte '+', byte '?'].contains b

def whitelistRule (entry : GoString) (i : Nat) : PolicyRule :=
  let (name, logic) :=
    if hasPrefix entry (lit "*.") then
      let baseDomain := trimPrefix entry (lit "*.")
      (lit "Allow *." ++ baseDomain ++ lit " (migrated)",
        lit "Domain == \"" ++ baseDomain ++ lit "\" || DomainEndsWith(Domain, \"." ++
          baseDomain ++ lit "\")")
    else if hasPatternChar entry then
      (lit "Allow pattern " ++ entry ++ lit " (migrated)",
        lit "DomainMatches(Domain, \"" ++ entry ++ lit "\")")
    else
      (lit "Allow " ++ entry ++ lit " (migrated)", lit "Domain == \"" ++ entry ++ lit "\"")
  { name := name, logic := logic, action := Action.actionAllow.text, actionData := [],
    enabled := true, sortOrder := i }

def whitelistRules (cfg : Config) : List PolicyRule :=
  cfg.whitelist.zipIdx.map fun e => whitelistRule e.1 e.2

def migrateWhitelistToPolicies (cfg : Config) (db : Database) : Config × Database :=
  if cfg.whitelist = [] then (cfg, db)
  else if db.whitelistMigrated then ({ cfg with whitelist := [] }, db)
  else
    ({ cfg with whitelist := [], policy := { cfg.policy with enabled := true } },
      { db with
        table := createRules db.table (whitelistRules cfg)
        whitelistMigrated := true })

/-! ## Conditional forwarding -/

section ConditionalForwarding

variable (printable : Nat → Bool)

def anyOf (parts : List GoString) : GoString :=
  match parts with
  | [part] => part
  | parts => lit "(" ++ join (lit " || ") parts ++ lit ")"

def domainMatcher (d : GoString) : GoString :=
  if hasPrefix d (lit "*.") then
    let base := trimPrefix d (lit "*.")
    lit "(Domain == " ++ quote printable base ++ lit " || DomainEndsWith(Domain, " ++
      quote printable (lit "." ++ base) ++ lit "))"
  else if hasPatternChar d then
    lit "DomainMatches(Domain, " ++ quote printable d ++ lit ")"
  else lit "Domain == " ++ quote printable d

def buildPolicyLogicFromCFRule (rule : ForwardingRule) : GoString :=
  let domains := rule.domains.map (domainMatcher printable)
  let cidrs := rule.clientCIDRs.map fun c =>
    lit "IPInCIDR(ClientIP, " ++ quote printable c ++ lit ")"
  let types := lit "QueryTypeIn(QueryType, " ++
    join (lit ", ") (rule.queryTypes.map (quote printable)) ++ lit ")"
  join (lit " && ")
    ((if domains = [] then [] else [anyOf domains]) ++
      (if cidrs = [] then [] else [anyOf cidrs]) ++
      (if rule.queryTypes = [] then [] else [types]))

/-- The policy a conditional-forwarding rule becomes; a disabled rule and one without
matchers or upstreams are skipped. -/
def forwardingRule (rule : ForwardingRule) : Option PolicyRule :=
  if ¬ rule.enabled then none
  else
    let logic := buildPolicyLogicFromCFRule printable rule
    if logic = [] then none
    else if rule.upstreams = [] then none
    else
      let prio := if rule.priority = 0 then 50 else rule.priority
      some
        { name := lit "Forward " ++ rule.name ++ lit " (migrated)"
          logic := logic
          action := Action.actionForward.text
          actionData := join (lit ",") rule.upstreams
          enabled := true
          sortOrder := conditionalForwardingPolicyBand + (100 - prio) }

def forwardingRules (cfg : Config) : List PolicyRule :=
  if cfg.conditionalForwarding.enabled then
    cfg.conditionalForwarding.rules.filterMap (forwardingRule printable)
  else []

def migrateConditionalForwardingToPolicies (cfg : Config) (db : Database) :
    Config × Database :=
  let drained := { cfg with conditionalForwarding := { rules := [], enabled := false } }
  if ¬ cfg.conditionalForwarding.enabled ∨ cfg.conditionalForwarding.rules = [] then (cfg, db)
  else if db.conditionalForwardingMigrated then (drained, db)
  else
    ({ drained with policy := { cfg.policy with enabled := true } },
      { db with
        table := createRules db.table (forwardingRules printable cfg)
        conditionalForwardingMigrated := true })

end ConditionalForwarding

/-! ## Seeding and the engine -/

def seedRule (entry : PolicyRuleEntry) (i : Nat) : PolicyRule :=
  { name := entry.name, logic := entry.logic, action := entry.action,
    actionData := entry.actionData, enabled := entry.enabled, sortOrder := i }

def seedRules (cfg : Config) : List PolicyRule :=
  cfg.policy.rules.zipIdx.map fun e => seedRule e.1 e.2

def seedPolicies (cfg : Config) (t : PolicyTable) : PolicyTable :=
  if t.getPolicyRules = [] ∧ cfg.policy.rules ≠ [] then createRules t (seedRules cfg) else t

/-- The policy part of `main`: the configuration it goes on with, the database and the
rules of the engine. -/
def boot (upper : Nat → Nat) (printable : Nat → Bool) (lang : ExprLang) (cfg : Config)
    (db : Database) : Config × Database × List Rule :=
  let (cfg, db) := migrateWhitelistToPolicies cfg db
  let (cfg, db) := migrateConditionalForwardingToPolicies printable cfg db
  let db := { db with table := seedPolicies cfg db.table }
  (cfg, db, Api.compiledRules upper lang db.table)

end GloryHole.Boot
