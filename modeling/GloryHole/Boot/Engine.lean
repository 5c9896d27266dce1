import GloryHole.Boot.Config
import GloryHole.Forwarder.Forward
import GloryHole.Policy.Expr

/-!
# The engine a start builds

With a database the rules come from its table, without one from the YAML file, in the order
of its list; a rule that does not compile is logged and left out.  Beside it stands what a
conditional-forwarding section and its patterns are meant to do, to be compared with what
the engine does after the migration.
-/

namespace GloryHole.Boot

open Go Policy Storage
open Config (Config ForwardingRule ConditionalForwardingConfig PolicyRuleEntry)
open Forwarder (normalizeUpstream)

/-! ## The rules of the engine -/

def entrySpec (entry : PolicyRuleEntry) : RuleSpec :=
  { name := entry.name, logic := entry.logic, action := entry.action,
    actionData := entry.actionData, enabled := entry.enabled }

section

variable {δ : Type} (upper : Nat → Nat) (lang : ExprLang)

def Process.engine (p : Process δ) : List Rule :=
  match p.storage with
  | some s => Api.compiledRules upper lang s.database.table
  | none => p.config.policy.rules.filterMap fun entry => (entrySpec entry).compile upper lang

def Process.decides (p : Process δ) (ctx : Context) : Option Rule :=
  if p.config.server.enablePolicies then evaluate lang (p.engine upper lang) ctx else none

end

/-! ## What patterns and forwarding rules are meant to do -/

section

variable (lower upper : Nat → Nat)

/-- An entry matches a name by its kind: a wildcard the base domain and what is below it, a
pattern as `onPattern` says, and a plain domain itself. -/
def kindMatches (onPattern : GoString → GoString → Bool) (entry domain : GoString) : Bool :=
  if hasPrefix entry (lit "*.") then
    let base := trimPrefix entry (lit "*.")
    domain == base || domainEndsWith lower domain (lit "." ++ base)
  else if hasPatternChar entry then onPattern domain entry
  else domain == entry

def regexMatches (regexp : GoString → Option (GoString → Bool)) (domain pattern : GoString) :
    Bool :=
  domainRegex lower regexp domain pattern == some true

def appliesTo (onPattern : GoString → GoString → Bool) (rule : ForwardingRule)
    (ctx : Context) : Bool :=
  (rule.domains.isEmpty || rule.domains.any (kindMatches lower onPattern · ctx.domain)) &&
    ((rule.clientCIDRs.isEmpty || rule.clientCIDRs.any (ipInCIDR ctx.clientIP)) &&
      (rule.queryTypes.isEmpty || queryTypeIn upper ctx.queryType rule.queryTypes))

/-- The enabled rule of the highest priority among those that match, the first of them in
the list. -/
noncomputable def inForce (regexp : GoString → Option (GoString → Bool))
    (cf : ConditionalForwardingConfig) (ctx : Context) : Option ForwardingRule :=
  if cf.enabled then
    ((cf.rules.filter (·.enabled)).filter
      (appliesTo lower upper (regexMatches lower regexp) · ctx)).argmax (·.priority)
  else none

def upstreamsOf (rule : ForwardingRule) : List GoString := rule.upstreams.map normalizeUpstream

/-- Where the section sends a query; `none` is to the default upstreams. -/
noncomputable def routeOf (regexp : GoString → Option (GoString → Bool))
    (cf : ConditionalForwardingConfig) (ctx : Context) : Option (List GoString) :=
  (inForce lower upper regexp cf ctx).map upstreamsOf

end

end GloryHole.Boot
