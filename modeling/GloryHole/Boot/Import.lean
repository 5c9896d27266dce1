import GloryHole.Boot.Engine

/-!
# Importing Pi-hole lists

The domain lists of a Pi-hole database become policies of the configuration file.  An entry
of such a list, or of a whitelist, is a plain domain, a wildcard or a regular expression;
what the policies are made from is its text alone.
-/

namespace GloryHole.Boot

open Go Policy
open Config (PolicyRuleEntry)

/-! ## The import -/

inductive DomainType where
  | whitelistExact
  | blacklistExact
  | whitelistRegex
  | blacklistRegex
  deriving DecidableEq

def DomainType.action : DomainType → Action
  | .whitelistExact | .whitelistRegex => .actionAllow
  | .blacklistExact | .blacklistRegex => .actionBlock

def importDomainLists (rows : List (DomainType × GoString)) : List GoString × List GoString :=
  rows.foldl (fun (whitelist, blacklist) (domainType, domain) =>
    match domainType with
    | .whitelistExact | .whitelistRegex => (whitelist ++ [domain], blacklist)
    | .blacklistExact | .blacklistRegex => (whitelist, blacklist ++ [domain])) ([], [])

section

variable (printable : Nat → Bool)

def domainEntryToLogicAndName (entry verb : GoString) : GoString × GoString :=
  if hasPrefix entry (lit "*.") then
    let baseDomain := trimPrefix entry (lit "*.")
    (lit "Domain == " ++ quote printable baseDomain ++ lit " || DomainEndsWith(Domain, " ++
        quote printable (lit "." ++ baseDomain) ++ lit ")",
      verb ++ lit " *." ++ baseDomain ++ lit " (imported)")
  else if hasPatternChar entry then
    (lit "DomainMatches(Domain, " ++ quote printable entry ++ lit ")",
      verb ++ lit " pattern " ++ entry ++ lit " (imported)")
  else (lit "Domain == " ++ quote printable entry, verb ++ lit " " ++ entry ++ lit " (imported)")

def importedRule (verb : GoString) (action : Action) (entry : GoString) : PolicyRuleEntry :=
  let (logic, name) := domainEntryToLogicAndName printable entry verb
  { name := name, logic := logic, action := action.text, enabled := true }

def piholeDomainListsToPolicyRules (whitelist blacklist : List GoString) :
    List PolicyRuleEntry :=
  whitelist.map (importedRule printable (lit "Allow") .actionAllow) ++
    blacklist.map (importedRule printable (lit "Block") .actionBlock)

def importPolicyRules (rows : List (DomainType × GoString)) : List PolicyRuleEntry :=
  piholeDomainListsToPolicyRules printable (importDomainLists rows).1 (importDomainLists rows).2

end

/-! ## Entries by their kind -/

inductive ListEntry where
  | plain (domain : GoString)
  | wildcard (base : GoString)
  | regex (pattern : GoString)
  deriving DecidableEq

def ListEntry.text : ListEntry → GoString
  | .plain domain => domain
  | .wildcard base => lit "*." ++ base
  | .regex pattern => pattern

def isSubdomain (lower : Nat → Nat) (name base : GoString) : Bool :=
  hasSuffix (toLower lower name) (lit "." ++ toLower lower base)

def ListEntry.matches (lower : Nat → Nat) (regexp : GoString → Option (GoString → Bool))
    (name : GoString) : ListEntry → Bool
  | .plain domain => name == domain
  | .wildcard base => name == base || isSubdomain lower name base
  | .regex pattern => regexMatches lower regexp name pattern

def Keeps (lower : Nat → Nat) (regexp : GoString → Option (GoString → Bool)) (lang : ExprLang)
    (logic : GoString) (entry : ListEntry) : Prop :=
  lang.compiles logic = true ∧
    ∀ ctx, lang.run logic ctx = some true ↔ entry.matches lower regexp ctx.domain = true

end GloryHole.Boot
