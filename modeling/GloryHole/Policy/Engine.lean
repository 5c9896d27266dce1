import GloryHole.Go.Net
import GloryHole.Go.Utf8

/-!
# The policy engine

Rules are kept in evaluation order; the first enabled rule whose expression is true
decides.  The expression language is a library of its own: `ExprLang` is its compiler
and its virtual machine on the engine's context.
-/

namespace GloryHole.Policy

open Go

structure Context where
  time : Int
  domain : GoString
  clientIP : GoString
  queryType : GoString
  hour : Int
  minute : Int
  day : Int
  month : Int
  weekday : Int
  deriving DecidableEq

/-- The expression language: which texts compile, and what a compiled text evaluates
to; `none` is a run-time error or a result that is no boolean. -/
structure ExprLang where
  compiles : GoString → Bool
  run : GoString → Context → Option Bool

inductive Action where
  | actionBlock
  | actionAllow
  | actionRedirect
  | actionForward
  deriving DecidableEq

def Action.text : Action → GoString
  | .actionBlock => lit "BLOCK"
  | .actionAllow => lit "ALLOW"
  | .actionRedirect => lit "REDIRECT"
  | .actionForward => lit "FORWARD"

structure RuleSpec where
  name : GoString
  logic : GoString
  action : GoString
  actionData : GoString
  enabled : Bool
  deriving DecidableEq

structure Rule where
  name : GoString
  logic : GoString
  action : Action
  actionData : GoString
  enabled : Bool
  deriving DecidableEq

/-- One upstream of a FORWARD rule, with the default port if it has none. -/
def parseUpstream (part : GoString) : Option GoString :=
  if containsByte part (byte ':') then
    match splitHostPort part with
    | none => none
    | some (host, port) => if host = [] ∨ port = [] then none else some part
  else some (part ++ lit ":53")

def parseUpstreams (actionData : GoString) : Option (List GoString) :=
  if actionData = [] then none
  else
    (((splitByte (byte ',') actionData).map trimSpace).filter (· ≠ [])).mapM parseUpstream

/-- `validateAction`: the action of an upper-cased text, if its data fits. -/
def validateAction (upper : Nat → Nat) (action actionData : GoString) : Option Action :=
  let action := toUpper upper action
  if action = Action.actionBlock.text then some .actionBlock
  else if action = Action.actionAllow.text then some .actionAllow
  else if action = Action.actionRedirect.text then
    if actionData = [] then none
    else (parseIP actionData).map fun _ => .actionRedirect
  else if action = Action.actionForward.text then
    if actionData = [] then none
    else
      match parseUpstreams actionData with
      | none => none
      | some upstreams => if upstreams = [] then none else some .actionForward
  else none

def RuleSpec.compile (upper : Nat → Nat) (lang : ExprLang) (spec : RuleSpec) :
    Option Rule :=
  match validateAction upper spec.action spec.actionData with
  | none => none
  | some action =>
    if lang.compiles spec.logic then
      some { name := spec.name, logic := spec.logic, action := action,
             actionData := spec.actionData, enabled := spec.enabled }
    else none

def Rule.matches (lang : ExprLang) (rule : Rule) (ctx : Context) : Bool :=
  rule.enabled && lang.run rule.logic ctx == some true

/-- `Engine.Evaluate`: a rule that fails is skipped. -/
def evaluate (lang : ExprLang) (rules : List Rule) (ctx : Context) : Option Rule :=
  rules.find? (·.matches lang ctx)

def Rule.getUpstreams (rule : Rule) : List GoString :=
  match rule.action with
  | .actionForward => (parseUpstreams rule.actionData).getD []
  | _ => []

theorem evaluate_matches {lang : ExprLang} {rules : List Rule} {ctx : Context} {rule : Rule}
    (h : evaluate lang rules ctx = some rule) : rule.matches lang ctx = true := by
  unfold evaluate at h
  simpa using List.find?_some h

end GloryHole.Policy
