import GloryHole.Boot.Proofs.Append
import GloryHole.Dns.Proofs.Spelling

/-!
# From the settings to the reply

What a list that has been downloaded and a policy that the API has created mean for a query.
-/

namespace GloryHole.Dns

open Go Policy Storage
open Api (PolicyRequest Faults compiledRules handleAddPolicy)
open Blocklist (MatchResult IsQueryFor ListsFit listedNames listsFit_of_length_le
  lower_case_name_blocked)

variable {h : Handler} {query : Query} {q : Question} {qs : List Question}

/-- A query for a listed name in lower case, in any spelling, that no local record and no rule
decides is answered as blocked, whatever the cache holds and the upstreams would say. -/
theorem listed_name_answered_blocked (hquestion : query.request.question = q :: qs)
    (m : Blocklist.Manager) (responses : List Blocklist.Response)
    (hfits : ListsFit m.blocklists responses) (hmanager : h.blocklistManager = m.update responses)
    (hon : h.listsOn = true) {d : GoString} (hd : d ∈ listedNames m.blocklists responses)
    (hlower : ∀ b ∈ d, b < 0x80 ∧ asciiLower b = b ∧ b ≠ 0)
    (hroot : d ≠ lit ".") (hone : ¬ hasSuffix d.dropLast (lit ".")) (hname : IsQueryFor d q.name)
    {verdict : MatchResult} (hlisted : h.decision query = .listed verdict)
    (cache : ResponseCache) (env : Env) :
    (h.respond cache query env).2 =
      .own (blockedReply h.blockPageIP query.request (baseReply query.request) q) := by
  obtain ⟨m', hupdate, hblocked⟩ :=
    lower_case_name_blocked h.libs.lower m responses hfits hd hlower hroot hone
  have hverdict : isBlocked h.libs h.deps q.name = true := by
    rw [isBlocked_eq, Handler.blockVerdict, if_pos hon, hmanager, hupdate]
    exact hblocked q.name hname
  have hrespond := @respond_decision h query q qs hquestion cache env
  rw [hlisted] at hrespond
  rw [hrespond.1, Handler.resolve, if_pos hverdict]

theorem listed_name_answered_blocked_ads :
    let lists : Blocklist.Manager := { blocklists := [lit "list"] }
    let h := { forwardingHandler with
      blocklistManager := lists.update [some (lit "0.0.0.0 ads.com")] }
    let query := queryFor (lit "Ads.com.") []
    (h.respond none query ⟨0, [], fun _ => none⟩).2 = .own (blockedReply [] query.request
      (baseReply query.request) ⟨lit "Ads.com.", typeA, 1⟩) :=
  listed_name_answered_blocked (q := ⟨lit "Ads.com.", typeA, 1⟩) rfl { blocklists := [lit "list"] }
    [some (lit "0.0.0.0 ads.com")]
    (listsFit_of_length_le (by decide)) rfl rfl (show lit "ads.com." ∈ _ by decide +kernel)
    (by decide +kernel)
    (by decide) (by decide) (Or.inl (by decide)) rfl _ _

/-! ## Policies -/

variable {upper : Nat → Nat} {lang : ExprLang} {ctx : Context} {rule : Rule}

/-- A new rule decides what no other one does, wherever it stands among them. -/
theorem evaluate_insert {t : PolicyTable} {row : PolicyRule}
    {hcheck : checkAction row.action = true} {hunique : row.name ∉ t.rows.map (·.rule.name)}
    (hold : evaluate lang (compiledRules upper lang t) ctx = none)
    (hcompiled : row.spec.compile upper lang = some rule)
    (hmatches : rule.matches lang ctx = true) :
    evaluate lang (compiledRules upper lang (t.insert row hcheck hunique)) ctx = some rule := by
  have hmem : ∀ r, r ∈ compiledRules upper lang (t.insert row hcheck hunique) ↔
      r ∈ compiledRules upper lang t ∨ r = rule := by
    intro r
    simp only [compiledRules, List.mem_filterMap, PolicyTable.mem_getPolicyRules,
      PolicyTable.insert, List.mem_append, List.mem_singleton, or_and_right, exists_or,
      exists_eq_left, hcompiled, Option.some.injEq, eq_comm]
  unfold evaluate at hold ⊢
  rw [List.find?_eq_none] at hold
  cases hfind : (compiledRules upper lang (t.insert row hcheck hunique)).find?
      (·.matches lang ctx) with
  | none =>
    exact absurd hmatches (List.find?_eq_none.mp hfind rule ((hmem rule).mpr (Or.inr rfl)))
  | some r =>
    rcases (hmem r).mp (List.mem_of_find?_eq_some hfind) with hr | rfl
    · exact absurd (List.find?_some hfind) (hold r hr)
    · rfl

theorem engine_of_created {s s' : Api.Server} {body : Option PolicyRequest} {faults : Faults}
    {id : Int} {req : PolicyRequest} {rules : List Rule}
    (hcreated : handleAddPolicy upper lang s body faults = (s', .created id req))
    (hrebuilt : faults.rebuild = false) (hrules : s'.engine = some rules) :
    rules = compiledRules upper lang s'.table := by
  unfold handleAddPolicy at hcreated
  split at hcreated
  · cases hcreated
  · simp only at hcreated
    split at hcreated
    · cases hcreated
    · cases hcreated
      simp only [Api.Server.rebuild, hrebuilt, Bool.false_eq_true, if_false,
        Option.map_eq_some_iff] at hrules
      obtain ⟨-, -, hrules⟩ := hrules
      exact hrules.symm

/-- Once a POST has been answered, the policy it created decides every query that it matches and
that no local record and none of the policies before it decides. -/
theorem created_policy_decides {s s' : Api.Server} {body : Option PolicyRequest}
    {faults : Faults} {id : Int} {req : PolicyRequest}
    (hquestion : query.request.question = q :: qs)
    (hcreated : handleAddPolicy upper h.libs.lang s body faults = (s', .created id req))
    (hrebuilt : faults.rebuild = false) (hrules : s'.engine = some h.rules)
    (hon : h.enablePolicies = true ∧ ¬ h.policiesDisabled = true)
    (hlocal : h.deps.localRecords q.name q.qtype = none)
    (hold : evaluate h.libs.lang (compiledRules upper h.libs.lang s.table)
      (newContext h.libs query q) = none)
    (hcompiled : req.spec.compile upper h.libs.lang = some rule)
    (hmatches : rule.matches h.libs.lang (newContext h.libs query q) = true) :
    h.decision query = .ruled rule := by
  obtain ⟨-, -, hcheck, hunique, htable⟩ := Boot.handleAddPolicy_created hcreated
  have hrule : h.matchedRule query q = some rule := by
    have hdeps : h.deps.enablePolicies = true ∧ ¬ h.deps.policiesDisabled = true := hon
    rw [Handler.matchedRule, matchedRule, if_pos hdeps]
    change evaluate _ h.rules _ = _
    rw [engine_of_created hcreated hrebuilt hrules, htable]
    exact evaluate_insert hold hcompiled hmatches
  simp only [Handler.decision, hquestion, serveLocal_eq (baseReply_answer query.request), hlocal,
    hrule]

def domainLang : ExprLang where
  compiles _ := true
  run logic ctx := some (logic = lit "Domain == \"" ++ ctx.domain ++ lit "\"")

def domainRequest (name logic : String) : PolicyRequest :=
  ⟨lit name, lit logic, lit "BLOCK", [], true⟩

/-- What a POST leaves. -/
def posted (s : Api.Server) (req : PolicyRequest) : Api.Server :=
  (handleAddPolicy id domainLang s (some req) {}).1

def adsServer : Api.Server :=
  posted ⟨PolicyTable.empty, some []⟩ (domainRequest "no ads" "Domain == \"ads.com\"")

/-- A policy that was created after one for another name. -/
theorem created_policy_decides_example :
    let s := posted adsServer (domainRequest "no example" "Domain == \"example.com\"")
    let h := { forwardingHandler with
      libs := { forwardingHandler.libs with lang := domainLang }, rules := s.engine.getD [] }
    h.rules.map (·.name) = [lit "no ads", lit "no example"] ∧
      h.decision (queryFor (lit "example.com.") []) = .ruled exampleRule := by
  refine ⟨rfl, ?_⟩
  have hcreated : handleAddPolicy id domainLang adsServer
      (some (domainRequest "no example" "Domain == \"example.com\"")) {} =
        (posted adsServer (domainRequest "no example" "Domain == \"example.com\""),
          .created 2 (domainRequest "no example" "Domain == \"example.com\"")) := rfl
  exact created_policy_decides (q := ⟨lit "example.com.", typeA, 1⟩) rfl hcreated rfl rfl
    (by decide) rfl (by decide +kernel) rfl (by decide +kernel)

end GloryHole.Dns
