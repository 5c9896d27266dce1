import GloryHole.Blocklist.Proofs.Blocking
import GloryHole.Dns.Serve
import GloryHole.LocalRecords.Proofs.Spelling

/-!
# The decision about a name in another spelling

`ServeDNS` decides a query by the data of a local record, by a policy rule or by the verdict of
the blocklist.  The local records and the blocklist manager lower-case the name themselves.  The
expressions of the rules see it as it was asked for, and so does the legacy blocklist.
-/

namespace GloryHole.Dns

open Go Policy
open Blocklist (MatchResult)

/-! ## The decision -/

def RR.data (rr : RR) : UInt16 × UInt16 × UInt32 × List UInt8 :=
  (rr.rrtype, rr.rrclass, rr.ttl, rr.rdata)

inductive Decided where
  | malformed
  | answered (data : List (UInt16 × UInt16 × UInt32 × List UInt8))
  | ruled (rule : Rule)
  | listed (verdict : MatchResult)
  deriving DecidableEq

namespace Handler

variable (h : Handler)

def listsOn : Bool := h.enableBlocklist && !h.blocklistDisabled

def blockVerdict (domain : GoString) : MatchResult :=
  if h.listsOn then
    match h.blocklistManager with
    | some m => m.matchDomain h.libs.lower domain
    | none => { blocked := domain ∈ h.legacyBlocklist }
  else {}

def decision (query : Query) : Decided :=
  match query.request.question with
  | [] => .malformed
  | q :: _ =>
    match h.serveLocal (baseReply query.request) q with
    | (msg, true) => .answered (msg.answer.map (·.data))
    | (_, false) =>
      match h.matchedRule query q with
      | some rule => .ruled rule
      | none => .listed (h.blockVerdict q.name)

end Handler

variable {h : Handler} {query : Query}

theorem isBlocked_eq (h : Handler) (domain : GoString) :
    isBlocked h.libs h.deps domain = (h.blockVerdict domain).blocked := by
  have hon : (h.deps.enableBlocklist = true ∧ ¬ h.deps.blocklistDisabled = true) ↔
      h.listsOn = true := by
    simp [Handler.listsOn, Handler.deps]
  simp only [isBlocked, Handler.blockVerdict, hon]
  split
  · cases hmanager : h.blocklistManager <;> simp [Handler.deps, hmanager]
  · rfl

/-- The decision is what `ServeDNS` acts on. -/
theorem respond_decision {q : Question} {qs : List Question}
    (hquestion : query.request.question = q :: qs) (cache : ResponseCache) (env : Env) :
    match h.decision query with
    | .malformed => False
    | .answered data =>
      ∃ msg, h.respond cache query env = (cache, .own msg) ∧ msg.answer.map (·.data) = data
    | .ruled rule =>
      h.respond cache query env =
        match handlePolicies h.deps rule query.request (baseReply query.request) q with
        | .answer msg => (cache, .own msg)
        | .forward route =>
          Handler.forwarded cache query env (some rule) route (baseReply query.request)
        | .goOn => h.resolve cache query env (some rule) q (baseReply query.request)
    | .listed verdict =>
      h.respond cache query env = h.resolve cache query env none q (baseReply query.request) ∧
        isBlocked h.libs h.deps q.name = verdict.blocked := by
  simp only [Handler.decision, Handler.respond, hquestion,
    serveLocal_eq (baseReply_answer query.request)]
  cases h.deps.localRecords q.name q.qtype with
  | some records => exact ⟨_, rfl, rfl⟩
  | none =>
    cases h.matchedRule query q with
    | some rule => rfl
    | none => exact ⟨rfl, isBlocked_eq h q.name⟩

/-! ## Local records -/

def SameData (x y : Msg × Bool) : Prop :=
  x.2 = y.2 ∧ x.1.answer.map RR.data = y.1.answer.map RR.data

section LocalData

variable {msg msg' : Msg} (hmsg : msg.answer.map RR.data = msg'.answer.map RR.data)
include hmsg

theorem append_sameData {records records' : List RR}
    (hrecords : records.map RR.data = records'.map RR.data) :
    (msg.append records).answer.map RR.data = (msg'.append records').answer.map RR.data := by
  simp only [Msg.append, List.map_append, hmsg, hrecords]

theorem appendAddresses_sameData {records records' : UInt32 → List IP → List RR}
    (hrecords : ∀ ttl ips, (records ttl ips).map RR.data = (records' ttl ips).map RR.data)
    (found : Option (List IP × UInt32)) :
    SameData (appendAddresses records found msg) (appendAddresses records' found msg') := by
  cases found with
  | none => exact ⟨rfl, hmsg⟩
  | some found =>
    have hdata := append_sameData hmsg (hrecords found.2 found.1)
    have hempty : (msg.append (records found.2 found.1)).answer = [] ↔
        (msg'.append (records' found.2 found.1)).answer = [] := by
      rw [← List.map_eq_nil_iff, hdata, List.map_eq_nil_iff]
    exact ⟨decide_eq_decide.mpr (not_congr hempty), hdata⟩

theorem appendData_sameData (pack : RData → List UInt8) (qtype : UInt16)
    (data : LocalRecords.LocalRecord → RData) (found : List LocalRecords.LocalRecord)
    (s t : GoString) :
    SameData (appendData pack qtype data found msg s)
      (appendData pack qtype data found msg' t) := by
  unfold appendData
  split
  · exact ⟨rfl, hmsg⟩
  · refine ⟨rfl, append_sameData hmsg ?_⟩
    simp only [List.map_map]
    rfl

end LocalData

theorem unlessServed_sameData {first first' : Msg × Bool} {second second' : Msg → Msg × Bool}
    (hfirst : SameData first first')
    (hsecond : ∀ msg msg' : Msg, msg.answer.map RR.data = msg'.answer.map RR.data →
      SameData (second msg) (second' msg')) :
    SameData (unlessServed first second) (unlessServed first' second') := by
  unfold unlessServed
  rw [← hfirst.1]
  split
  · exact hfirst
  · exact hsecond _ _ hfirst.2

theorem ite_sameData {c : Prop} [Decidable c] {x x' y y' : Msg × Bool} (hx : SameData x x')
    (hy : SameData y y') : SameData (if c then x else y) (if c then x' else y') := by
  by_cases hc : c
  · rwa [if_pos hc, if_pos hc]
  · rwa [if_neg hc, if_neg hc]

theorem aRecords_data (s t : GoString) (ttl : UInt32) (ips : List IP) :
    (aRecords s ttl ips).map RR.data = (aRecords t ttl ips).map RR.data := by
  simp only [aRecords, List.map_filterMap, Option.map_map]
  rfl

theorem aaaaRecords_data (s t : GoString) (ttl : UInt32) (ips : List IP) :
    (aaaaRecords s ttl ips).map RR.data = (aaaaRecords t ttl ips).map RR.data := by
  simp only [aaaaRecords, List.map_filterMap, apply_ite (Option.map RR.data), Option.map_none,
    Option.map_some]
  rfl

theorem serveFromLocalRecords_sameData (lower : Nat → Nat) (pack : RData → List UInt8)
    (m : LocalRecords.Manager) {s t : GoString} (hspelling : SameSpelling s t) {msg msg' : Msg}
    (hmsg : msg.answer.map RR.data = msg'.answer.map RR.data) (qtype : UInt16) :
    SameData (serveFromLocalRecords lower pack m msg s qtype)
      (serveFromLocalRecords lower pack m msg' t qtype) := by
  have hsame := @LocalRecords.Manager.sameLookups_of_sameSpelling lower m s t hspelling
  unfold serveFromLocalRecords
  apply ite_sameData
  · rw [appendLocalARecords, LocalRecords.Manager.lookupA, hsame.addresses]
    apply unlessServed_sameData (appendAddresses_sameData hmsg (aRecords_data s t) _)
    intro msg msg' hmsg
    rw [resolveLocalCNAMEAsA, hsame.resolved]
    exact appendAddresses_sameData hmsg (aRecords_data s t) _
  apply ite_sameData
  · rw [appendLocalAAAARecords, LocalRecords.Manager.lookupAAAA, hsame.addresses]
    apply unlessServed_sameData (appendAddresses_sameData hmsg (aaaaRecords_data s t) _)
    intro msg msg' hmsg
    rw [resolveLocalCNAMEAsAAAA, hsame.resolved]
    exact appendAddresses_sameData hmsg (aaaaRecords_data s t) _
  apply ite_sameData
  · rw [hsame.cname]
    cases m.lookupCNAME lower t with
    | none => exact ⟨rfl, hmsg⟩
    | some found => exact ⟨rfl, append_sameData hmsg rfl⟩
  rw [LocalRecords.Manager.lookupTXT, LocalRecords.Manager.lookupPTR,
    LocalRecords.Manager.lookupNS, LocalRecords.Manager.lookupSOA, LocalRecords.Manager.lookupCAA,
    hsame.sorted.1, hsame.sorted.2]
  rw [hsame.collected, hsame.collected, hsame.collected, hsame.collected, hsame.collected]
  -- The remaining types differ in the data they take from the records.
  iterate 7
    apply ite_sameData
    · exact appendData_sameData hmsg pack _ _ _ s t
  exact ⟨rfl, hmsg⟩

theorem serveLocal_sameData (h : Handler) {q q' : Question}
    (hspelling : SameSpelling q.name q'.name) (htype : q.qtype = q'.qtype) {msg msg' : Msg}
    (hmsg : msg.answer = []) (hmsg' : msg'.answer = []) :
    SameData (h.serveLocal msg q) (h.serveLocal msg' q') := by
  have hdata : msg.answer.map RR.data = msg'.answer.map RR.data := by rw [hmsg, hmsg']
  unfold Handler.serveLocal
  cases h.localRecords with
  | none => exact ⟨rfl, hdata⟩
  | some m =>
    simp only [htype]
    exact serveFromLocalRecords_sameData _ _ m hspelling hdata q'.qtype

/-! ## Rules -/

/-- Every rule that tells the two contexts apart comes after one that is true of both. -/
def RulesAgree (lang : ExprLang) (rules : List Rule) (ctx ctx' : Context) : Prop :=
  ∀ before rule after, rules = before ++ rule :: after →
    rule.matches lang ctx ≠ rule.matches lang ctx' →
      ∃ earlier ∈ before, earlier.matches lang ctx = true ∧ earlier.matches lang ctx' = true

section Rules

variable {lang : ExprLang} {ctx ctx' : Context} {rule : Rule} {rules : List Rule}

theorem rulesAgree_cons :
    RulesAgree lang (rule :: rules) ctx ctx' ↔
      rule.matches lang ctx = rule.matches lang ctx' ∧
        (rule.matches lang ctx = true ∨ RulesAgree lang rules ctx ctx') := by
  constructor
  · intro hagree
    have hsame : rule.matches lang ctx = rule.matches lang ctx' := by
      by_contra hne
      obtain ⟨_, hmem, -⟩ := hagree [] rule rules rfl hne
      cases hmem
    refine ⟨hsame, ?_⟩
    by_cases htrue : rule.matches lang ctx = true
    · exact Or.inl htrue
    · right
      intro before rule' after hrules hne
      obtain ⟨earlier, hmem, hboth⟩ :=
        hagree (rule :: before) rule' after (by rw [hrules, List.cons_append]) hne
      rcases List.mem_cons.mp hmem with rfl | hmem
      · exact absurd hboth.1 htrue
      · exact ⟨earlier, hmem, hboth⟩
  · rintro ⟨hsame, hrest⟩ before rule' after hrules hne
    cases before with
    | nil =>
      obtain ⟨rfl, -⟩ := List.cons.inj hrules
      exact absurd hsame hne
    | cons first before =>
      obtain ⟨rfl, htail⟩ := List.cons.inj hrules
      rcases hrest with htrue | hagree
      · exact ⟨rule, List.mem_cons_self, htrue, hsame ▸ htrue⟩
      · obtain ⟨earlier, hmem, hboth⟩ := hagree before rule' after htail hne
        exact ⟨earlier, List.mem_cons_of_mem _ hmem, hboth⟩

/-- The engine answers two contexts with one rule, or with none, exactly when no rule tells them
apart before one decides both. -/
theorem evaluate_eq_iff :
    evaluate lang rules ctx = evaluate lang rules ctx' ↔ RulesAgree lang rules ctx ctx' := by
  induction rules with
  | nil =>
    refine iff_of_true rfl ?_
    intro before rule after hrules
    cases before <;> cases hrules
  | cons rule rules ih =>
    rw [rulesAgree_cons, ← ih]
    unfold evaluate
    cases hctx : rule.matches lang ctx <;> cases hctx' : rule.matches lang ctx'
    · simp [hctx, hctx']
    · -- The other context cannot be decided by the same rule further down.
      have hne : ¬ rules.find? (·.matches lang ctx) = some rule := by
        intro hfind
        have htrue := List.find?_some hfind
        simp [hctx] at htrue
      simpa [List.find?_cons, hctx, hctx'] using hne
    · have hne : ¬ some rule = rules.find? (·.matches lang ctx') := by
        intro hfind
        have htrue := List.find?_some hfind.symm
        simp [hctx'] at htrue
      simpa [List.find?_cons, hctx, hctx'] using hne
    · simp [hctx, hctx']

end Rules

/-! ## The two spellings -/

def Query.asking (query : Query) (q : Question) : Query :=
  { query with
    request := { query.request with question := q :: query.request.question.tail } }

theorem matchDomain_eq_of_sameSpelling (lower : Nat → Nat) (m : Blocklist.Manager)
    {s t : GoString} (h : SameSpelling s t) : m.matchDomain lower s = m.matchDomain lower t := by
  simp only [Blocklist.Manager.matchDomain, Blocklist.eq_nil_of_sameSpelling h,
    Blocklist.queryName_eq_of_sameSpelling lower h]

def Handler.ListsAgree (h : Handler) (s t : GoString) : Prop :=
  h.listsOn = true → h.blocklistManager = none →
    (s ∈ h.legacyBlocklist ↔ t ∈ h.legacyBlocklist)

theorem blockVerdict_eq_iff {s t : GoString} (hspelling : SameSpelling s t) :
    h.blockVerdict s = h.blockVerdict t ↔ h.ListsAgree s t := by
  unfold Handler.blockVerdict Handler.ListsAgree
  by_cases hon : h.listsOn = true
  · rw [if_pos hon, if_pos hon]
    cases h.blocklistManager with
    | none => simp [hon]
    | some m => simp [matchDomain_eq_of_sameSpelling _ m hspelling]
  · simp [hon]

/-- A local record answers the name; or no rule tells the spellings apart before one decides both,
and, where no rule decides, neither does the legacy list. -/
def Handler.CaseBlind (h : Handler) (query : Query) (q q' : Question) : Prop :=
  (h.serveLocal (baseReply (query.asking q).request) q).2 = true ∨
    (h.enablePolicies = true → h.policiesDisabled = false →
      RulesAgree h.libs.lang h.rules (newContext h.libs (query.asking q) q)
        (newContext h.libs (query.asking q') q')) ∧
    (h.matchedRule (query.asking q) q ≠ none ∨ h.ListsAgree q.name q'.name)

theorem matchedRule_eq_iff {q q' : Question} :
    h.matchedRule (query.asking q) q = h.matchedRule (query.asking q') q' ↔
      (h.enablePolicies = true → h.policiesDisabled = false →
        RulesAgree h.libs.lang h.rules (newContext h.libs (query.asking q) q)
          (newContext h.libs (query.asking q') q')) := by
  have hdeps : h.deps.enablePolicies = h.enablePolicies ∧
      h.deps.policiesDisabled = h.policiesDisabled ∧ h.deps.rules = h.rules := ⟨rfl, rfl, rfl⟩
  simp only [Handler.matchedRule, matchedRule, hdeps]
  by_cases hon : h.enablePolicies = true ∧ ¬ h.policiesDisabled = true
  · rw [if_pos hon, if_pos hon, evaluate_eq_iff]
    have hoff : h.policiesDisabled = false := by simpa using hon.2
    simp [hon.1, hoff]
  · rw [if_neg hon, if_neg hon]
    refine iff_of_true rfl ?_
    intro henabled hrunning
    exact absurd ⟨henabled, by simp [hrunning]⟩ hon

/-- Two spellings of a name get the same decision exactly when neither the rules nor the legacy
blocklist tell them apart. -/
theorem decision_caseBlind_iff (h : Handler) (query : Query) {q q' : Question}
    (hspelling : SameSpelling q.name q'.name) (htype : q.qtype = q'.qtype) :
    h.decision (query.asking q) = h.decision (query.asking q') ↔ h.CaseBlind query q q' := by
  have hdata := serveLocal_sameData h hspelling htype
    (baseReply_answer (query.asking q).request) (baseReply_answer (query.asking q').request)
  have hquestion (q : Question) :
      (query.asking q).request.question = q :: query.request.question.tail := rfl
  simp only [Handler.decision, hquestion, Handler.CaseBlind]
  cases hlocal : h.serveLocal (baseReply (query.asking q).request) q with
  | mk msg served =>
    cases hlocal' : h.serveLocal (baseReply (query.asking q').request) q' with
    | mk msg' served' =>
      rw [hlocal, hlocal'] at hdata
      obtain ⟨hserved, hanswer⟩ := hdata
      obtain rfl : served = served' := hserved
      cases served with
      | true => simpa using hanswer
      | false =>
        simp only [Bool.false_eq_true, false_or]
        rw [← matchedRule_eq_iff, ← blockVerdict_eq_iff hspelling]
        cases h.matchedRule (query.asking q) q with
        | some rule | none =>
          cases h.matchedRule (query.asking q') q' <;> simp

def exampleRule : Rule :=
  { name := lit "no example", logic := lit "Domain == \"example.com\"", action := .actionBlock,
    actionData := [], enabled := true }

def exampleHandler : Handler :=
  { forwardingHandler with
    libs := { forwardingHandler.libs with
      lang :=
        { compiles := fun _ => true
          run := fun _ ctx => some (ctx.domain = lit "example.com") } }
    rules := [exampleRule] }

theorem decision_caseBlind_iff_org :
    exampleHandler.decision ((queryFor [] []).asking ⟨lit "example.org.", typeA, 1⟩) =
        exampleHandler.decision ((queryFor [] []).asking ⟨lit "EXAMPLE.org.", typeA, 1⟩) ↔
      exampleHandler.CaseBlind (queryFor [] []) ⟨lit "example.org.", typeA, 1⟩
        ⟨lit "EXAMPLE.org.", typeA, 1⟩ :=
  decision_caseBlind_iff exampleHandler (queryFor [] []) (by decide) rfl

/-- The rule blocks one spelling of the name; the other one reaches the blocklist, which does not
have it. -/
theorem decision_case_sensitive :
    SameSpelling (lit "example.com.") (lit "Example.com.") ∧
      exampleHandler.decision ((queryFor [] []).asking ⟨lit "example.com.", typeA, 1⟩) =
        .ruled exampleRule ∧
      exampleHandler.decision ((queryFor [] []).asking ⟨lit "Example.com.", typeA, 1⟩) =
        .listed {} := by
  decide +kernel

end GloryHole.Dns
