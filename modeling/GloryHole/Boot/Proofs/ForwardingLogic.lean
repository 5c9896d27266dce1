import GloryHole.Boot.Engine
import GloryHole.Policy.Proofs.Reading

/-!
# The expression of a forwarding rule

The text the migration writes for a rule is an expression that is true of the queries the
rule's matchers match, with one difference: what looks like a regular expression is given to
`DomainMatches`, which reads it as a name.
-/

namespace GloryHole.Boot

open Go Policy
open Config (ForwardingRule)
open Support (Connective)

section

variable {lower upper : Nat → Nat} {literal : GoString → Option GoString}
  {printable : Nat → Bool}
  (hquote : ∀ s, validString s = true → literal (quoteBody printable s) = some s)

include hquote

theorem expresses_equals {s : GoString} (hs : validString s = true) :
    Expresses lower upper literal .factor (lit "Domain == " ++ quote printable s) 1
      (fun ctx => ctx.domain == s) :=
  Expresses.equals (closed_quoteBody printable s) (hquote s hs)

theorem expresses_call {before : GoString} (f field : GoString) (x : Context → GoString)
    {values : List GoString} (hvalid : ∀ s ∈ values, validString s = true)
    {holds : Context → Bool}
    (hbefore : Scans before [.word f, .lparen, .word field, .comma])
    (hfield : ∀ ctx, fieldValue ctx field = some (x ctx)) (hne : values ≠ [])
    (hcall : ∀ ctx, callFunction lower upper f (x ctx) values = some (holds ctx)) :
    Expresses lower upper literal .factor
      (before ++ join (lit ", ") (values.map (quote printable)) ++ lit ")") 1 holds := by
  have hbodies : values.map (quote printable) =
      (values.map (quoteBody printable)).map literalText := by
    rw [List.map_map]
    rfl
  rw [hbodies]
  refine Expresses.call hbefore hfield (by simpa using hne) ?_ ?_ hcall
  · rw [List.forall_mem_map]
    exact fun s _ => closed_quoteBody printable s
  · rw [List.forall₂_map_left_iff]
    exact List.forall₂_same.mpr fun s hs => hquote s (hvalid s hs)

/-- A call with one literal. -/
theorem expresses_call_one {before s : GoString} (f field : GoString)
    (x : Context → GoString) {holds : Context → Bool} (hs : validString s = true)
    (hbefore : Scans before [.word f, .lparen, .word field, .comma])
    (hfield : ∀ ctx, fieldValue ctx field = some (x ctx))
    (hcall : ∀ ctx, callFunction lower upper f (x ctx) [s] = some (holds ctx)) :
    Expresses lower upper literal .factor (before ++ quote printable s ++ lit ")") 1 holds :=
  expresses_call hquote f field x (List.forall_mem_singleton.mpr hs) hbefore hfield
    (List.cons_ne_nil _ _) hcall

/-! ## The matchers of a rule -/

omit hquote in
theorem validString_trimPrefix {d : GoString} (hwild : hasPrefix d (lit "*.") = true)
    (hd : validString d = true) : validString (trimPrefix d (lit "*.")) = true := by
  obtain ⟨base, rfl⟩ := List.isPrefixOf_iff_prefix.mp hwild
  have hbase := (validString_cons (by decide) _).symm.trans
    ((validString_cons (by decide) _).symm.trans hd)
  rw [trimPrefix, if_pos hwild]
  simpa using hbase

theorem expresses_domainMatcher {d : GoString} (hd : validString d = true) :
    ∃ n, Expresses lower upper literal .factor (domainMatcher printable d) n
      (fun ctx => kindMatches lower (domainMatches lower) d ctx.domain) := by
  unfold domainMatcher kindMatches
  split
  · rename_i hwild
    have hvalid : validString (trimPrefix d (lit "*.")) = true := validString_trimPrefix hwild hd
    have hbase : Expresses lower upper literal .factor _ _ _ := expresses_equals hquote hvalid
    have hbelow : Expresses lower upper literal .factor
        (lit "DomainEndsWith(Domain, " ++ quote printable (lit "." ++ trimPrefix d (lit "*.")) ++
          lit ")") 1
        (fun ctx => domainEndsWith lower ctx.domain (lit "." ++ trimPrefix d (lit "*."))) :=
      expresses_call_one hquote (lit "DomainEndsWith") (lit "Domain") (·.domain)
        ((validString_cons (by decide) _).trans hvalid) (by decide) (fun _ => rfl) (fun _ => rfl)
    have hfront : lit "(Domain == " = lit "(" ++ lit "Domain == " := rfl
    have hmiddle : lit " || DomainEndsWith(Domain, " =
      opText .or ++ lit "DomainEndsWith(Domain, " := rfl
    have hback : lit "))" = lit ")" ++ lit ")" := rfl
    have heither := ((hbase.lift .or).bin (hbelow.lift .or)).paren
    refine ⟨2, ?_⟩
    simp only [hfront, hmiddle, hback, List.append_assoc] at heither ⊢
    exact heither
  · split
    · exact ⟨1, expresses_call_one hquote (lit "DomainMatches") (lit "Domain") (·.domain) hd
        (by decide) (fun _ => rfl) (fun _ => rfl)⟩
    · exact ⟨1, expresses_equals hquote hd⟩

omit hquote in
theorem expresses_anyOf {α : Type} {text : α → GoString} {holds : α → Context → Bool}
    {parts : List α} (hne : parts ≠ [])
    (h : ∀ p ∈ parts, ∃ n, Expresses lower upper literal .factor (text p) n (holds p)) :
    ∃ n, Expresses lower upper literal .factor (anyOf (parts.map text)) n
      (fun ctx => parts.any (holds · ctx)) := by
  choose! n hn using h
  cases parts with
  | nil => contradiction
  | cons p parts =>
    cases parts with
    | nil =>
      refine ⟨n p, (hn p List.mem_cons_self).congr fun ctx => ?_⟩
      simp
    | cons p' parts =>
      have hjoin := Expresses.join hne fun q hq => (hn q hq).lift .or
      refine ⟨_, hjoin.paren.congr fun ctx => ?_⟩
      rw [quantify, List.any_map]
      rfl

/-- The strings the logic of a rule quotes. -/
def texts (rule : ForwardingRule) : List GoString :=
  rule.domains ++ (rule.clientCIDRs ++ rule.queryTypes)

def matchers (lower upper : Nat → Nat) (printable : Nat → Bool) (rule : ForwardingRule) :
    List (GoString × (Context → Bool)) :=
  (if rule.domains = [] then []
    else [(anyOf (rule.domains.map (domainMatcher printable)), fun ctx =>
      rule.domains.any (kindMatches lower (domainMatches lower) · ctx.domain))]) ++
  (if rule.clientCIDRs = [] then []
    else [(anyOf (rule.clientCIDRs.map fun c =>
      lit "IPInCIDR(ClientIP, " ++ quote printable c ++ lit ")"), fun ctx =>
        rule.clientCIDRs.any (ipInCIDR ctx.clientIP))]) ++
  (if rule.queryTypes = [] then []
    else [(lit "QueryTypeIn(QueryType, " ++
      join (lit ", ") (rule.queryTypes.map (quote printable)) ++ lit ")", fun ctx =>
        queryTypeIn upper ctx.queryType rule.queryTypes)])

omit hquote in
theorem buildPolicyLogic_eq (rule : ForwardingRule) :
    buildPolicyLogicFromCFRule printable rule =
      join (lit " && ") ((matchers lower upper printable rule).map (·.1)) := by
  unfold buildPolicyLogicFromCFRule matchers
  simp only [List.map_append, List.map_eq_nil_iff]
  congr 2
  · congr 1
    · split <;> rfl
    · split <;> rfl
  · split <;> rfl

theorem expresses_matchers {rule : ForwardingRule}
    (htexts : ∀ s ∈ texts rule, validString s = true) :
    ∀ m ∈ matchers lower upper printable rule,
      ∃ n, Expresses lower upper literal .factor m.1 n m.2 := by
  simp only [texts, List.forall_mem_append] at htexts
  obtain ⟨hdomains, hcidrs, htypes⟩ := htexts
  unfold matchers
  rw [List.forall_mem_append, List.forall_mem_append]
  refine ⟨⟨?_, ?_⟩, ?_⟩
  · split
    · simp
    · rename_i hne
      rw [List.forall_mem_singleton]
      exact expresses_anyOf hne fun d hd => expresses_domainMatcher hquote (hdomains d hd)
  · split
    · simp
    · rename_i hne
      rw [List.forall_mem_singleton]
      exact expresses_anyOf hne fun c hc =>
        ⟨1, expresses_call_one hquote (lit "IPInCIDR") (lit "ClientIP") (·.clientIP) (hcidrs c hc)
          (by decide) (fun _ => rfl) (fun _ => rfl)⟩
  · split
    · simp
    · rename_i hne
      rw [List.forall_mem_singleton]
      exact ⟨1, expresses_call hquote (lit "QueryTypeIn") (lit "QueryType") (·.queryType) htypes
        (by decide) (fun _ => rfl) hne (fun _ => rfl)⟩

omit hquote in
theorem all_matchers (rule : ForwardingRule) (ctx : Context) :
    (matchers lower upper printable rule).all (·.2 ctx) =
      appliesTo lower upper (domainMatches lower) rule ctx := by
  have hclause {α : Type} (xs : List α) (m : GoString × (Context → Bool)) :
      (if xs = [] then [] else [m]).all (·.2 ctx) = (xs.isEmpty || m.2 ctx) := by
    cases xs <;> simp
  rw [matchers, List.all_append, List.all_append, hclause, hclause, hclause, appliesTo,
    Bool.and_assoc]

/-- What the migration writes for a rule with matchers. -/
theorem expresses_buildPolicyLogic {rule : ForwardingRule}
    (hmatcher : ¬ (rule.domains = [] ∧ rule.clientCIDRs = [] ∧ rule.queryTypes = []))
    (htexts : ∀ s ∈ texts rule, validString s = true) :
    ∃ n, Expresses lower upper literal (.list .or) (buildPolicyLogicFromCFRule printable rule) n
      (appliesTo lower upper (domainMatches lower) rule) := by
  have hne : matchers lower upper printable rule ≠ [] := by
    unfold matchers
    simp only [ne_eq, List.append_eq_nil_iff, ite_eq_left_iff, List.cons_ne_nil, imp_false,
      not_not]
    exact fun h => hmatcher ⟨h.1.1, h.1.2, h.2⟩
  have hparts := @expresses_matchers lower upper literal printable hquote rule htexts
  choose! n hn using hparts
  have hjoin := Expresses.join hne fun m hm => (hn m hm).lift .and
  rw [@buildPolicyLogic_eq lower upper]
  refine ⟨_, hjoin.top.congr fun ctx => ?_⟩
  rw [quantify, List.all_map, ← @all_matchers lower upper printable]
  rfl

end

end GloryHole.Boot
