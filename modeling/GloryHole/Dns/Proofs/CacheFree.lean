import GloryHole.Dns.Serve

/-!
# Answers that never meet the cache

A query that a local record answers, or a rule that blocks or redirects, is answered before
`ServeDNS` comes to the cache: the reply is the same whatever the cache holds, and the cache is
left as it was.
-/

namespace GloryHole.Dns

open Go Policy

variable {h : Handler} {query : Query}

def Handler.AnswersFresh (h : Handler) (query : Query) : Prop :=
  ∃ q ∈ query.request.question.head?,
    (h.serveLocal (baseReply query.request) q).2 = true ∨
      ∃ rule ∈ h.matchedRule query q,
        rule.action = .actionBlock ∨ rule.action = .actionRedirect

theorem handlePolicies_answers {rule : Rule}
    (hrule : rule.action = .actionBlock ∨ rule.action = .actionRedirect) (deps : Deps)
    (r msg : Msg) (q : Question) : ∃ reply, handlePolicies deps rule r msg q = .answer reply := by
  rcases hrule with hrule | hrule
  · exact ⟨blockedReply deps.blockPageIP r msg q, by simp only [handlePolicies, hrule]⟩
  · exact ⟨redirectReply rule r msg q, by simp only [handlePolicies, hrule]⟩

/-- The handler builds the reply itself, and no branch has touched the cache before. -/
theorem respond_fresh (hfresh : h.AnswersFresh query) :
    ∃ msg, ∀ cache env, h.respond cache query env = (cache, .own msg) := by
  obtain ⟨q, hq, hpath⟩ := hfresh
  obtain ⟨qs, hquestion⟩ : ∃ qs, query.request.question = q :: qs := by
    cases hlist : query.request.question with
    | nil => simp [hlist] at hq
    | cons q' qs =>
      rw [hlist, List.head?_cons, Option.mem_some_iff] at hq
      exact ⟨qs, by rw [hq]⟩
  simp only [Handler.respond, hquestion]
  cases hlocal : h.serveLocal (baseReply query.request) q with
  | mk msg served =>
    cases served with
    | true => exact ⟨msg, fun _ _ => rfl⟩
    | false =>
      rcases hpath with hserved | ⟨rule, hrule, haction⟩
      · simp [hlocal] at hserved
      · obtain ⟨reply, hreply⟩ :=
          handlePolicies_answers haction h.deps query.request msg q
        rw [Option.mem_def] at hrule
        refine ⟨reply, ?_⟩
        intro cache env
        simp only [hrule, hreply]

/-- Local and policy answers neither depend on the cache nor change it. -/
theorem serveDNS_fresh (hfresh : h.AnswersFresh query) (t : Transport)
    (cache cache' : ResponseCache) (env : Env) :
    (h.serveDNS t cache query env).2 = (h.serveDNS t cache' query env).2 ∧
      (h.serveDNS t cache query env).1 = cache := by
  obtain ⟨msg, hrespond⟩ := respond_fresh hfresh
  simp only [Handler.serveDNS, hrespond, and_self]

def homeHandler : Handler :=
  let nas : LocalRecords.LocalRecord :=
    { domain := lit "nas.home.", type := .a, ips := [v4InV6Head ++ [10, 0, 0, 2]], ttl := 300 }
  { forwardingHandler with localRecords := some ⟨[(lit "nas.home.", [nas])], []⟩ }

theorem serveDNS_fresh_nas :
    (homeHandler.serveDNS .udp none (queryFor (lit "nas.home.") []) ⟨0, [], fun _ => none⟩).2 =
        (homeHandler.serveDNS .udp (some (.plain { enabled := true } ⟨[], 10⟩))
          (queryFor (lit "nas.home.") []) ⟨0, [], fun _ => none⟩).2 ∧
      (homeHandler.serveDNS .udp none (queryFor (lit "nas.home.") [])
        ⟨0, [], fun _ => none⟩).1 = none :=
  serveDNS_fresh ⟨⟨lit "nas.home.", typeA, 1⟩, rfl, Or.inl (by decide +kernel)⟩ .udp none
    (some (.plain { enabled := true } ⟨[], 10⟩)) ⟨0, [], fun _ => none⟩

end GloryHole.Dns
