import GloryHole.Dns.Serve

/-!
# Replies the handler builds and replies it passes on

A reply the handler builds is `baseReply` with another header or other answers: the additional
section keeps what `HandleEDNS0` has put there, and nothing sets the TC bit.  `PassedOn` says when
a message comes out of the cache or from an upstream instead, by what the records, the rules, the
lists, the cache and the upstreams have for the query.
-/

namespace GloryHole.Dns

open Go Policy

structure OwnReply (r msg : Msg) : Prop where
  question : msg.question = (baseReply r).question
  ns : msg.ns = []
  extra : msg.extra = (baseReply r).extra
  truncated : msg.truncated = false

theorem baseReply_question (r : Msg) : (baseReply r).question = r.question.take 1 := by
  unfold baseReply handleEDNS0
  split <;> rfl

theorem baseReply_own (r : Msg) : OwnReply r (baseReply r) := by
  refine ⟨rfl, ?_, rfl, ?_⟩ <;>
  · unfold baseReply handleEDNS0
    split <;> rfl

namespace OwnReply

variable {r msg : Msg}

theorem setRcode (h : OwnReply r msg) (rcode : Nat) : OwnReply r (setRcode msg r rcode) := by
  refine ⟨?_, h.ns, h.extra, h.truncated⟩
  have hquestion : (Dns.setRcode msg r rcode).question =
      if r.question = [] then msg.question else r.question.take 1 := rfl
  rw [hquestion, h.question, baseReply_question, ite_self]

theorem append (h : OwnReply r msg) (records : List RR) : OwnReply r (msg.append records) :=
  ⟨h.question, h.ns, h.extra, h.truncated⟩

theorem addAddress (h : OwnReply r msg) (domain : GoString) (qtype : UInt16) (ip : IP)
    (ttl : UInt32) : OwnReply r (addAddress msg domain qtype ip ttl) := by
  unfold Dns.addAddress
  split
  · exact h.append _
  split
  · exact h.append _
  · exact h

theorem blockedReply (h : OwnReply r msg) (blockPageIP : GoString) (q : Question) :
    OwnReply r (blockedReply blockPageIP r msg q) := by
  simp only [Dns.blockedReply]
  split
  · exact h.setRcode _
  split
  · exact h.setRcode _
  split
  · exact h.addAddress _ _ _ _
  · exact h.setRcode _

theorem redirectReply (h : OwnReply r msg) (rule : Rule) (q : Question) :
    OwnReply r (redirectReply rule r msg q) := by
  unfold Dns.redirectReply
  split
  · exact h.setRcode _
  · exact h.addAddress _ _ _ _

end OwnReply

/-! ## The paths of `ServeDNS` -/

/-- Where a rule sends the query, if it does not answer it. -/
def ruleRoute (hasForwarder : Bool) (rule : Rule) : Option Route :=
  match hasForwarder, rule.action with
  | true, .actionAllow => some .default
  | true, .actionForward =>
    if rule.getUpstreams = [] then none else some (.upstreams rule.getUpstreams)
  | _, _ => none

/-- Neither a local record nor a rule nor the blocklist has an answer to the question. -/
structure Handler.Undecided (h : Handler) (query : Query) (q : Question) : Prop where
  unlisted : h.deps.localRecords q.name q.qtype = none
  unruled : h.matchedRule query q = none
  unblocked : isBlocked h.libs h.deps q.name = false

/-- The query gets a message that the handler has not built: the one the cache has for it; that of
the upstreams, if the cache has none; or that of the upstreams its rule sends it to. -/
inductive PassedOn (h : Handler) (cache : ResponseCache) (query : Query) (env : Env) :
    Reply → Prop where
  | stored (q : Question) (qs : List Question) (msg : Msg)
      (hquestion : query.request.question = q :: qs) (hundecided : h.Undecided query q)
      (hhit : (Handler.getCached cache query.request env.now).2 = some msg) :
      PassedOn h cache query env (.cached msg)
  | asked (q : Question) (qs : List Question) (resp : Msg)
      (hquestion : query.request.question = q :: qs) (hundecided : h.Undecided query q)
      (hmiss : (Handler.getCached cache query.request env.now).2 = none)
      (hforwarder : h.hasForwarder = true) (hresp : env.upstream .default = some resp) :
      PassedOn h cache query env (.forwarded resp)
  | ruled (q : Question) (qs : List Question) (rule : Rule) (route : Route) (resp : Msg)
      (hquestion : query.request.question = q :: qs)
      (hunlisted : h.deps.localRecords q.name q.qtype = none)
      (hrule : h.matchedRule query q = some rule)
      (hroute : ruleRoute h.hasForwarder rule = some route)
      (hresp : env.upstream route = some resp) : PassedOn h cache query env (.forwarded resp)

/-- A rule answers the query itself or sends it somewhere. -/
theorem handlePolicies_cases {r msg : Msg} (hmsg : OwnReply r msg) (deps : Deps) (rule : Rule)
    (q : Question) :
    (∃ reply, handlePolicies deps rule r msg q = .answer reply ∧ OwnReply r reply ∧
        ruleRoute deps.hasForwarder rule = none) ∨
      ∃ route, handlePolicies deps rule r msg q = .forward route ∧
        ruleRoute deps.hasForwarder rule = some route := by
  unfold handlePolicies ruleRoute
  cases rule.action with
  | actionBlock => exact Or.inl ⟨_, rfl, hmsg.blockedReply _ _, by split <;> simp_all⟩
  | actionRedirect => exact Or.inl ⟨_, rfl, hmsg.redirectReply _ _, by split <;> simp_all⟩
  | actionAllow =>
    cases deps.hasForwarder with
    | false => exact Or.inl ⟨_, rfl, hmsg.setRcode _, rfl⟩
    | true => exact Or.inr ⟨_, rfl, rfl⟩
  | actionForward =>
    by_cases hnone : rule.getUpstreams = []
    · refine Or.inl ⟨_, if_pos (Or.inl hnone), hmsg.setRcode _, ?_⟩
      cases deps.hasForwarder <;> simp [hnone]
    · cases deps.hasForwarder with
      | false => exact Or.inl ⟨_, if_pos (Or.inr (by simp)), hmsg.setRcode _, rfl⟩
      | true => exact Or.inr ⟨_, if_neg (by simp [hnone]), by simp [hnone]⟩

section

variable {h : Handler} {cache : ResponseCache} {query : Query} {env : Env}

def Reply.Kept (h : Handler) (cache : ResponseCache) (query : Query) (env : Env) : Reply → Prop
  | .own msg => OwnReply query.request msg
  | reply => PassedOn h cache query env reply

theorem resolve_kept {q : Question} {qs : List Question} {msg : Msg}
    (hmsg : OwnReply query.request msg) (hquestion : query.request.question = q :: qs)
    (hunlisted : h.deps.localRecords q.name q.qtype = none)
    (hunruled : h.matchedRule query q = none) :
    (h.resolve cache query env none q msg).2.Kept h cache query env := by
  simp only [Handler.resolve]
  split
  · exact hmsg.blockedReply _ _
  next hpass =>
    have hundecided : h.Undecided query q := ⟨hunlisted, hunruled, by simpa using hpass⟩
    split
    next hhit => exact .stored q qs _ hquestion hundecided (by rw [hhit])
    next hmiss =>
      split
      next hforwarder =>
        unfold Handler.forwarded
        split
        · exact hmsg.setRcode _
        next resp hresp =>
          exact .asked q qs resp hquestion hundecided (by rw [hmiss]) hforwarder hresp
      · exact hmsg.setRcode _

theorem respond_kept (h : Handler) (cache : ResponseCache) (query : Query) (env : Env) :
    (h.respond cache query env).2.Kept h cache query env := by
  have hbase := baseReply_own query.request
  simp only [Handler.respond]
  cases hquestion : query.request.question with
  | nil => exact hbase.setRcode _
  | cons q qs =>
    simp only [serveLocal_eq (baseReply_answer query.request)]
    cases hrecords : h.deps.localRecords q.name q.qtype with
    | some records => exact hbase.append records
    | none =>
      cases hrule : h.matchedRule query q with
      | none => exact resolve_kept hbase hquestion hrecords hrule
      | some rule =>
        simp only
        rcases handlePolicies_cases hbase h.deps rule q with ⟨reply, heq, hown, -⟩ |
          ⟨route, heq, hroute⟩
        · rw [heq]
          exact hown
        · rw [heq]
          simp only [Handler.forwarded]
          split
          · exact hbase.setRcode _
          next resp hresp => exact .ruled q qs rule route resp hquestion hrecords hrule hroute hresp

/-- A message that is passed on is the reply. -/
theorem PassedOn.respond {reply : Reply} (hpassed : PassedOn h cache query env reply) :
    (h.respond cache query env).2 = reply := by
  have hbase := baseReply_own query.request
  rcases hfound : Handler.getCached cache query.request env.now with ⟨cache', found⟩
  cases hpassed with
  | stored q qs msg hquestion hundecided hhit =>
    rw [hfound] at hhit
    obtain rfl := hhit
    simp only [Handler.respond, hquestion, serveLocal_eq (baseReply_answer query.request),
      hundecided.unlisted, hundecided.unruled, Handler.resolve, hundecided.unblocked,
      Bool.false_eq_true, if_false, hfound]
  | asked q qs resp hquestion hundecided hmiss hforwarder hresp =>
    rw [hfound] at hmiss
    obtain rfl := hmiss
    simp only [Handler.respond, hquestion, serveLocal_eq (baseReply_answer query.request),
      hundecided.unlisted, hundecided.unruled, Handler.resolve, hundecided.unblocked,
      Bool.false_eq_true, if_false, hfound, hforwarder, if_true, Handler.forwarded, hresp]
  | ruled q qs rule route resp hquestion hunlisted hrule hroute hresp =>
    simp only [Handler.respond, hquestion, serveLocal_eq (baseReply_answer query.request),
      hunlisted, hrule]
    rcases handlePolicies_cases hbase h.deps rule q with ⟨reply, heq, -, hnone⟩ |
      ⟨route', heq, hroute'⟩
    · cases hnone.symm.trans hroute
    · cases hroute'.symm.trans hroute
      simp only [heq, Handler.forwarded, hresp]

/-- What is needed of the messages that are passed on is what is needed of the reply. -/
theorem forall_passedOn_iff {P : Reply → Prop}
    (hown : ∀ msg, OwnReply query.request msg → P (.own msg)) :
    (∀ reply, PassedOn h cache query env reply → P reply) ↔ P (h.respond cache query env).2 := by
  have hkept := respond_kept h cache query env
  constructor
  · intro hall
    cases hreply : (h.respond cache query env).2 with
    | own msg =>
      rw [hreply] at hkept
      exact hown msg hkept
    | cached stored | forwarded resp =>
      rw [hreply] at hkept
      exact hall _ hkept
  · intro hreply reply hpassed
    rw [← hpassed.respond]
    exact hreply

end

end GloryHole.Dns
