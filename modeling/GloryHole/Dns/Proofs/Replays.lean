import GloryHole.Dns.Proofs.StreamReplies

/-!
# What the cache replays

`forwardToUpstream` stores every answer the forwarder returns, and the cache asks for nothing but a
positive lifetime.  What later clients get is complete and NOERROR or NXDOMAIN if what the upstreams
deliver is: neither the TC bit nor the code is looked at on the way.
-/

namespace GloryHole.Dns

open Go Policy Support.Runs
open Forwarder (Attempt)

def Cacheable (m : Msg) : Prop :=
  m.truncated = false ∧ (m.rcode = rcodeSuccess ∨ m.rcode = rcodeNameError)

instance (m : Msg) : Decidable (Cacheable m) := inferInstanceAs (Decidable (_ ∧ _))

/-- The cache holds cacheable messages only, and so was everything served from it. -/
def CleanCache : Server → Prop := Watched Cacheable fun v => v.cached = true → Cacheable v.msg

/-- With a cache, the upstreams deliver cacheable messages only, or failures without answers that
the configured lifetime keeps out of the cache. -/
def DeliversCacheable (s : Resolver) : ResolverEvent → Prop
  | .forward _ env _ => ∀ c ∈ s.server.cache, ∀ i upstream m,
      (env i).Delivers s.fwd.servfailTCPRetry upstream m →
        Cacheable m ∨ m.answer = [] ∧ c.cfg.negativeTTL ≤ 0
  | _ => True

/-! ## The handler's own messages -/

theorem baseReply_rcode (r : Msg) : (baseReply r).rcode = rcodeSuccess := by
  unfold baseReply handleEDNS0
  split <;> rfl

theorem addAddress_rcode (msg : Msg) (domain : GoString) (qtype : UInt16) (ip : IP)
    (ttl : UInt32) : (addAddress msg domain qtype ip ttl).rcode = msg.rcode := by
  unfold addAddress
  split
  · rfl
  · split <;> rfl

/-- The reply to a blocked query, which `SetBlocked` stores. -/
theorem blockedReply_cacheable (blockPageIP : GoString) (r : Msg) (q : Question) :
    Cacheable (blockedReply blockPageIP r (baseReply r) q) := by
  refine ⟨((baseReply_own r).blockedReply blockPageIP q).truncated, ?_⟩
  unfold blockedReply
  dsimp only
  split
  · exact .inr rfl
  · split
    · exact .inr rfl
    · split
      · left
        rw [addAddress_rcode, baseReply_rcode]
      · exact .inr rfl

theorem Cacheable.replay {m : Msg} (h : Cacheable m) (r : Msg) :
    Cacheable (handleEDNS0 r { m with id := r.id }) := by
  unfold handleEDNS0
  split <;> exact h

/-! ## Runs -/

theorem resolver_step_clean (s : Resolver) (e : ResolverEvent) (he : DeliversCacheable s e)
    (h : CleanCache s.server) : CleanCache (s.step e).server := by
  have hfresh {m : Msg} (hcached : false = true) : Cacheable m :=
    absurd hcached Bool.false_ne_true
  refine Watched.resolverStep ?_ ?_ ?_ h e ?_
  · intro query ctx rule msg source _
    exact hfresh
  · exact blockedReply_cacheable
  · intro query ctx rule msg source hmsg _
    exact hmsg.replay query.request
  · rintro id env order rfl i upstream m hm
    refine ⟨fun c hc hkept => ?_, fun _ _ _ _ => hfresh⟩
    rcases he c hc i upstream m hm with hm | ⟨hnone, hnegative⟩
    · exact hm
    · rw [Cache.determineTTL, if_pos (Or.inr hnone)] at hkept
      exact absurd hkept (Int.not_lt.mpr hnegative)

/-- In every run in which the upstreams deliver cacheable answers, the cache keeps and replays such
answers only. -/
theorem only_cacheable_replayed (libs : Libraries) (deps : Deps) (cfg : GloryHole.Config.Config)
    (cache : Option GloryHole.Config.CacheConfig) (now : Int) (events : List ResolverEvent)
    (hrun : AllSteps Resolver.step DeliversCacheable (Resolver.boot libs deps cfg cache now)
      events) :
    ∀ s ∈ states Resolver.step (Resolver.boot libs deps cfg cache now) events,
      CleanCache s.server :=
  invariant_states resolver_step_clean hrun (boot_watched libs deps cache now)

def completeAnswer : Msg :=
  { response := true, answer := [⟨lit "example.com.", typeA, 1, 300, [192, 0, 2, 1]⟩] }

def cachingResolver : Resolver :=
  Resolver.boot forwardingHandler.libs forwardingHandler.deps {}
    (some { enabled := true, maxEntries := 100, minTTL := 60 * Cache.second,
            maxTTL := 86400 * Cache.second, negativeTTL := 300 * Cache.second }) 0

def laterClientRun (m : Msg) : List ResolverEvent :=
  let query := queryFor (lit "example.com.") []
  [.arrive 0 query, .lookup 0 [], .forward 0 (answeredBy m) [], .pass 1000000000,
    .arrive 1 { query with client := lit "192.168.1.8" }, .lookup 1 []]

theorem complete_answer_replayed :
    (∀ s ∈ states Resolver.step cachingResolver (laterClientRun completeAnswer),
      CleanCache s.server) ∧
    (exec Resolver.step cachingResolver (laterClientRun completeAnswer)).server.served.map
      (·.cached) = [false, true] := by
  refine ⟨only_cacheable_replayed _ _ _ _ _ _ ?_, by decide +kernel⟩
  refine ⟨trivial, trivial, ?_, trivial, trivial, trivial, trivial⟩
  rintro c - i upstream m (⟨hudp, -⟩ | ⟨-, htcp⟩)
  · cases hudp
    exact Or.inl (by decide)
  · cases htcp

/-- A failure, a refusal and a truncated answer are stored and served to the next client. -/
theorem transient_answers_replayed :
    [{ response := true, rcode := rcodeServerFailure }, { response := true, rcode := rcodeRefused },
        { completeAnswer with truncated := true }].Forall fun m =>
      ¬ Cacheable m ∧
      (exec Resolver.step cachingResolver (laterClientRun m)).server.served.map
        (fun v => (v.query.client, v.cached, v.msg.rcode, v.msg.truncated)) =
        [(lit "192.168.1.7", false, m.rcode, m.truncated),
          (lit "192.168.1.8", true, m.rcode, m.truncated)] := by
  decide +kernel

end GloryHole.Dns
