import GloryHole.Dns.Proofs.OwnReplies
import GloryHole.Dns.Resolver

/-!
# Replies over a stream

`writeMsg` leaves a reply over TCP, TLS or HTTPS as it is, so the TC bit it carries is the one of
the message that was built, stored or received.  The handler never sets it, but the forwarder asks
over UDP and hands on what it gets, and the cache keeps that for every transport.
-/

namespace GloryHole.Dns

open Go Policy Support.Runs
open Forwarder (Attempt)

/-! ## What is true of every message -/

section Messages

/-- The messages in the cache satisfy `K`, and what was served satisfies `V`. -/
structure Watched (K : Msg → Prop) (V : Served → Prop) (s : Server) : Prop where
  cached : ∀ c ∈ s.cache, c.Holds fun _ msg _ => K msg
  served : ∀ v ∈ s.served, V v

variable {K : Msg → Prop} {V : Served → Prop} {s : Server}

theorem Watched.answer (h : Watched K V s) {query : Query} {ctx : Context} {rule : Option Rule}
    {msg : Msg} {source : Source} {cached : Bool}
    (hserved : V ⟨query, ctx, rule, msg, source, cached⟩) :
    Watched K V (s.answer query ctx rule msg source cached) := by
  refine ⟨h.cached, ?_⟩
  intro v hv
  rcases List.mem_append.mp hv with hv | hv
  · exact h.served v hv
  · obtain rfl := List.mem_singleton.mp hv
    exact hserved

theorem Watched.updateCache (h : Watched K V s)
    {f : Cache.Interface Source → Cache.Interface Source}
    (hf : ∀ c : Cache.Interface Source, c.Holds (fun _ msg _ => K msg) →
      (f c).Holds fun _ msg _ => K msg) : Watched K V (s.updateCache f) := by
  refine ⟨?_, h.served⟩
  intro c hc
  obtain ⟨c', hc', rfl⟩ := Option.map_eq_some_iff.mp hc
  exact hf c' (h.cached c' hc')

theorem Watched.setPending (h : Watched K V s) (id : Nat) (p : Option Pending) :
    Watched K V (s.setPending id p) :=
  ⟨h.cached, h.served⟩

variable (hown : ∀ query ctx rule msg source, OwnReply query.request msg →
    V ⟨query, ctx, rule, msg, source, false⟩)

include hown

theorem Watched.arrive (h : Watched K V s) (id : Nat) (query : Query) :
    Watched K V (s.arrive id query) := by
  have hbase := baseReply_own query.request
  simp only [Server.arrive]
  split
  · exact h.answer (hown _ _ _ _ _ (hbase.setRcode _))
  · split
    · exact h.answer (hown _ _ _ _ _ (hbase.append _))
    · have hrecord (e : Query × Option Rule) :
          Watched K V { s with evaluations := s.evaluations ++ [e] } := ⟨h.cached, h.served⟩
      split
      · rename_i hdecision
        split at hdecision
        · cases hdecision
        · rcases handlePolicies_cases hbase s.deps _ _ with ⟨reply, heq, hreply, -⟩ | ⟨_, heq, -⟩
          · cases hdecision.symm.trans heq
            exact (hrecord _).answer (hown _ _ _ _ _ hreply)
          · cases hdecision.symm.trans heq
      · exact (hrecord _).setPending ..
      · exact (hrecord _).setPending ..

variable (hblocked : ∀ blockPageIP r q, K (blockedReply blockPageIP r (baseReply r) q))
  (hreplay : ∀ query ctx rule msg source, K msg →
    V ⟨query, ctx, rule, handleEDNS0 query.request { msg with id := query.request.id }, source,
      true⟩)

omit hown in
include hreplay in
theorem Watched.serveFromCache (h : Watched K V s) (query : Query) (ctx : Context)
    (rule : Option Rule) :
    Watched K V (s.serveFromCache query.request).1 ∧
      ∀ msg source, (s.serveFromCache query.request).2 = some (msg, source) →
        V ⟨query, ctx, rule, msg, source, true⟩ := by
  unfold Server.serveFromCache
  cases hcache : s.cache with
  | none => exact ⟨h, fun _ _ hhit => by cases hhit⟩
  | some c =>
    have hget := (h.cached c hcache).getWithTrace query.request s.now
    refine ⟨⟨?_, h.served⟩, ?_⟩
    · intro c' hc'
      cases hc'
      exact hget.1
    · intro msg source hhit
      obtain ⟨⟨stored, source'⟩, hstored, heq⟩ := Option.map_eq_some_iff.mp hhit
      cases heq
      exact hreplay _ _ _ stored _ (hget.2 stored _ hstored)

include hblocked hreplay in
theorem Watched.lookup (h : Watched K V s) (id : Nat) (order : List GoString) :
    Watched K V (s.lookup id order) := by
  simp only [Server.lookup]
  split
  · rename_i query ctx rule hpending
    have hbase := baseReply_own query.request
    have hclear := h.setPending id none
    split
    · apply Watched.answer _ (hown _ _ _ _ _ (hbase.blockedReply _ _))
      apply hclear.updateCache
      intro c hc
      exact hc.setBlocked order _ (hblocked _ _ _)
    · have hserve := hclear.serveFromCache hreplay query ctx rule
      split
      · rename_i s' msg source hhit
        rw [hhit] at hserve
        exact hserve.1.answer (hserve.2 msg source rfl)
      · rename_i s' hmiss
        rw [hmiss] at hserve
        split
        · exact hserve.1.setPending ..
        · exact hserve.1.answer (hown _ _ _ _ _ (hbase.setRcode _))
  · exact h

/-- The end of a forwarded query, by what it stores and what it serves. -/
theorem Watched.reply (h : Watched K V s) (id : Nat) {resp : Option Msg} (order : List GoString)
    (hresp : ∀ m ∈ resp, (∀ c ∈ s.cache, 0 < Cache.determineTTL c.cfg m → K m) ∧
      ∀ query ctx rule source, V ⟨query, ctx, rule, m, source, false⟩) :
    Watched K V (s.reply id resp order) := by
  simp only [Server.reply]
  split
  · cases resp with
    | none =>
      exact (h.setPending id none).answer (hown _ _ _ _ _ ((baseReply_own _).setRcode _))
    | some m =>
      obtain ⟨hstored, hserved⟩ := hresp m rfl
      apply Watched.answer _ (hserved _ _ _ _)
      refine ⟨?_, h.served⟩
      intro c' hc'
      obtain ⟨c, hc, rfl⟩ := Option.map_eq_some_iff.mp hc'
      exact (h.cached c hc).set order s.now (hstored c hc)
  · exact h

include hblocked hreplay in
/-- A step of the handler and its forwarder, by what the upstreams deliver. -/
theorem Watched.resolverStep {s : Resolver} (h : Watched K V s.server) (e : ResolverEvent)
    (hdelivers : ∀ id env order, e = .forward id env order → ∀ i upstream m,
      (env i).Delivers s.fwd.servfailTCPRetry upstream m →
        (∀ c ∈ s.server.cache, 0 < Cache.determineTTL c.cfg m → K m) ∧
          ∀ query ctx rule source, V ⟨query, ctx, rule, m, source, false⟩) :
    Watched K V (s.step e).server := by
  cases e with
  | arrive id query => exact h.arrive hown id query
  | lookup id order => exact h.lookup hown hblocked hreplay id order
  | forward id env order =>
    show Watched K V (s.forward id env order).server
    unfold Resolver.forward
    split
    · rename_i route hpending
      have hnow (now : Int) : Watched K V { s.server with now := now } := ⟨h.cached, h.served⟩
      apply (hnow _).reply hown id order
      intro m hm
      obtain ⟨i, upstream, hm⟩ := ask_delivers hm
      exact hdelivers id env order rfl i upstream m hm
    · exact h
  | pass _ | reconfigure _ _ => exact ⟨h.cached, h.served⟩
  | cleanup => exact h.updateCache fun _ hc => hc.cleanup _
  | clear => exact h.updateCache fun c _ => Cache.Interface.clear_holds c

omit hown

theorem boot_watched (libs : Libraries) (deps : Deps)
    (cache : Option GloryHole.Config.CacheConfig) (now : Int) :
    Watched K V (boot libs deps cache now) := by
  refine ⟨?_, fun _ hv => absurd hv List.not_mem_nil⟩
  intro c hc
  obtain ⟨cfg, -, hnew⟩ := Option.bind_eq_some_iff.mp hc
  exact Cache.new_holds hnew

end Messages

/-! ## The TC bit -/

def Untruncated (_ : Resolver) : ResolverEvent → Prop
  | .forward _ env _ => ∀ i m, (env i).Sends m → m.truncated = false
  | _ => True

theorem handleEDNS0_truncated (r msg : Msg) :
    (handleEDNS0 r msg).truncated = msg.truncated := by
  unfold handleEDNS0
  split <;> rfl

theorem resolver_step_untruncated (s : Resolver) (e : ResolverEvent) (he : Untruncated s e)
    (h : Watched (·.truncated = false) (·.msg.truncated = false) s.server) :
    Watched (·.truncated = false) (·.msg.truncated = false) (s.step e).server := by
  apply h.resolverStep
  · intro query ctx rule msg source hmsg
    exact hmsg.truncated
  · intro blockPageIP r q
    exact ((baseReply_own r).blockedReply blockPageIP q).truncated
  · intro query ctx rule msg source hmsg
    exact (handleEDNS0_truncated _ _).trans hmsg
  · rintro id env order rfl i upstream m hm
    have hclear := he i m hm.sends
    exact ⟨fun _ _ _ => hclear, fun _ _ _ _ => hclear⟩

/-- As long as no upstream answers with the TC bit, no reply over a stream has it. -/
theorem stream_replies_complete (libs : Libraries) (deps : Deps) (cfg : GloryHole.Config.Config)
    (cache : Option GloryHole.Config.CacheConfig) (now : Int) (events : List ResolverEvent)
    (hrun : AllSteps Resolver.step Untruncated (Resolver.boot libs deps cfg cache now) events)
    (len : Msg → Nat) :
    ∀ s ∈ states Resolver.step (Resolver.boot libs deps cfg cache now) events,
      ∀ v ∈ s.server.served, ∀ t : Transport, t.isUDP = false →
        (writeMsg len t v.msg).truncated = false := by
  intro s hs v hv t ht
  have hall := invariant_states resolver_step_untruncated hrun
    (boot_watched libs deps cache now) s hs
  rw [writeMsg_stream ht]
  exact hall.served v hv

/-! ## A truncated answer and the retry over TCP -/

def answeredBy (m : Msg) : Nat → Attempt :=
  fun _ => { cancelled := none, udp := fun _ => .resp m, took := 0, tcp := fun _ => .nilResp,
             tcpTook := 0 }

def retryRun (m : Msg) : List ResolverEvent :=
  let query := queryFor (lit "example.com.") []
  [.arrive 0 query, .lookup 0 [], .forward 0 (answeredBy m) [], .pass 1000000000,
    .arrive 1 query, .lookup 1 []]

def exampleResolver : Resolver :=
  Resolver.boot forwardingHandler.libs forwardingHandler.deps {}
    (some { enabled := true, maxEntries := 100, negativeTTL := 60 * Cache.second }) 0

theorem stream_replies_complete_retry :
    (states Resolver.step exampleResolver (retryRun {})).Forall fun s => ∀ v ∈ s.server.served,
      ∀ t : Transport, t.isUDP = false → (writeMsg wireLen t v.msg).truncated = false := by
  apply List.forall_iff_forall_mem.mpr
  apply stream_replies_complete
  refine ⟨trivial, trivial, ?_, trivial, trivial, trivial, trivial⟩
  rintro i m ⟨upstream, hudp | htcp⟩
  · cases hudp
    rfl
  · cases htcp

/-- The upstream's answer is truncated; the client retries over TCP and gets the same message out
of the cache. -/
theorem retry_over_tcp_truncated :
    (exec Resolver.step exampleResolver
        (retryRun { response := true, truncated := true })).server.served.map
          (fun v => (v.cached, (writeMsg wireLen .tcp v.msg).truncated)) =
      [(false, true), (true, true)] := by
  decide +kernel

end GloryHole.Dns
