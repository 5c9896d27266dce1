import GloryHole.Dns.Handler
import GloryHole.Dns.LocalAnswers
import GloryHole.Support.Runs

/-!
# One query from beginning to end

`ServeDNS` as one call: the local records, the policies, the blocklist, the cache and the
forwarder in their order, and `writeMsg` at the end of every path.  What the forwarder returns is
up to the upstreams.  `exec_serve` says that the call is what the machine of the handler does for
a query no other event comes between.
-/

namespace GloryHole.Dns

open Go Policy
open Support.Runs

/-! ## Writing -/

inductive Transport where
  | udp | tcp | dot | doh
  deriving DecidableEq

def Transport.isUDP : Transport → Bool
  | .udp => true
  | _ => false

structure Codec where
  len : Msg → Nat
  pack : RData → List UInt8

/-- The size `writeMsg` keeps a reply to: that of the reply's own OPT record. -/
def maxSize (msg : Msg) : Nat :=
  match msg.isEdns0 with
  | some opt => opt.udpSize.toNat
  | none => 512

def truncate (msg : Msg) : Msg := { msg with truncated := true, answer := [] }

def writeMsg (len : Msg → Nat) (t : Transport) (msg : Msg) : Msg :=
  if t.isUDP ∧ len msg > maxSize msg then truncate msg else msg

theorem writeMsg_stream {t : Transport} (h : t.isUDP = false) (len : Msg → Nat) (msg : Msg) :
    writeMsg len t msg = msg := by
  simp [writeMsg, h]

/-! ## The call -/

structure Handler where
  libs : Libraries
  codec : Codec
  localRecords : Option LocalRecords.Manager
  rules : List Rule
  enablePolicies : Bool
  policiesDisabled : Bool
  enableBlocklist : Bool
  blocklistDisabled : Bool
  blocklistManager : Option Blocklist.Manager
  legacyBlocklist : List GoString
  hasForwarder : Bool
  blockPageIP : GoString

/-- What a call meets outside the handler: the time, the order in which an eviction would meet the
keys of the cache, and what the forwarder returns (`none` for an error). -/
structure Env where
  now : Int
  order : List GoString
  upstream : Route → Option Msg

/-- The reply of a path, before it is written: built by the handler, stored in the cache, or
received by the forwarder. -/
inductive Reply where
  | own (msg : Msg)
  | cached (stored : Msg)
  | forwarded (resp : Msg)
  deriving DecidableEq

def Reply.msg (r : Msg) : Reply → Msg
  | .own msg => msg
  | .cached stored => handleEDNS0 r { stored with id := r.id }
  | .forwarded resp => resp

abbrev ResponseCache := Option (Cache.Interface Source)

namespace Handler

variable (h : Handler)

def serveLocal (msg : Msg) (q : Question) : Msg × Bool :=
  match h.localRecords with
  | none => (msg, false)
  | some m => serveFromLocalRecords h.libs.lower h.codec.pack m msg q.name q.qtype

def deps : Deps where
  localRecords name qtype :=
    match h.serveLocal {} ⟨name, qtype, 1⟩ with
    | (msg, true) => some msg.answer
    | (_, false) => none
  rules := h.rules
  enablePolicies := h.enablePolicies
  policiesDisabled := h.policiesDisabled
  enableBlocklist := h.enableBlocklist
  blocklistDisabled := h.blocklistDisabled
  blocklistManager := h.blocklistManager
  legacyBlocklist := h.legacyBlocklist
  hasForwarder := h.hasForwarder
  blockPageIP := h.blockPageIP

@[simp] theorem deps_hasForwarder : h.deps.hasForwarder = h.hasForwarder := rfl

@[simp] theorem deps_blockPageIP : h.deps.blockPageIP = h.blockPageIP := rfl

def matchedRule (query : Query) (q : Question) : Option Rule :=
  Dns.matchedRule h.libs h.deps (newContext h.libs query q)

def getCached (cache : ResponseCache) (r : Msg) (now : Int) : ResponseCache × Option Msg :=
  match cache with
  | none => (none, none)
  | some c => (some (c.getWithTrace r now).1, (c.getWithTrace r now).2.map (·.1))

/-- The ends of `handlePolicyAllow`, `handlePolicyForward` and `forwardToUpstream`. -/
def forwarded (cache : ResponseCache) (query : Query) (env : Env) (rule : Option Rule)
    (route : Route) (msg : Msg) : ResponseCache × Reply :=
  match env.upstream route with
  | none => (cache, .own (setRcode msg query.request rcodeServerFailure))
  | some resp =>
    (cache.map fun c =>
        c.set env.order env.now query.request resp (.upstream ⟨query.client, rule, route⟩),
      .forwarded resp)

def resolve (cache : ResponseCache) (query : Query) (env : Env) (rule : Option Rule)
    (q : Question) (msg : Msg) : ResponseCache × Reply :=
  let r := query.request
  if isBlocked h.libs h.deps q.name then
    let msg := blockedReply h.blockPageIP r msg q
    (cache.map fun c => c.setBlocked env.order env.now r msg .blocklist, .own msg)
  else
    match getCached cache r env.now with
    | (cache, some stored) => (cache, .cached stored)
    | (cache, none) =>
      if h.hasForwarder then forwarded cache query env rule .default msg
      else (cache, .own (setRcode msg r rcodeNameError))

/-- `ServeDNS` up to the writing. -/
def respond (cache : ResponseCache) (query : Query) (env : Env) : ResponseCache × Reply :=
  let r := query.request
  let msg := baseReply r
  match r.question with
  | [] => (cache, .own (setRcode msg r rcodeFormatError))
  | q :: _ =>
    match h.serveLocal msg q with
    | (msg, true) => (cache, .own msg)
    | (msg, false) =>
      match h.matchedRule query q with
      | none => h.resolve cache query env none q msg
      | some rule =>
        match handlePolicies h.deps rule r msg q with
        | .answer msg => (cache, .own msg)
        | .forward route => forwarded cache query env (some rule) route msg
        | .goOn => h.resolve cache query env (some rule) q msg

def serveDNS (t : Transport) (cache : ResponseCache) (query : Query) (env : Env) :
    ResponseCache × Msg :=
  let (cache, reply) := h.respond cache query env
  (cache, writeMsg h.codec.len t (reply.msg query.request))

end Handler

/-! ## A small handler -/

def wireLen (msg : Msg) : Nat :=
  let nameLen (name : GoString) : Nat := if name = lit "." then 1 else name.length + 1
  let recordLen (rr : RR) : Nat := nameLen rr.name + 10 + rr.rdata.length
  12 + (msg.question.map fun q => nameLen q.name + 4).sum +
    ((msg.answer ++ msg.ns ++ msg.extra).map recordLen).sum

def forwardingHandler : Handler where
  libs :=
    { lang := { compiles := fun _ => true, run := fun _ _ => none }
      lower := id
      typeToString := fun _ => [] }
  codec := { len := wireLen, pack := fun _ => [] }
  localRecords := none
  rules := []
  enablePolicies := true
  policiesDisabled := false
  enableBlocklist := true
  blocklistDisabled := false
  blocklistManager := none
  legacyBlocklist := []
  hasForwarder := true
  blockPageIP := []

def queryFor (name : GoString) (extra : List RR) : Query where
  client := lit "192.168.1.7"
  request := { id := 7, recursionDesired := true, question := [⟨name, typeA, 1⟩], extra := extra }
  clock := ⟨0, 12, 0, 1, 1, 1⟩

/-! ## The call as a run of the handler's machine -/

theorem baseReply_answer (r : Msg) : (baseReply r).answer = [] := by
  unfold baseReply handleEDNS0
  split <;> rfl

section Exec

variable {h : Handler}

/-- The local records that answer a question, whatever reply they are appended to. -/
theorem serveLocal_eq {msg : Msg} (hmsg : msg.answer = []) (q : Question) :
    h.serveLocal msg q =
      match h.deps.localRecords q.name q.qtype with
      | some records => (msg.append records, true)
      | none => (msg, false) := by
  simp only [Handler.deps, Handler.serveLocal]
  cases h.localRecords with
  | none => rfl
  | some m =>
    obtain ⟨records, happends⟩ :=
      serveFromLocalRecords_appends h.libs.lower h.codec.pack m q.name q.qtype
    simp only [happends msg hmsg, happends {} rfl]
    cases records with
    | nil => simp [Msg.append_nil]
    | cons r records => rfl

variable {s : Server} {id : Nat} {query : Query} {order : List GoString} {resp : Option Msg}

def observed (s : Server) : ResponseCache × List Msg := (s.cache, s.served.map (·.msg))

def afterReply (s : Server) (query : Query) (result : ResponseCache × Reply) :
    ResponseCache × List Msg :=
  (result.1, s.served.map (·.msg) ++ [result.2.msg query.request])

theorem lookup_idle (hpending : s.pending id = none) : step s (.lookup id order) = s := by
  simp only [step, Server.lookup, hpending]

theorem reply_idle (hpending : s.pending id = none) : step s (.reply id resp order) = s := by
  simp only [step, Server.reply, hpending]

/-- The end of a call that waits for its upstream. -/
theorem reply_forwarding {ctx : Context} {rule : Option Rule} {route : Route}
    (hpending : s.pending id = some ⟨query, ctx, rule, .forwarding route⟩) :
    observed (step s (.reply id resp order)) =
      afterReply s query (Handler.forwarded s.cache query ⟨s.now, order, fun _ => resp⟩ rule route
        (baseReply query.request)) := by
  simp only [step, Server.reply, hpending, Handler.forwarded]
  cases resp with
  | none => simp [observed, afterReply, Server.answer, Server.setPending, Reply.msg]
  | some resp =>
    simp [observed, afterReply, Server.answer, Server.setPending, Server.updateCache, Reply.msg]

/-- A query that waits for its upstream does not look into the cache. -/
theorem lookup_forwarding {ctx : Context} {rule : Option Rule} {route : Route}
    (hpending : s.pending id = some ⟨query, ctx, rule, .forwarding route⟩) :
    step s (.lookup id order) = s := by
  simp only [step, Server.lookup, hpending]

theorem serveFromCache_eq (s : Server) (r : Msg) :
    ∃ hit, s.serveFromCache r = ({ s with cache := (Handler.getCached s.cache r s.now).1 }, hit) ∧
      hit.map (·.1) =
        (Handler.getCached s.cache r s.now).2.map fun stored => (Reply.cached stored).msg r := by
  obtain ⟨libs, deps, cache, now, pending, evaluations, served⟩ := s
  cases cache with
  | none => exact ⟨none, rfl, rfl⟩
  | some c =>
    refine ⟨_, rfl, ?_⟩
    simp only [Handler.getCached, Option.map_map]
    rfl

section Lookup

variable {ctx : Context} {rule : Option Rule} {q : Question} {qs : List Question}
  (hlibs : s.libs = h.libs) (hdeps : s.deps = h.deps)
  (hquestion : query.request.question = q :: qs)
  (hpending : s.pending id = some ⟨query, ctx, rule, .evaluated⟩)
include hlibs hdeps hquestion hpending

theorem lookup_blocked (hblock : isBlocked h.libs h.deps q.name = true) :
    step s (.lookup id order) =
      ((s.setPending id none).updateCache (·.setBlocked order s.now query.request
        (blockedReply h.blockPageIP query.request (baseReply query.request) q) .blocklist)).answer
        query ctx rule (blockedReply h.blockPageIP query.request (baseReply query.request) q)
        .blocklist false := by
  simp only [step, Server.lookup, hpending, hquestion, List.headD_cons, Server.setPending, hlibs,
    hdeps, hblock, if_true, Handler.deps_blockPageIP]

/-- The cache after a lookup, with a reply or with a query on its way to the upstreams. -/
theorem lookup_passed (hpass : ¬ isBlocked h.libs h.deps q.name = true) :
    step s (.lookup id order) =
      match (s.setPending id none).serveFromCache query.request with
      | (s, some (msg, source)) => s.answer query ctx rule msg source true
      | (s, none) =>
        if h.hasForwarder then
          s.setPending id (some ⟨query, ctx, rule, .forwarding .default⟩)
        else s.answer query ctx rule
          (setRcode (baseReply query.request) query.request rcodeNameError) .handler false := by
  obtain ⟨hit, hserve, -⟩ := serveFromCache_eq (s.setPending id none) query.request
  have hnot :
      ¬ isBlocked (s.setPending id none).libs (s.setPending id none).deps q.name = true := by
    simpa only [Server.setPending, hlibs, hdeps] using hpass
  simp only [step, Server.lookup, hpending, hquestion, List.headD_cons, if_neg hnot, hserve]
  cases hit with
  | some hit => rfl
  | none => simp only [Server.setPending, hdeps, Handler.deps_hasForwarder]

/-- The part of a call after the policies. -/
theorem lookup_evaluated :
    observed (exec step s [.lookup id order, .reply id resp order]) =
      afterReply s query (h.resolve s.cache query ⟨s.now, order, fun _ => resp⟩ rule q
        (baseReply query.request)) := by
  have hdone : (s.setPending id none).pending id = none := by simp [Server.setPending]
  simp only [exec, Handler.resolve]
  by_cases hblock : isBlocked h.libs h.deps q.name = true
  · rw [lookup_blocked hlibs hdeps hquestion hpending hblock, if_pos hblock]
    rw [reply_idle (by exact hdone)]
    simp [observed, afterReply, Server.answer, Server.updateCache, Server.setPending, Reply.msg]
  · rw [lookup_passed hlibs hdeps hquestion hpending hblock, if_neg hblock]
    obtain ⟨hit, hserve, hhit⟩ := serveFromCache_eq (s.setPending id none) query.request
    have hsame : Handler.getCached (s.setPending id none).cache query.request
        (s.setPending id none).now = Handler.getCached s.cache query.request s.now := rfl
    rw [hsame] at hserve hhit
    rw [hserve]
    cases hcached : Handler.getCached s.cache query.request s.now with
    | mk cache' stored =>
      rw [hcached] at hhit
      cases stored with
      | some stored =>
        obtain ⟨⟨msg, source⟩, rfl, hmsg⟩ := Option.map_eq_some_iff.mp hhit
        simp only
        rw [reply_idle (by exact hdone)]
        obtain rfl : msg = (Reply.cached stored).msg query.request := hmsg
        simp [observed, afterReply, Server.answer, Server.setPending]
      | none =>
        obtain rfl : hit = none := by simpa using hhit
        simp only
        split
        · rw [@reply_forwarding _ id query order resp ctx rule .default (by
            simp [Server.setPending])]
          rfl
        · rw [reply_idle (by exact hdone)]
          simp [observed, afterReply, Server.answer, Server.setPending, Reply.msg]

end Lookup

/-- A query that is answered on arrival. -/
theorem exec_answered {s' : Server} (hpending : s'.pending id = none) (hcache : s'.cache = s.cache)
    (hserved : s'.served = s.served) (ctx : Context) (rule : Option Rule) (msg : Msg) :
    observed (exec step (s'.answer query ctx rule msg .handler false)
      [.lookup id order, .reply id resp order]) = afterReply s query (s.cache, .own msg) := by
  simp only [exec]
  rw [lookup_idle (by exact hpending), reply_idle (by exact hpending)]
  simp [observed, afterReply, Server.answer, Reply.msg, hcache, hserved]

/-- A call of `ServeDNS` is a query of the machine that nothing comes between. -/
theorem exec_serve (hlibs : s.libs = h.libs) (hdeps : s.deps = h.deps)
    (hpending : s.pending id = none) :
    observed (exec step s [.arrive id query, .lookup id order, .reply id resp order]) =
      afterReply s query (h.respond s.cache query ⟨s.now, order, fun _ => resp⟩) := by
  rw [exec_cons]
  simp only [step, Server.arrive, Handler.respond]
  cases hquestion : query.request.question with
  | nil => exact exec_answered hpending rfl rfl _ _ _
  | cons q qs =>
    simp only [serveLocal_eq (baseReply_answer query.request), hdeps]
    cases hrecords : h.deps.localRecords q.name q.qtype with
    | some records => exact exec_answered hpending rfl rfl _ _ _
    | none =>
      simp only [Handler.matchedRule, hlibs]
      cases hrule : matchedRule h.libs h.deps (newContext h.libs query q) with
      | none =>
        simp only
        rw [lookup_evaluated (h := h) rfl rfl hquestion (by
          simp only [Server.setPending, Function.update_self]
          rfl)]
        rfl
      | some rule =>
        simp only
        cases handlePolicies h.deps rule query.request (baseReply query.request) q with
        | answer msg =>
          apply exec_answered
          · exact hpending
          · rfl
          · rfl
        | forward route =>
          simp only [exec]
          rw [lookup_forwarding (by
            simp only [Server.setPending, Function.update_self]
            rfl), reply_forwarding (by
            simp only [Server.setPending, Function.update_self]
            rfl)]
          rfl
        | goOn =>
          simp only
          rw [lookup_evaluated (h := h) rfl rfl hquestion (by
            simp only [Server.setPending, Function.update_self]
            rfl)]
          rfl

theorem exec_serve_forwarded :
    let s : Server :=
      ⟨forwardingHandler.libs, forwardingHandler.deps, none, 0, fun _ => none, [], []⟩
    let query := queryFor (lit "example.com.") []
    observed (exec step s [.arrive 0 query, .lookup 0 [], .reply 0 none []]) =
      afterReply s query (forwardingHandler.respond none query ⟨0, [], fun _ => none⟩) :=
  exec_serve rfl rfl rfl

end Exec

end GloryHole.Dns
