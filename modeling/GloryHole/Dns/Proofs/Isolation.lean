import GloryHole.Dns.Proofs.OwnReplies
import GloryHole.Support.Runs

/-!
# Policy routing and the cache

A query that a rule matches is never looked up in the cache, but the answer fetched for
it is stored there under a key that names neither the client nor the rule.  A query that
no rule matches and that has the same key is served that answer.  Without such a pair
of queries every answer comes from the upstreams its own query selects.
-/

namespace GloryHole.Dns

open Go Policy Support.Runs

/-! ## Isolation -/

def routeOf : Option Rule → Route
  | none => .default
  | some rule =>
    match rule.action with
    | .actionForward => .upstreams rule.getUpstreams
    | _ => .default

/-- The answer, if it is an upstream's, was fetched from the upstreams the query itself
selects, and not through a rule that does not match the query. -/
def Isolated (lang : ExprLang) (v : Served) : Prop :=
  ∀ fetch, v.source = .upstream fetch →
    fetch.route = routeOf v.rule ∧
      ∀ rule, fetch.rule = some rule → rule.matches lang v.context = true

def Fetches (rule : Rule) : Prop := rule.action = .actionAllow ∨ rule.action = .actionForward

/-- A query about to look into the cache shares its key with no query that an ALLOW or
FORWARD rule has matched. -/
def Unshared (s : Server) : Event → Prop
  | .lookup id _ =>
    ∀ p, s.pending id = some p → ∀ e ∈ s.evaluations, ∀ rule, e.2 = some rule →
      Fetches rule → Cache.makeMsgKey e.1.request ≠ Cache.makeMsgKey p.query.request
  | _ => True

/-! ## The invariant -/

/-- Every upstream answer in the cache was fetched by default, or through a rule for a
query with its key. -/
def Known (evaluations : List (Query × Option Rule)) (key : GoString) (_ : Msg)
    (source : Source) : Prop :=
  ∀ fetch, source = .upstream fetch →
    (fetch.rule = none → fetch.route = .default) ∧
      ∀ rule, fetch.rule = some rule → Fetches rule ∧
        ∃ query, (query, some rule) ∈ evaluations ∧ Cache.makeMsgKey query.request = key

/-- A query that waits for an upstream waits for the one its rule selects; one that has
still to look into the cache has no rule. -/
def PendingOk (lang : ExprLang) (evaluations : List (Query × Option Rule)) (p : Pending) :
    Prop :=
  match p.phase with
  | .evaluated => p.rule = none
  | .forwarding route =>
    route = routeOf p.rule ∧
      ∀ rule, p.rule = some rule →
        Fetches rule ∧ (p.query, some rule) ∈ evaluations ∧
          rule.matches lang p.context = true

structure Inv (s : Server) : Prop where
  cacheKnown : ∀ c, s.cache = some c → c.Holds (Known s.evaluations)
  pendingOk : ∀ id p, s.pending id = some p → PendingOk s.libs.lang s.evaluations p
  servedOk : ∀ v ∈ s.served, Isolated s.libs.lang v

theorem Known.mono {evs evs' : List (Query × Option Rule)} (hsub : ∀ e ∈ evs, e ∈ evs')
    {key : GoString} {m : Msg} {source : Source} (h : Known evs key m source) :
    Known evs' key m source := by
  intro fetch hfetch
  obtain ⟨hdefault, hrule⟩ := h fetch hfetch
  refine ⟨hdefault, fun rule hr => ?_⟩
  obtain ⟨hf, query, hmem, hkey⟩ := hrule rule hr
  exact ⟨hf, query, hsub _ hmem, hkey⟩

theorem PendingOk.mono {lang : ExprLang} {evs evs' : List (Query × Option Rule)}
    (hsub : ∀ e ∈ evs, e ∈ evs') {p : Pending} (h : PendingOk lang evs p) :
    PendingOk lang evs' p := by
  obtain ⟨query, ctx, rule, phase⟩ := p
  cases phase with
  | evaluated => exact h
  | forwarding route =>
    refine ⟨h.1, fun rule hr => ?_⟩
    obtain ⟨hf, hmem, hmatch⟩ := h.2 rule hr
    exact ⟨hf, hsub _ hmem, hmatch⟩

namespace Inv

variable {s : Server}

theorem record (h : Inv s) (e : Query × Option Rule) :
    Inv { s with evaluations := s.evaluations ++ [e] } := by
  have hsub : ∀ e' ∈ s.evaluations, e' ∈ s.evaluations ++ [e] :=
    fun e' he' => List.mem_append_left _ he'
  refine ⟨?_, ?_, h.servedOk⟩
  · intro c hc shard hshard entry hentry
    exact (h.cacheKnown c hc shard hshard entry hentry).mono hsub
  · intro id p hp
    exact (h.pendingOk id p hp).mono hsub

theorem answer (h : Inv s) {query : Query} {ctx : Context} {rule : Option Rule} {msg : Msg}
    {source : Source} {cached : Bool}
    (hiso : Isolated s.libs.lang ⟨query, ctx, rule, msg, source, cached⟩) :
    Inv (s.answer query ctx rule msg source cached) := by
  refine ⟨h.cacheKnown, h.pendingOk, ?_⟩
  intro v hv
  rcases List.mem_append.mp hv with hv | hv
  · exact h.servedOk v hv
  · obtain rfl := List.mem_singleton.mp hv
    exact hiso

/-- What the handler answers by itself is no upstream's answer. -/
theorem answer_handler (h : Inv s) (query : Query) (ctx : Context) (rule : Option Rule)
    (msg : Msg) (cached : Bool) : Inv (s.answer query ctx rule msg .handler cached) :=
  h.answer fun _ hfetch => Source.noConfusion hfetch

theorem setPending (h : Inv s) (id : Nat) {p : Option Pending}
    (hp : ∀ q, p = some q → PendingOk s.libs.lang s.evaluations q) :
    Inv (s.setPending id p) := by
  refine ⟨h.cacheKnown, ?_, h.servedOk⟩
  intro id' q hq
  by_cases heq : id' = id
  · subst heq
    simp only [Server.setPending, Function.update_self] at hq
    exact hp q hq
  · simp only [Server.setPending, Function.update_of_ne heq] at hq
    exact h.pendingOk id' q hq

theorem updateCache (h : Inv s) {f : Cache.Interface Source → Cache.Interface Source}
    (hf : ∀ c : Cache.Interface Source, c.Holds (Known s.evaluations) →
      (f c).Holds (Known s.evaluations)) : Inv (s.updateCache f) := by
  refine ⟨?_, h.pendingOk, h.servedOk⟩
  intro c hc
  obtain ⟨c', hc', rfl⟩ := Option.map_eq_some_iff.mp hc
  exact hf c' (h.cacheKnown c' hc')

end Inv

/-! ## One step -/

theorem ruleRoute_eq_some {hasForwarder : Bool} {rule : Rule} {route : Route}
    (h : ruleRoute hasForwarder rule = some route) :
    Fetches rule ∧ route = routeOf (some rule) := by
  unfold ruleRoute at h
  split at h
  · rename_i haction
    cases h
    exact ⟨Or.inl haction, by simp [routeOf, haction]⟩
  · rename_i haction
    split at h
    · cases h
    · cases h
      exact ⟨Or.inr haction, by simp [routeOf, haction]⟩
  · cases h

theorem matchedRule_matches {libs : Libraries} {deps : Deps} {ctx : Context} {rule : Rule}
    (h : matchedRule libs deps ctx = some rule) : rule.matches libs.lang ctx = true := by
  unfold matchedRule at h
  split at h
  · exact evaluate_matches h
  · cases h

theorem arrive_inv {s : Server} (h : Inv s) (id : Nat) (query : Query) :
    Inv (s.arrive id query) := by
  simp only [Server.arrive]
  split
  · exact h.answer_handler ..
  · rename_i q rest hquestion
    split
    · exact h.answer_handler ..
    · generalize hctx : newContext s.libs query q = ctx
      cases hrule : matchedRule s.libs s.deps ctx with
      | none =>
        refine (h.record (query, none)).setPending id ?_
        intro p hp
        cases hp
        rfl
      | some rule =>
        have hrec := h.record (query, some rule)
        simp only
        rcases handlePolicies_cases (baseReply_own query.request) s.deps rule q with
          ⟨msg, hdecision, -⟩ | ⟨route, hdecision, hroute⟩
        · rw [hdecision]
          exact hrec.answer_handler ..
        · obtain ⟨hfetches, hroute⟩ := ruleRoute_eq_some hroute
          rw [hdecision]
          refine hrec.setPending id ?_
          intro p hp
          cases hp
          refine ⟨hroute, fun rule' hr => ?_⟩
          cases hr
          exact ⟨hfetches, by simp, matchedRule_matches hrule⟩

/-- Under `Unshared` a hit was not fetched through a rule, and so by default. -/
theorem serveFromCache_isolated {s : Server} (h : Inv s) {r : Msg} {msg : Msg} {source : Source}
    (hfree : ∀ e ∈ s.evaluations, ∀ rule, e.2 = some rule → Fetches rule →
      Cache.makeMsgKey e.1.request ≠ Cache.makeMsgKey r)
    (hhit : (s.serveFromCache r).2 = some (msg, source)) (query : Query) (ctx : Context) :
    Isolated s.libs.lang ⟨query, ctx, none, msg, source, true⟩ := by
  unfold Server.serveFromCache at hhit
  cases hcache : s.cache with
  | none => simp [hcache] at hhit
  | some c =>
    simp only [hcache, Option.map_eq_some_iff] at hhit
    obtain ⟨⟨m, source'⟩, hget, heq⟩ := hhit
    obtain ⟨-, rfl⟩ := Prod.mk.inj heq
    have hknown := (h.cacheKnown c hcache).getWithTrace r s.now |>.2 m source' hget
    intro fetch hfetch
    obtain ⟨hdefault, hrule⟩ := hknown fetch hfetch
    have hnone : fetch.rule = none := by
      cases hr : fetch.rule with
      | none => rfl
      | some rule =>
        obtain ⟨hf, query', hmem, hkey⟩ := hrule rule hr
        exact absurd hkey (hfree _ hmem rule rfl hf)
    refine ⟨hdefault hnone, fun rule hr => ?_⟩
    rw [hnone] at hr
    cases hr

theorem serveFromCache_inv {s : Server} (h : Inv s) (r : Msg) :
    Inv (s.serveFromCache r).1 := by
  unfold Server.serveFromCache
  cases hcache : s.cache with
  | none => exact h
  | some c =>
    refine ⟨?_, h.pendingOk, h.servedOk⟩
    intro c' hc'
    cases hc'
    exact ((h.cacheKnown c hcache).getWithTrace r s.now).1

theorem serveFromCache_libs (s : Server) (r : Msg) :
    (s.serveFromCache r).1.libs = s.libs := by
  unfold Server.serveFromCache
  split <;> rfl

theorem lookup_inv {s : Server} (h : Inv s) (id : Nat) (order : List GoString)
    (hfree : Unshared s (.lookup id order)) : Inv (s.lookup id order) := by
  simp only [Server.lookup]
  split
  · rename_i query ctx rule hpending
    have hrule : rule = none := h.pendingOk id _ hpending
    subst hrule
    have hclear : Inv (s.setPending id none) := h.setPending id fun _ hq => by cases hq
    split
    · refine Inv.answer (hclear.updateCache ?_) fun _ hfetch => Source.noConfusion hfetch
      intro c hc
      exact hc.setBlocked order _ fun _ hfetch => Source.noConfusion hfetch
    · have hserve := serveFromCache_inv hclear query.request
      split
      · rename_i s' msg source hhit
        have hiso := serveFromCache_isolated hclear
          (hfree _ hpending) (congrArg Prod.snd hhit) query ctx
        have hlibs := serveFromCache_libs (s.setPending id none) query.request
        rw [hhit] at hserve hlibs
        refine hserve.answer ?_
        rw [hlibs]
        exact hiso
      · rename_i s' hmiss
        rw [hmiss] at hserve
        split
        · refine hserve.setPending id ?_
          intro p hp
          cases hp
          exact ⟨rfl, fun rule hr => by cases hr⟩
        · exact hserve.answer_handler ..
  · exact h

theorem reply_inv {s : Server} (h : Inv s) (id : Nat) (resp : Option Msg)
    (order : List GoString) : Inv (s.reply id resp order) := by
  simp only [Server.reply]
  split
  · rename_i query ctx rule route hpending
    obtain ⟨hroute, hrule⟩ := h.pendingOk id _ hpending
    have hclear : Inv (s.setPending id none) := h.setPending id fun _ hq => by cases hq
    cases resp with
    | none => exact hclear.answer_handler ..
    | some resp =>
      refine Inv.answer (hclear.updateCache ?_) ?_
      · -- the stored answer carries the rule of its own query
        intro c hc
        refine hc.set order _ ?_
        intro _ fetch hfetch
        cases hfetch
        refine ⟨?_, fun rule' hr => ?_⟩
        · rintro rfl
          exact hroute
        · obtain ⟨hf, hmem, -⟩ := hrule rule' hr
          exact ⟨hf, query, hmem, rfl⟩
      · intro fetch hfetch
        cases hfetch
        exact ⟨hroute, fun rule' hr => (hrule rule' hr).2.2⟩
  · exact h

theorem step_inv (s : Server) (e : Event) (hfree : Unshared s e) (h : Inv s) :
    Inv (step s e) := by
  cases e with
  | arrive id query => exact arrive_inv h id query
  | lookup id order => exact lookup_inv h id order hfree
  | reply id resp order => exact reply_inv h id resp order
  | pass _ | reconfigure _ => exact ⟨h.cacheKnown, h.pendingOk, h.servedOk⟩
  | cleanup => exact h.updateCache fun _ hc => hc.cleanup _
  | clear => exact h.updateCache fun c _ => Cache.Interface.clear_holds c

theorem boot_inv (libs : Libraries) (deps : Deps)
    (cache : Option GloryHole.Config.CacheConfig) (now : Int) :
    Inv (boot libs deps cache now) := by
  refine ⟨?_, fun _ _ hp => (Option.some_ne_none _ hp.symm).elim,
    fun _ hv => absurd hv List.not_mem_nil⟩
  intro c hc
  obtain ⟨cfg, -, hnew⟩ := Option.bind_eq_some_iff.mp hc
  exact Cache.new_holds hnew

/-- In every interleaving in which no query without a rule meets the key of a query
fetched through one, every answer served is isolated. -/
theorem served_isolated_of_unshared (libs : Libraries) (deps : Deps)
    (cache : Option GloryHole.Config.CacheConfig) (now : Int) (events : List Event)
    (hrun : AllSteps step Unshared (boot libs deps cache now) events) :
    ∀ s ∈ states step (boot libs deps cache now) events,
      ∀ v ∈ s.served, Isolated s.libs.lang v := by
  intro s hs
  exact (invariant_states step_inv hrun (boot_inv libs deps cache now) s hs).servedOk

/-! ## A shared key -/

def clientLang : Libraries :=
  { lang := { compiles := fun _ => true, run := fun logic ctx => some (ctx.clientIP == logic) }
    lower := id
    typeToString := fun _ => lit "A" }

def officeRule : Rule :=
  ⟨lit "office", lit "10.0.0.1", .actionForward, lit "10.9.9.9:53", true⟩

def officeDeps : Deps :=
  { localRecords := fun _ _ => none
    rules := [officeRule]
    enablePolicies := true
    policiesDisabled := false
    enableBlocklist := true
    blocklistDisabled := false
    blocklistManager := none
    legacyBlocklist := []
    hasForwarder := true
    blockPageIP := [] }

def hourCache : GloryHole.Config.CacheConfig :=
  { enabled := true, maxEntries := 100, maxTTL := 3600 * Cache.second }

def askFor (client name : GoString) : Query :=
  ⟨client, { question := [⟨name, typeA, 1⟩] }, ⟨0, 12, 0, 1, 1, 1⟩⟩

def answerFor (name : GoString) (address : List UInt8) : Msg :=
  { response := true, question := [⟨name, typeA, 1⟩], answer := [⟨name, typeA, 1, 60, address⟩] }

theorem served_isolated_of_unshared_two_names :
    (states step (boot clientLang officeDeps (some hourCache) 0)
        [.arrive 0 (askFor (lit "10.0.0.1") (lit "wiki.")),
          .reply 0 (some (answerFor (lit "wiki.") [10, 9, 0, 1])) [],
          .arrive 1 (askFor (lit "10.0.0.2") (lit "news.")), .lookup 1 []]).Forall
      fun s => ∀ v ∈ s.served, Isolated s.libs.lang v :=
  List.forall_iff_forall_mem.mpr <|
    served_isolated_of_unshared clientLang officeDeps (some hourCache) 0 _
    ⟨trivial, trivial, trivial, by
      intro p hp e he rule hrule _
      have hkey : p.query = askFor (lit "10.0.0.2") (lit "news.") := by
        cases hp
        rfl
      have hother : ∀ e ∈ [(askFor (lit "10.0.0.1") (lit "wiki."), some officeRule),
          (askFor (lit "10.0.0.2") (lit "news."), none)],
          e.2 = none ∨ Cache.makeMsgKey e.1.request ≠
            Cache.makeMsgKey (askFor (lit "10.0.0.2") (lit "news.")).request := by
        decide
      rw [hkey]
      refine (hother e he).resolve_left ?_
      rw [hrule]
      exact Option.some_ne_none rule, trivial⟩

/-- 10.0.0.1 asks for a name through its rule; 10.0.0.2, which no rule matches, then
gets the answer of the other's resolver out of the cache. -/
theorem cached_answer_crosses_clients :
    ∃ s ∈ states step (boot clientLang officeDeps (some hourCache) 0)
        [.arrive 0 (askFor (lit "10.0.0.1") (lit "wiki.")),
          .reply 0 (some (answerFor (lit "wiki.") [10, 9, 0, 1])) [],
          .arrive 1 (askFor (lit "10.0.0.2") (lit "wiki.")), .lookup 1 []],
      ∃ v ∈ s.served, v.query.client = lit "10.0.0.2" ∧ v.rule = none ∧ v.cached = true ∧
        v.msg.answer = (answerFor (lit "wiki.") [10, 9, 0, 1]).answer ∧
        v.source = .upstream ⟨lit "10.0.0.1", some officeRule, .upstreams [lit "10.9.9.9:53"]⟩ ∧
        ¬ Isolated s.libs.lang v := by
  refine ⟨_, exec_mem_states _ _, _, List.mem_append_right _ (List.mem_singleton.mpr rfl),
    rfl, rfl, rfl, rfl, rfl, ?_⟩
  intro hiso
  have hroute := (hiso _ rfl).1
  cases hroute

end GloryHole.Dns
